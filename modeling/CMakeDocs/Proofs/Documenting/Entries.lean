import CMakeDocs.Document
import CMakeDocs.Proofs.Collecting.Handling
import CMakeDocs.Proofs.Documenting.Source
import CMakeDocs.Proofs.Reading.Accepted
import CMakeDocs.Proofs.Reading.Items
import CMakeDocs.Settings.Groups

/-!
# The entries of documented definitions

From the tokens of a file of definitions to its entries: the reader attaches each comment to the
command behind it, cleaning the comment gives back the lines it was made of, and the collector
opens and closes one definition after the other.
-/
namespace CMakeDocs

namespace WrittenDefinition

variable (d : WrittenDefinition)

/-- The documentation of a definition: its lines, and a line feed behind the last one. -/
def docText : String := Text.unlines (d.doc ++ [""])

theorem newline_not_mem_indent : '\n' ∉ d.indent.toList := by
  intro h
  exact absurd (d.indent_blank _ h) (by decide)

theorem lines_comment :
    Text.lines d.comment = "#[[[" :: (d.docLines ++ [d.indent ++ "#]]"]) := by
  refine Text.lines_unlines (by simp) ?_
  have hindent := d.newline_not_mem_indent
  have hdoc := d.doc_lines
  intro line hline
  simp only [docLines, List.mem_cons, List.mem_append, List.mem_map, List.not_mem_nil,
    or_false] at hline
  rcases hline with rfl | ⟨text, ht, rfl⟩ | rfl
  · decide
  · simp [hindent, hdoc text ht]
  · simp [hindent]

end WrittenDefinition

namespace Comment

theorem indentation_blank {w : List Char} (h : ∀ c ∈ w, Extent.isBlank c = true)
    (rest : List Char) : indentation (w ++ '#' :: rest) = w.length := by
  have hw : ∀ c ∈ w, (decide (c ≠ '#')) = true := by
    intro c hc
    refine decide_eq_true ?_
    rintro rfl
    exact absurd (h _ hc) (by decide)
  rw [indentation, List.takeWhile_append_of_pos hw, List.takeWhile_cons_of_neg (by simp),
    List.append_nil]

theorem cleanLine_opening (n : Nat) : cleanLine n "#[[[".toList = [] := by
  have hall : ∀ c ∈ "#[[[".toList, isOpeningMark c = true := List.all_eq_true.mp rfl
  have hdrop : ∀ c ∈ "#[[[".toList.drop n, isOpeningMark c = true :=
    fun c hc => hall c (List.mem_of_mem_drop hc)
  rw [cleanLine, ← List.append_nil (List.drop _ _), List.dropWhile_append_of_pos hdrop]
  rfl

theorem cleanLine_marked (w text : List Char) :
    cleanLine w.length (w ++ '#' :: ' ' :: text) = text := by
  rw [cleanLine, List.drop_left]
  rfl

theorem cleanLast_closing (w : List Char) : cleanLast w.length (w ++ "#]]".toList) = [] := by
  rw [cleanLast, cleanLine, List.drop_left]
  rfl

end Comment

theorem WrittenDefinition.clean_comment (d : WrittenDefinition) :
    Comment.clean d.comment = d.docText := by
  have hindent : Comment.indentation (d.indent ++ "#]]").toList = d.indent.toList.length := by
    rw [String.toList_append]
    exact Comment.indentation_blank d.indent_blank _
  have hdoc : d.docLines.map (fun line => Comment.cleanLine d.indent.toList.length line.toList) =
      d.doc.map String.toList := by
    rw [docLines, List.map_map]
    refine List.map_congr_left fun line _ => ?_
    rw [Function.comp_apply, String.toList_append, String.toList_append, List.append_assoc]
    exact Comment.cleanLine_marked _ _
  have hlast : Comment.cleanLast d.indent.toList.length (d.indent ++ "#]]").toList = [] := by
    rw [String.toList_append]
    exact Comment.cleanLast_closing _
  rw [Comment.clean, d.lines_comment, Comment.cleanLines?, ← List.cons_append,
    List.getLast?_concat, Option.map_some, List.dropLast_concat, Option.getD_some]
  dsimp only
  rw [hindent, hlast, List.map_cons, hdoc, Comment.cleanLine_opening, docText]
  refine String.toList_injective ?_
  rw [Text.toList_unlines, String.toList_ofList, List.map_append, List.map_singleton,
    Text.joinChars_concat, Text.joinChars_concat]
  rfl

namespace Command

/-- A command with the given name and the given words as its arguments. -/
def Calls (command : Command) (name : String) (words : List String) : Prop :=
  command.name = Text.toSmall name ∧ command.singles = words

end Command

/-- The trees of arguments that are single tokens. -/
def argumentTrees (ts : List Token) : List Tree :=
  ts.map fun t => .node .argument t.position [.token t]

theorem argumentTrees_derivation {ts : List Token} (h : ∀ t ∈ ts, t.kind.isArgument = true) :
    Derivation.Arguments (argumentTrees ts) := by
  induction ts with
  | nil => exact .nil
  | cons t ts ih =>
    obtain ⟨ht, hts⟩ := List.forall_mem_cons.mp h
    exact .single ht (ih hts)

theorem leaves_argumentTrees (ts : List Token) : Tree.leavesOfList (argumentTrees ts) = ts := by
  induction ts with
  | nil => simp [argumentTrees]
  | cons t ts ih =>
    rw [argumentTrees] at ih ⊢
    simp [ih]

theorem arguments_argumentTrees (ts : List Token) :
    (argumentTrees ts).filterMap Command.argumentOf? =
      ts.map fun t => .single t.kind t.text := by
  induction ts with
  | nil => rfl
  | cons t ts ih =>
    have ht : Command.argumentOf? (.node .argument t.position [.token t]) =
        some (.single t.kind t.text) := by
      simp [Command.argumentOf?, Tree.rule?, Command.argumentKind, Tree.text, Tree.textOfList]
    rw [argumentTrees] at ih ⊢
    rw [List.map_cons, List.filterMap_cons_some ht, ih, List.map_cons]

theorem kind_of_mem_words {ts : List Token} {words : List String}
    (h : ts.map Token.word = words.map fun word => (TokenKind.identifier, word)) :
    ∀ t ∈ ts, t.kind = .identifier := by
  intro t ht
  have hmem := List.mem_map_of_mem (f := Token.word) ht
  rw [h] at hmem
  obtain ⟨word, -, hword⟩ := List.mem_map.mp hmem
  exact congrArg Prod.fst hword.symm

theorem texts_of_words {ts : List Token} {words : List String}
    (h : ts.map Token.word = words.map fun word => (TokenKind.identifier, word)) :
    ts.map Token.text = words := by
  have htexts := congrArg (List.map Prod.snd) h
  simpa [Function.comp_def, Token.word] using htexts

/-- The tokens of a command are read as that command. -/
theorem exists_commandTree {ts : List Token} {name : String} {words : List String}
    (h : ts.map Token.word = commandWords name words) :
    ∃ tree command, Derivation.Command tree ∧ tree.leaves = ts ∧
      Command.ofTree? tree = some command ∧ command.Calls name words := by
  obtain ⟨first, ts, rfl, hfirst, h⟩ := List.map_eq_cons_iff.mp h
  obtain ⟨opening, ts, rfl, hopening, h⟩ := List.map_eq_cons_iff.mp h
  obtain ⟨args, ts, rfl, hargs, h⟩ := List.map_eq_append_iff.mp h
  obtain ⟨closing, ts, rfl, hclosing, h⟩ := List.map_eq_cons_iff.mp h
  obtain rfl := List.map_eq_nil_iff.mp h
  have hn : first.kind = .identifier := congrArg Prod.fst hfirst
  have htext : first.text = name := congrArg Prod.snd hfirst
  have ho : opening.kind = .leftParen := congrArg Prod.fst hopening
  have hc : closing.kind = .rightParen := congrArg Prod.fst hclosing
  have hkinds : ∀ t ∈ args, t.kind.isArgument = true := by
    intro t ht
    rw [kind_of_mem_words hargs t ht]
    rfl
  refine ⟨_, _, .mk hn ho (argumentTrees_derivation hkinds) hc, by simp [leaves_argumentTrees],
    ofTree?_commandNode hn opening closing _, congrArg Text.toSmall htext, ?_⟩
  rw [Command.singles, arguments_argumentTrees, List.filterMap_map, ← texts_of_words hargs]
  exact congrFun List.filterMap_eq_map args

/-- The items of a definition: the command with its comment, and its end. -/
inductive WrittenDefinition.Items (d : WrittenDefinition) : List Item → Prop where
  | mk {command stop : Command} (hc : command.Calls d.keyword (d.name :: d.params))
      (he : stop.Calls ("end" ++ d.keyword) []) :
      d.Items [.documented d.comment command, .plain stop]

/-- The trees of one definition in front of those of others. -/
theorem WrittenDefinition.exists_trees (d : WrittenDefinition) {ts : List Token}
    (h : ts.map Token.word = d.words) :
    ∃ trees, (∀ rest, Derivation.Attached rest → Derivation.Attached (trees ++ rest)) ∧
      Tree.leavesOfList trees = ts ∧ d.Items (trees.filterMap Item.ofTree?) := by
  obtain ⟨t, ts, rfl, ht, h⟩ := List.map_eq_cons_iff.mp h
  obtain ⟨ts, us, rfl, hts, hus⟩ := List.map_eq_append_iff.mp h
  have hk : t.kind = .docComment := congrArg Prod.fst ht
  have htext : t.text = d.comment := congrArg Prod.snd ht
  obtain ⟨tree, command, hc, hleaves, hcommand, hcalls⟩ := exists_commandTree hts
  obtain ⟨tree', stop, hc', hleaves', hstop, hcalls'⟩ := exists_commandTree hus
  refine ⟨[Derivation.documented t tree, tree'],
    fun rest hrest => .documented hk hc (.command hc' hrest), by simp [hleaves, hleaves'], ?_⟩
  rw [List.filterMap_cons_some (ofTree?_documented hc hcommand),
    List.filterMap_cons_some (ofTree?_command hc' hstop), List.filterMap_nil, htext]
  exact .mk hcalls hcalls'

/-- The items of several definitions, one after the other. -/
inductive ItemsOf : List WrittenDefinition → List Item → Prop where
  | nil : ItemsOf [] []
  | cons {d : WrittenDefinition} {ds : List WrittenDefinition} {is js : List Item}
      (hi : d.Items is) (hj : ItemsOf ds js) : ItemsOf (d :: ds) (is ++ js)

theorem exists_trees {ds : List WrittenDefinition} {ts : List Token}
    (h : ts.map Token.word = ds.flatMap WrittenDefinition.words) :
    ∃ trees, Derivation.Attached trees ∧ Tree.leavesOfList trees = ts ∧
      ItemsOf ds (trees.filterMap Item.ofTree?) := by
  induction ds generalizing ts with
  | nil =>
    obtain rfl := List.map_eq_nil_iff.mp h
    exact ⟨[], .nil, by simp, .nil⟩
  | cons d ds ih =>
    obtain ⟨ts, us, rfl, hts, hus⟩ := List.map_eq_append_iff.mp h
    obtain ⟨trees, htrees, hleaves, hitems⟩ := d.exists_trees hts
    obtain ⟨others, hothers, hleaves', hitems'⟩ := ih hus
    refine ⟨trees ++ others, htrees others hothers, by simp [hleaves, hleaves'], ?_⟩
    rw [List.filterMap_append]
    exact .cons hitems hitems'

/-- A file of definitions is read as their items. -/
theorem file_sourceText (ds : List WrittenDefinition) :
    ∃ tree, (Reader.file (Reader.start (sourceText ds))).fault = none ∧
      (Reader.file (Reader.start (sourceText ds))).trees = [tree] ∧
      ItemsOf ds (Item.ofFile tree) := by
  have hwords := Reader.start_words (sourceText ds)
  rw [words_sourceText] at hwords
  obtain ⟨ts, ends, htokens, hts, hends⟩ := List.map_eq_append_iff.mp hwords
  obtain ⟨last, ends, rfl, hlast, hnil⟩ := List.map_eq_cons_iff.mp hends
  obtain rfl := List.map_eq_nil_iff.mp hnil
  obtain ⟨trees, hattached, hleaves, hitems⟩ := exists_trees hts
  obtain ⟨hfault, htrees, -⟩ := Reader.file_reads .none hattached (congrArg Prod.fst hlast)
    (Reader.start_calm (sourceText ds)) (by simpa [hleaves] using htokens)
  refine ⟨_, hfault, htrees, ?_⟩
  have hend : Item.ofTree? (.token last) = none := rfl
  rw [Item.ofFile, Tree.children, List.nil_append, List.filterMap_append,
    List.filterMap_cons_none hend, List.filterMap_nil, List.append_nil]
  exact hitems

/-- The settings that hold when nothing is set. -/
def presetSettings : Settings := (SettingGroups.mk [] [] [] []).toSettings

namespace Pattern

theorem matchLength?_empty (c : Cursor) (tried : Tried) :
    empty.matchLength? c tried = (none, tried) := by
  rw [matchLength?, find, if_neg (Nat.lt_irrefl _)]
  rfl

theorem deleteFrom_empty (before : List Char) (left : Nat) (tried : Tried) (cs : List Char) :
    deleteFrom empty 0 before left tried cs = cs := by
  induction cs generalizing before left tried with
  | nil => rw [deleteFrom]
  | cons c cs ih =>
    rw [deleteFrom, matchLength?_empty]
    dsimp only
    rw [ih]

/-- Without anything to delete a text stays as it is. -/
theorem delete_empty (s : String) : empty.delete s = s := by
  rw [delete, deleteFrom_empty, String.ofList_toList]

end Pattern

namespace Collector

theorem strip_preset (isMacro : Bool) (params : List String) :
    strip presetSettings.characterNamed (presetSettings.definitionStrip isMacro) params =
      .ok params := by
  have hsetting : presetSettings.definitionStrip isMacro = .text "" := by
    cases isMacro <;> rfl
  have hpattern : Pattern.ofString? presetSettings.characterNamed "" = .ok .empty := rfl
  rw [hsetting, strip]
  split
  · next h => rw [List.isEmpty_iff.mp h]
  · rw [hpattern]
    dsimp only
    rw [List.map_congr_left (fun s _ => Pattern.delete_empty s), List.map_id']

theorem hasTrigger_preset (doc : String) :
    hasTrigger presetSettings.keywordTrigger doc = .ok (Text.contains ":param **kwargs:" doc) := rfl

end Collector

namespace WrittenDefinition

variable (d : WrittenDefinition)

/-- Whether the documentation speaks of keyword arguments. -/
def takesKeywords : Bool := Text.contains ":param **kwargs:" (Text.unlines d.doc)

theorem contains_docText : Text.contains ":param **kwargs:" d.docText = d.takesKeywords := by
  unfold docText takesKeywords
  by_cases hdoc : d.doc = []
  · rw [hdoc]
    rfl
  · rw [Text.unlines_concat_empty, ← Text.unlines_newline hdoc]
    exact Text.contains_append_newline (by decide) (by decide) _

def definition : Definition := ⟨d.name, d.docText, d.params, d.takesKeywords⟩

def entry : Entry := .definition d.isMacro d.definition

theorem kind_of_calls {command : Command} {words : List String}
    (h : command.Calls d.keyword words) : command.kind = .definition d.isMacro := by
  rw [Command.kind, h.1, keyword]
  cases d.isMacro <;> decide

theorem kind_of_calls_end {command : Command} {words : List String}
    (h : command.Calls ("end" ++ d.keyword) words) : command.kind = .endDefinition := by
  rw [Command.kind, h.1, keyword]
  cases d.isMacro <;> decide

end WrittenDefinition

namespace Collector

theorem step_of_ok {p : Progress} (text : String) (command : Command) {f : Collector → Outcome}
    {c : Collector} {logs : List LogRecord} (hp : p.error = none)
    (hf : f p.collector = .ok (c, logs)) :
    (p.step text command f).error = none ∧ (p.step text command f).collector = c := by
  simp [Progress.step, hp, hf]

theorem item_plain_of_ok {s : Settings} {p : Progress} {command : Command} {c : Collector}
    {logs : List LogRecord} (hp : p.error = none)
    (hf : follow s false command p.collector = .ok (c, logs)) :
    (item s p (.plain command)).error = none ∧ (item s p (.plain command)).collector = c :=
  step_of_ok _ command hp hf

theorem item_documented_of_ok {s : Settings} {p : Progress} {comment : String}
    {command : Command} {c c' : Collector} {logs logs' : List LogRecord} (hp : p.error = none)
    (hr : record s (Comment.clean comment) command p.collector = .ok (c, logs))
    (hf : follow s true command c = .ok (c', logs')) :
    (item s p (.documented comment command)).error = none ∧
      (item s p (.documented comment command)).collector = c' := by
  obtain ⟨hp₁, hc₁⟩ :=
    step_of_ok "Caught exception while processing documented command" command hp hr
  exact step_of_ok _ command hp₁ (by rw [hc₁, hf])

/-- A definition is opened by its command and closed by its end, and has its entry then. -/
theorem run_definition {d : WrittenDefinition} {is : List Item} (h : d.Items is) {p : Progress}
    (hp : p.error = none) (hw : p.collector.awaiting = none) :
    (is.foldl (item presetSettings) p).error = none ∧
      (is.foldl (item presetSettings) p).collector = p.collector.append d.entry := by
  cases h with
  | @mk command stop hc he =>
    have hkind := d.kind_of_calls hc
    have hend := d.kind_of_calls_end he
    generalize hopened : ({ p.collector.append d.entry with
      definitions := some p.collector.next :: p.collector.definitions } : Collector) = opened
    have hrecord : record presetSettings (Comment.clean d.comment) command p.collector =
        .ok (opened, []) := by
      simp only [record_definition hkind, define, hc.2]
      rw [strip_preset, hasTrigger_preset, d.clean_comment, d.contains_docText, ← hopened]
      rfl
    have hfollow : follow presetSettings true command opened = .ok (opened, []) := by
      have hawaiting : opened.awaiting = none := by
        rw [← hopened]
        exact hw
      rw [follow_unawaited hkind hawaiting, if_pos rfl]
    have hstop : follow presetSettings false stop opened =
        .ok (p.collector.append d.entry, []) := by
      rw [← hopened, follow_endDefinition_cons hend rfl]
      rfl
    obtain ⟨hp₁, hc₁⟩ := item_documented_of_ok hp hrecord hfollow
    rw [← hc₁] at hstop
    exact item_plain_of_ok hp₁ hstop

theorem run_definitions {ds : List WrittenDefinition} {is : List Item} (h : ItemsOf ds is)
    {p : Progress} (hp : p.error = none) (hw : p.collector.awaiting = none) :
    (is.foldl (item presetSettings) p).error = none ∧
      (is.foldl (item presetSettings) p).collector.entries =
        p.collector.entries ++ ds.map WrittenDefinition.entry := by
  induction h generalizing p with
  | nil => exact ⟨hp, by simp⟩
  | @cons d ds is js hi _ ih =>
    obtain ⟨hp₁, hc₁⟩ := run_definition hi hp hw
    obtain ⟨hp₂, he₂⟩ := ih hp₁ (by rw [hc₁]; exact hw)
    rw [List.foldl_append]
    refine ⟨hp₂, ?_⟩
    rw [he₂, hc₁]
    simp

end Collector

end CMakeDocs
