import CMakeDocs.Proofs.Collecting.Runs
import CMakeDocs.Proofs.Reading.Accepted
import CMakeDocs.Proofs.Reading.Items

/-!
# Files that are joined

Collecting from one file and then from another is collecting from the file that has the tokens of
both, one behind the other. What a command does to a collector does not depend on its line, a run
over two lists of items is a run over the second from where the first has led, and the reader makes
the same items of the joined tokens as of both parts.
-/
namespace CMakeDocs

open CMakeDocs.Tree

theorem Command.eq_of_unplaced {c c' : Command} (h : c'.unplaced = c.unplaced) :
    c' = { c with line := c'.line } := by
  obtain ⟨name, arguments, text, line⟩ := c
  obtain ⟨name', arguments', text', line'⟩ := c'
  simp only [unplaced, mk.injEq] at h
  obtain ⟨rfl, rfl, rfl, -⟩ := h
  rfl

namespace Collector

variable {s : Settings} {c : Collector} {doc : String} {command command' : Command}
  {r : Collector × List LogRecord}

theorem record_of_unplaced (h : command'.unplaced = command.unplaced)
    (hr : record s doc command c = .ok r) : record s doc command' c = .ok r := by
  rw [Command.eq_of_unplaced h]
  generalize command'.line = line
  have hkind : { command with line := line }.kind = command.kind := rfl
  cases hk : command.kind with
  | definition isMacro =>
    have hsingles : { command with line := line }.singles = command.singles := rfl
    obtain ⟨c', logs⟩ := r
    rw [record_definition hk] at hr
    obtain ⟨name, rest, params, hasKeywords, hs, hparams, htrigger, rfl, rfl⟩ := define_eq_ok hr
    rw [record_definition (hkind.trans hk), define, hsingles, hs]
    simp only [hparams, htrigger]
    rfl
  | _ =>
    unfold record at hr ⊢
    rw [hk] at hr
    rw [hkind, hk]
    exact hr

theorem follow_of_unplaced {hasComment : Bool} (h : command'.unplaced = command.unplaced)
    (hf : follow s hasComment command c = .ok r) : follow s hasComment command' c = .ok r := by
  have hrecord (hr : record s "" command c = .ok r) : record s "" command' c = .ok r :=
    record_of_unplaced h hr
  have hkind : command'.kind = command.kind := by rw [Command.eq_of_unplaced h]; rfl
  have hsingles : command'.singles = command.singles := by rw [Command.eq_of_unplaced h]; rfl
  by_cases hsettled : command.kind.isSettled = true
  · rw [follow_settled hsettled, recordIfIncluded] at hf
    rw [follow_settled (hkind ▸ hsettled), recordIfIncluded, hkind]
    split_ifs at hf ⊢ with hc hi
    · exact hf
    · exact hrecord hf
    · exact hf
  cases hk : command.kind with
  | definition isMacro =>
    have hk' := hkind.trans hk
    cases ha : c.awaiting with
    | some a =>
      have hlink : linkAwaiting s isMacro command' a c = linkAwaiting s isMacro command a c := by
        unfold linkAwaiting
        rw [hsingles]
      rw [follow_awaited hk ha] at hf
      rw [follow_awaited hk' ha, hlink, hf]
    | none =>
      rw [follow_unawaited hk ha] at hf
      rw [follow_unawaited hk' ha]
      split_ifs at hf ⊢ with hc hi
      · exact hf
      · exact hrecord hf
      · exact hf
  | classStart =>
    rw [follow_classStart hk] at hf
    rw [follow_classStart (hkind.trans hk)]
    split_ifs at hf ⊢ with hi hc
    · exact hf
    · exact hf
    · exact hrecord hf
  | option | test | unitTest _ | member _ | classAttribute =>
    simp [hk, CommandKind.isSettled] at hsettled
  | _ =>
    unfold follow at hf ⊢
    rw [hk] at hf
    rw [hkind, hk]
    exact hf

/-- A step without an error is the same for whatever can do the same. -/
theorem step_congr {p : Progress} {text : String} {f g : Collector → Outcome}
    (hok : (p.step text command f).error = none) (command' : Command)
    (hfg : ∀ c r, f c = .ok r → g c = .ok r) :
    p.step text command' g = p.step text command f := by
  unfold Progress.step at hok ⊢
  cases hp : p.error with
  | some e => rfl
  | none =>
    rw [hp] at hok
    dsimp only at hok ⊢
    cases hf : f p.collector with
    | error e =>
      rw [hf] at hok
      cases hok
    | ok r => rw [hfg _ _ hf]

theorem item_of_unplaced {p : Progress} {it it' : Item} (h : it'.unplaced = it.unplaced)
    (hok : (item s p it).error = none) : item s p it' = item s p it := by
  cases it with
  | moduleComment text =>
    cases it' with
    | moduleComment text' =>
      cases h
      rfl
    | _ => cases h
  | documented comment command =>
    cases it' with
    | documented comment' command' =>
      obtain ⟨rfl, hcommand⟩ := Item.documented.inj h
      obtain ⟨hrecorded, -⟩ := step_of_error_none hok
      have hsame := step_congr hrecorded command'
        fun c r => record_of_unplaced hcommand (c := c) (r := r)
      dsimp only [item, followCommand] at hok ⊢
      rw [hsame]
      exact step_congr hok command' fun _ _ => follow_of_unplaced hcommand
    | _ => cases h
  | plain command =>
    cases it' with
    | plain command' =>
      exact step_congr hok command' fun _ _ => follow_of_unplaced (Item.plain.inj h)
    | _ => cases h
  | strayComment =>
    cases it' with
    | strayComment => rfl
    | _ => cases h

/-- A run without an error is the same for items that differ in their lines. -/
theorem items_of_unplaced {is js : List Item}
    (h : js.map Item.unplaced = is.map Item.unplaced) (hok : (items s is c).error = none) :
    items s js c = items s is c := by
  induction is using List.reverseRecOn generalizing js with
  | nil =>
    obtain rfl := List.map_eq_nil_iff.mp h
    rfl
  | append_singleton is it ih =>
    rw [List.map_append] at h
    obtain ⟨js, last, rfl, hjs, hlast⟩ := List.map_eq_append_iff.mp h
    obtain ⟨it', others, rfl, hit, hothers⟩ := List.map_eq_cons_iff.mp hlast
    obtain rfl := List.map_eq_nil_iff.mp hothers
    obtain ⟨hbefore, -⟩ := items_concat_error_none hok
    rw [items_concat] at hok
    rw [items_concat, items_concat, ih hjs hbefore, item_of_unplaced hit hok]

/-- The same progress, with something said before. -/
def Progress.after (logs : List LogRecord) (p : Progress) : Progress :=
  { p with logs := logs ++ p.logs }

theorem Progress.after_start {p : Progress} (h : p.error = none) :
    (start p.collector).after p.logs = p := by
  obtain ⟨c, logs, error⟩ := p
  cases h
  simp [start, after]

theorem step_after (logs : List LogRecord) (p : Progress) (text : String) (command : Command)
    (f : Collector → Outcome) :
    (p.after logs).step text command f = (p.step text command f).after logs := by
  obtain ⟨c, logs', error⟩ := p
  unfold Progress.step Progress.after
  cases error with
  | some e => rfl
  | none =>
    dsimp only
    cases f c with
    | error e => simp
    | ok r => simp

theorem item_after (s : Settings) (logs : List LogRecord) (p : Progress) (it : Item) :
    item s (p.after logs) it = (item s p it).after logs := by
  obtain ⟨c, logs', error⟩ := p
  cases it with
  | documented comment command => rw [item, followCommand, step_after, step_after]; rfl
  | plain command => rw [item, followCommand, step_after]; rfl
  | moduleComment text => cases error <;> simp [item, Progress.after, Progress.append]
  | strayComment => cases error <;> simp [item, Progress.after, Progress.say]

/-- A run over two lists of items is a run over the second from where the first has led. -/
theorem items_append {is : List Item} (h : (items s is c).error = none) (js : List Item) :
    items s (is ++ js) c =
      (items s js (items s is c).collector).after (items s is c).logs := by
  have hrun (p : Progress) (logs : List LogRecord) :
      js.foldl (item s) (p.after logs) = (js.foldl (item s) p).after logs := by
    induction js generalizing p with
    | nil => rfl
    | cons it js ih => rw [List.foldl_cons, List.foldl_cons, item_after, ih]
  calc items s (is ++ js) c
      = js.foldl (item s) (items s is c) := List.foldl_append
    _ = js.foldl (item s) ((Progress.start (items s is c).collector).after
          (items s is c).logs) := by rw [Progress.after_start h]
    _ = (items s js (items s is c).collector).after (items s is c).logs := hrun _ _

/-- Reads tokens as a file and goes through the tree of it, unless the reader stops at a fault. -/
def walk? (s : Settings) (cells : List Cell) (c : Collector) : Option Progress :=
  let step := Reader.file (Reader.ofCells cells)
  match step.fault with
  | some _ => none
  | none => step.tree?.map (file s · c)

/-- Tokens of the language are read as the items of their derivation. -/
theorem walk?_of_derivation {modules ts : List Tree} {last : Token} {cells : List Cell}
    (hm : Derivation.IsModulePart modules) (hts : Derivation.Attached ts)
    (hl : last.kind = .endOfText)
    (h : cells.map Cell.token = leavesOfList modules ++ leavesOfList ts ++ [last])
    (s : Settings) (c : Collector) :
    Grammar.File (cells.map fun cell => cell.token.kind) ∧
      walk? s cells c = some (items s ((modules ++ ts).filterMap Item.ofTree?) c) := by
  have hkinds := (Derivation.File.mk (p := .origin) hm hts.items hl).kinds
  simp only [leaves_node, leavesOfList_append, leavesOfList_cons, leaves_token, leavesOfList_nil,
    List.append_nil] at hkinds
  rw [← h] at hkinds
  obtain ⟨hfault, htrees, -⟩ := Reader.file_reads hm hts hl (Reader.ofCells_calm hkinds.ended)
    (by rw [Reader.ofCells_tokens, h, List.append_assoc])
  rw [List.map_map] at hkinds
  refine ⟨hkinds, ?_⟩
  have hend : Item.ofTree? (.token last) = none := rfl
  unfold walk?
  dsimp only
  rw [hfault, Step.tree?, htrees]
  simp [file, Item.ofFile, Tree.children, List.filterMap_append, hend]

/-- Collecting from a file of the language and then from another one without a module comment comes
to the same as collecting from the tokens of both, one behind the other, wherever these stand. The
first file must not end with a comment, which would belong to the second then. -/
theorem walk_joined (s : Settings) (c : Collector) (first second joined : List Cell)
    (p q : Progress) (hfirst : Grammar.File (first.map fun cell => cell.token.kind))
    (hsecond : Grammar.File (second.map fun cell => cell.token.kind))
    (hcomment : ∀ cell ∈ first.dropLast.getLast?, cell.token.kind ≠ .docComment)
    (hmodule : ∀ cell ∈ second, cell.token.kind ≠ .moduleComment)
    (hjoined : joined.map (fun cell => cell.token.word) =
      first.dropLast.map (fun cell => cell.token.word) ++
        second.map fun cell => cell.token.word)
    (hp : walk? s first c = some p) (hpok : p.error = none)
    (hq : walk? s second p.collector = some q) (hqok : q.error = none) :
    Grammar.File (joined.map fun cell => cell.token.kind) ∧
      walk? s joined c = some ⟨q.collector, p.logs ++ q.logs, none⟩ := by
  have htokens {α : Type} (f : Token → α) (cells : List Cell) :
      cells.map (fun cell => f cell.token) = (cells.map Cell.token).map f := by
    rw [List.map_map]
    rfl
  rw [htokens Token.kind] at hfirst hsecond
  obtain ⟨modules, ts, last, hm, hts, hl, hleaves⟩ := Derivation.File.exists_of_kinds hfirst
  obtain ⟨modules₂, us, last₂, hm₂, hus, hl₂, hleaves₂⟩ := Derivation.File.exists_of_kinds hsecond
  obtain rfl : modules₂ = [] := by
    cases hm₂ with
    | none => rfl
    | @one t ht =>
      have hmem : t ∈ second.map Cell.token := by simp [← hleaves₂]
      obtain ⟨cell, hcell, rfl⟩ := List.mem_map.mp hmem
      exact absurd ht (hmodule cell hcell)
  have hbefore : first.dropLast.map Cell.token = leavesOfList modules ++ leavesOfList ts := by
    rw [List.map_dropLast, ← hleaves, List.dropLast_concat]
  have hlast : ∀ t ∈ (leavesOfList ts).getLast?, t.kind ≠ .docComment := by
    intro t ht
    have hmem := mem_getLast?_append ht (leavesOfList modules)
    rw [← hbefore, List.getLast?_map] at hmem
    obtain ⟨cell, hcell, rfl⟩ := Option.map_eq_some_iff.mp hmem
    exact hcomment cell hcell
  rw [htokens Token.word, htokens Token.word, htokens Token.word, hbefore, ← hleaves₂,
    leavesOfList_nil, List.nil_append] at hjoined
  -- The joined tokens have a derivation with the items of both files, apart from their lines.
  obtain ⟨modules', ts', last', hm', hts', hl', htrees, hsame⟩ :=
    Derivation.exists_joined hm hts hus hlast hjoined
  obtain ⟨hgrammar, hwalk⟩ := walk?_of_derivation hm' hts' (hl'.trans hl₂) htrees s c
  refine ⟨hgrammar, hwalk.trans ?_⟩
  rw [(walk?_of_derivation hm hts hl hleaves.symm s c).2] at hp
  obtain rfl := Option.some.inj hp
  rw [(walk?_of_derivation .none hus hl₂ hleaves₂.symm s _).2] at hq
  obtain rfl := Option.some.inj hq
  have hboth := items_append hpok (us.filterMap Item.ofTree?)
  rw [items_of_unplaced hsame (by rw [hboth]; exact hqok), hboth, Progress.after]
  exact congrArg (fun error => some (Progress.mk _ _ error)) hqok

/-- A class that is open at the end of its file, with a method that awaits its definition. -/
def classPart : String := "#[[[ @module m\n#]]\ncpp_class(A)\ncpp_member(go A)\n"

/-- The definition of the method and the end of the class. -/
def methodPart : String := "macro(go self x)\nendmacro()\ncpp_end_class()\n"

theorem classPart_joined : ∃ p q,
    walk? default (Cell.ofText classPart) empty = some p ∧ p.error = none ∧
      p.collector.classes.length = 1 ∧ p.collector.awaiting.isSome = true ∧
      walk? default (Cell.ofText methodPart) p.collector = some q ∧ q.error = none ∧
      walk? default (Cell.ofText (classPart ++ methodPart)) empty =
        some ⟨q.collector, p.logs ++ q.logs, none⟩ := by
  have hfirst : Grammar.File ((Cell.ofText classPart).map fun cell => cell.token.kind) := by
    have hkinds : (Cell.ofText classPart).map (fun cell => cell.token.kind) =
        [.moduleComment, .identifier, .leftParen, .identifier, .rightParen, .identifier, .leftParen,
          .identifier, .identifier, .rightParen, .endOfText] := by
      decide
    rw [hkinds]
    exact .withModule (.command (.mk (.single rfl .nil))
      (.command (.mk (.single rfl (.single rfl .nil))) .nil))
  have hsecond : Grammar.File ((Cell.ofText methodPart).map fun cell => cell.token.kind) := by
    have hkinds : (Cell.ofText methodPart).map (fun cell => cell.token.kind) =
        [.identifier, .leftParen, .identifier, .identifier, .identifier, .rightParen,
          .identifier, .leftParen, .rightParen, .identifier, .leftParen, .rightParen,
          .endOfText] := by
      decide
    rw [hkinds]
    exact .plain (.command (.mk (.single rfl (.single rfl (.single rfl .nil))))
      (.command (.mk .nil) (.command (.mk .nil) .nil)))
  have hrun : ((walk? default (Cell.ofText classPart) empty).bind fun p =>
      (walk? default (Cell.ofText methodPart) p.collector).map fun q =>
        (p.error.isNone, p.collector.classes.length, p.collector.awaiting.isSome,
          q.error.isNone)) = some (true, 1, true, true) := by
    decide
  obtain ⟨p, hp, hrest⟩ := Option.bind_eq_some_iff.mp hrun
  obtain ⟨q, hq, hvalues⟩ := Option.map_eq_some_iff.mp hrest
  simp only [Prod.mk.injEq, Option.isNone_iff_eq_none] at hvalues
  obtain ⟨hpok, hclasses, hawaiting, hqok⟩ := hvalues
  have hjoined := walk_joined default empty _ _ (Cell.ofText (classPart ++ methodPart)) p q hfirst
    hsecond (by decide) (by decide) (by decide) hp hpok hq hqok
  exact ⟨p, q, hp, hpok, hclasses, hawaiting, hq, hqok, hjoined.2⟩

end Collector

end CMakeDocs
