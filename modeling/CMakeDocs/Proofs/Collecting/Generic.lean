import CMakeDocs.Proofs.Collecting.Origins
import CMakeDocs.Proofs.Reading.Documented
import CMakeDocs.Proofs.Scanning.Spans

/-!
# Commands without a rule of their own

A documented command without a rule of its own gets an entry that lists its arguments: first those
that are one token, then the groups, and within each of the two in the order of the text. So the
order of the text is kept as a whole just if no argument of one token comes behind a group. The
texts show the difference, because a group begins with a parenthesis and no token of an argument
does.
-/
namespace CMakeDocs

open CMakeDocs.Tree

section Moving

variable {α : Type} {p : α → Bool} {xs : List α}

theorem pairwise_filter_append_filter (p : α → Bool) (xs : List α) :
    (xs.filter (fun x => !p x) ++ xs.filter p).Pairwise fun a b => p a = true → p b = true := by
  refine List.pairwise_append.mpr ⟨?_, ?_, fun a _ b hb _ => (List.mem_filter.mp hb).2⟩
  · refine List.pairwise_of_forall_mem_list fun a ha b _ hp => ?_
    have hnot := (List.mem_filter.mp ha).2
    simp [hp] at hnot
  · exact List.pairwise_of_forall_mem_list fun a _ b hb _ => (List.mem_filter.mp hb).2

theorem filter_append_filter_of_pairwise (h : xs.Pairwise fun a b => p a = true → p b = true) :
    xs.filter (fun x => !p x) ++ xs.filter p = xs := by
  induction xs with
  | nil => rfl
  | cons x xs ih =>
    obtain ⟨hx, hxs⟩ := List.pairwise_cons.mp h
    cases hp : p x with
    | false =>
      rw [List.filter_cons_of_pos (by simp [hp]), List.filter_cons_of_neg (by simp [hp]),
        List.cons_append, ih hxs]
    | true =>
      have hall : ∀ y ∈ xs, p y = true := fun y hy => hx y hy hp
      rw [List.filter_cons_of_neg (by simp [hp]), List.filter_cons_of_pos hp,
        List.filter_eq_nil_iff.mpr (by simpa using hall), List.filter_eq_self.mpr hall,
        List.nil_append]

/-- Members of a list that all come from somewhere come from a list. -/
theorem exists_map_eq {β : Type} {f : α → β} {P : α → Prop} {ys : List β}
    (h : ∀ y ∈ ys, ∃ x, P x ∧ f x = y) :
    ∃ xs : List α, (∀ x ∈ xs, P x) ∧ xs.map f = ys := by
  induction ys with
  | nil => exact ⟨[], by simp, rfl⟩
  | cons y ys ih =>
    obtain ⟨⟨x, hx, rfl⟩, hys⟩ := List.forall_mem_cons.mp h
    obtain ⟨xs, hxs, rfl⟩ := ih hys
    exact ⟨x :: xs, List.forall_mem_cons.mpr ⟨hx, hxs⟩, rfl⟩

end Moving

def Tree.isGroup (t : Tree) : Bool := t.rule? = some .group

/-- Whether a text begins like a group. -/
def beginsGroup (s : String) : Bool := s.toList.head? = some '('

theorem beginsGroup_append {s : String} (h : beginsGroup s = true) (t : String) :
    beginsGroup (s ++ t) = true := by
  simp only [beginsGroup, decide_eq_true_eq] at h ⊢
  rw [String.toList_append, List.head?_append, h]
  rfl

theorem Scan.Reads.head?_ne_leftParen {kind : TokenKind} {piece rest : List Char}
    (h : Reads (.token kind) piece rest) (hk : kind.isArgument = true) :
    piece.head? ≠ some '(' := by
  cases h with
  | leftParen | rightParen | moduleComment | docComment | openComment => cases hk
  | quoted => simp
  | identifier h =>
    obtain ⟨c, cs, heq, hc, -⟩ := h
    rw [heq, List.head?_cons, Ne, Option.some.injEq]
    rintro rfl
    exact absurd hc (by decide)
  | @unquoted c cs _ h =>
    have hword : Extent.unquoted (c :: cs) ≠ 0 := by simp [h]
    simpa using (ne_of_startsWord (startsWord_of_unquoted hword)).1
  | bracket h =>
    obtain ⟨level, i, hopen, -⟩ := Extent.bracketed?_eq_some_iff.mp h
    simpa using (List.cons_prefix_cons.mp hopen).1.symm.trans_ne (by decide)

theorem Token.beginsGroup_of_isArgument {text : String} {t : Token} (h : t ∈ ofText text)
    (hk : t.kind.isArgument = true) : beginsGroup t.text = false := by
  obtain ⟨rest, hreads⟩ := exists_reads h
  exact decide_eq_false (hreads.head?_ne_leftParen hk)

theorem Token.beginsGroup_of_leftParen {text : String} {t : Token} (h : t ∈ ofText text)
    (hk : t.kind = .leftParen) : beginsGroup t.text = true := by
  obtain ⟨rest, hreads⟩ := exists_reads h
  rw [hk] at hreads
  unfold beginsGroup
  generalize t.text.toList = piece at hreads
  cases hreads
  rfl

namespace Derivation.Arguments

variable {ts : List Tree}

theorem beginsGroup_text (h : Arguments ts) {text : String}
    (hmem : ∀ t ∈ leavesOfList ts, t ∈ Token.ofText text) :
    ∀ t ∈ ts, beginsGroup t.text = t.isGroup := by
  induction h with
  | nil => simp
  | @single t rest hk _ ih =>
    rw [leavesOfList_cons, List.forall_mem_append] at hmem
    refine List.forall_mem_cons.mpr ⟨?_, ih hmem.2⟩
    have htoken := Token.beginsGroup_of_isArgument (hmem.1 t (by simp)) hk
    simpa [Tree.text, textOfList, Tree.isGroup, Tree.rule?] using htoken
  | @group opening closing inner rest ho _ _ _ _ ih =>
    rw [leavesOfList_cons, List.forall_mem_append] at hmem
    refine List.forall_mem_cons.mpr ⟨?_, ih hmem.2⟩
    have htoken := Token.beginsGroup_of_leftParen (hmem.1 opening (by simp)) ho
    rw [Tree.text, textOfList, Tree.text, beginsGroup_append htoken]
    rfl

theorem singles_eq (h : Arguments ts) :
    (ts.filterMap Command.argumentOf?).filterMap Argument.single? =
      (ts.filter fun t => !t.isGroup).map Tree.text := by
  induction h with
  | nil => rfl
  | single _ _ ih =>
    rw [List.filterMap_cons_some (f := Command.argumentOf?) rfl,
      List.filterMap_cons_some (f := Argument.single?) rfl, List.filter_cons_of_pos (by rfl),
      List.map_cons, ih]
  | group _ _ _ _ _ ih =>
    rw [List.filterMap_cons_some (f := Command.argumentOf?) rfl,
      List.filterMap_cons_none (f := Argument.single?) rfl,
      List.filter_cons_of_neg (by simp [Tree.isGroup, Tree.rule?]), ih]

theorem groups_eq (h : Arguments ts) :
    (ts.filterMap Command.argumentOf?).filterMap Argument.group? =
      (ts.filter Tree.isGroup).map Tree.text := by
  induction h with
  | nil => rfl
  | single _ _ ih =>
    rw [List.filterMap_cons_some (f := Command.argumentOf?) rfl,
      List.filterMap_cons_none (f := Argument.group?) rfl,
      List.filter_cons_of_neg (by simp [Tree.isGroup, Tree.rule?]), ih]
  | group _ _ _ _ _ ih =>
    rw [List.filterMap_cons_some (f := Command.argumentOf?) rfl,
      List.filterMap_cons_some (f := Argument.group?) rfl, List.filter_cons_of_pos (by rfl),
      List.map_cons, ih]

end Derivation.Arguments

namespace CommentedCommand

/-- The item that the comment and the command are read as. -/
def item (call : CommentedCommand) : Item := .documented call.comment.text call.command

/-- The arguments that are one token, and behind them the groups. -/
def params (call : CommentedCommand) : List String :=
  (call.arguments.filter fun t => !t.isGroup).map Tree.text ++
    (call.arguments.filter Tree.isGroup).map Tree.text

theorem command_params (call : CommentedCommand) :
    call.command.singles ++ call.command.groups = call.params := by
  rw [Command.singles, Command.groups, params, ← call.derived.singles_eq, ← call.derived.groups_eq]
  rfl

theorem mem_of_tokens {call : CommentedCommand} {text : String}
    (h : call.tokens <:+: Token.ofText text) :
    ∀ t ∈ leavesOfList call.arguments, t ∈ Token.ofText text := by
  intro t ht
  exact h.subset (by simp [tokens, ht])

/-- The arguments are listed in the order of the text just if no other comes behind a group. -/
theorem params_eq_iff {call : CommentedCommand} {text : String}
    (h : call.tokens <:+: Token.ofText text) :
    call.params = call.arguments.map Tree.text ↔
      call.arguments.Pairwise fun a b => a.isGroup = true → b.isGroup = true := by
  have hbegins := call.derived.beginsGroup_text (mem_of_tokens h)
  constructor
  · intro hsame
    have hsorted := pairwise_filter_append_filter beginsGroup (call.arguments.map Tree.text)
    have hmoved : (call.arguments.map Tree.text).filter (fun s => !beginsGroup s) ++
        (call.arguments.map Tree.text).filter beginsGroup = call.params := by
      rw [List.filter_map, List.filter_map, params]
      congr 2
      · exact List.filter_congr fun t ht => by simp [hbegins t ht]
      · exact List.filter_congr fun t ht => by simp [hbegins t ht]
    rw [hmoved, hsame, List.pairwise_map] at hsorted
    refine hsorted.imp_of_mem fun ha hb himp => ?_
    rwa [hbegins _ ha, hbegins _ hb] at himp
  · intro hsorted
    rw [params, ← List.map_append, filter_append_filter_of_pairwise hsorted]

end CommentedCommand

/-- What an entry says about a command without a rule of its own. -/
def Entry.generic? : Entry → Option Invocation
  | generic i => some i
  | _ => none

namespace Item

/-- A documented command without a rule of its own. -/
def isRuleless : Item → Bool
  | documented _ command => command.kind ∈ CommandKind.ruleless
  | _ => false

/-- What is said about such a command. -/
def generic? : Item → Option Invocation
  | documented comment command =>
    if command.kind ∈ CommandKind.ruleless then
      some ⟨command.name, Comment.clean comment, command.singles ++ command.groups⟩
    else none
  | _ => none

theorem generic?_eq_none {it : Item} (h : it.isRuleless = false) : it.generic? = none := by
  cases it with
  | documented comment command => rw [generic?, if_neg (of_decide_eq_false h)]
  | _ => rfl

theorem filterMap_generic? (is : List Item) :
    is.filterMap generic? = (is.filter isRuleless).filterMap generic? := by
  induction is with
  | nil => rfl
  | cons it is ih =>
    cases h : it.isRuleless with
    | false =>
      rw [List.filterMap_cons_none (generic?_eq_none h), ih, List.filter_cons_of_neg (by simp [h])]
    | true => rw [List.filter_cons_of_pos h, List.filterMap_cons, List.filterMap_cons, ih]

end Item

namespace Collector

variable {s : Settings} {c c' : Collector} {is : List Item} {it : Item} {doc : String}
  {command : Command} {logs : List LogRecord}

/-- The entries about commands without a rule of their own. -/
def generics (c : Collector) : List Invocation := c.entries.filterMap Entry.generic?

theorem generics_append (c : Collector) (e : Entry) :
    (c.append e).generics = c.generics ++ e.generic?.toList := by
  rw [generics, append, List.filterMap_append, generics]
  cases e <;> rfl

theorem generics_append_of_none (c : Collector) {e : Entry} (h : e.generic? = none) :
    (c.append e).generics = c.generics := by
  rw [generics_append, h, Option.toList_none, List.append_nil]

theorem generics_modify {f : Entry → Entry} (hf : ∀ e, (f e).generic? = e.generic?)
    (c : Collector) (i : Nat) : (c.modify i f).generics = c.generics := by
  have hsame := congrArg (List.filterMap id) (map_modify_eq hf c.entries i)
  rwa [List.filterMap_map, List.filterMap_map] at hsame

theorem generic?_mapDefinition (f : Definition → Definition) (e : Entry) :
    (e.mapDefinition f).generic? = e.generic? := by
  cases e <;> rfl

theorem generic?_mapClass (f : Class → Class) (e : Entry) :
    (e.mapClass f).generic? = e.generic? := by
  cases e <;> rfl

theorem generic?_mapUnitTest (f : UnitTest → UnitTest) (e : Entry) :
    (e.mapUnitTest f).generic? = e.generic? := by
  cases e <;> rfl

theorem generics_modifyInnermost (f : Class → Class) (c : Collector) :
    (c.modifyInnermost f).generics = c.generics := by
  unfold modifyInnermost
  split
  · exact generics_modify (generic?_mapClass f) c _
  · rfl

theorem generics_markKeywords (c : Collector) : c.markKeywords.generics = c.generics := by
  unfold markKeywords
  split
  · exact generics_modify (generic?_mapDefinition _) c _
  · rfl

theorem generics_link (c : Collector) (isMacro : Bool) (params : List String)
    (awaiting : Awaiting) : (c.link isMacro params awaiting).generics = c.generics := by
  cases awaiting with
  | unitTest i => exact generics_modify (generic?_mapUnitTest _) c i
  | method i isConstructor j => exact generics_modify (generic?_mapClass _) c i

theorem Change.generics_apply {change : Change} (h : ∀ e, change = .add e → e.generic? = none)
    (c : Collector) : (change.apply c).generics = c.generics := by
  cases change with
  | nothing => rfl
  | add e => exact generics_append_of_none c (h e rfl)
  | define isMacro d => exact generics_append_of_none c rfl
  | await isSection t => exact generics_append_of_none c rfl
  | beginClass name doc superclasses =>
    exact (generics_modifyInnermost _ _).trans (generics_append_of_none c rfl)
  | declare m =>
    simp only [apply]
    split
    · exact generics_modify (generic?_mapClass _) c _
    · rfl
  | hold a => exact generics_modifyInnermost _ c
  | keywords => exact generics_markKeywords c

theorem generics_record_of_rule (hk : command.kind ∉ CommandKind.ruleless)
    (h : record s doc command c = .ok (c', logs)) : c'.generics = c.generics := by
  obtain ⟨change, hr, rfl⟩ := records_of_ok h
  refine Change.generics_apply (fun e he => ?_) c
  have hsuits := hr.suits
  rw [he] at hsuits
  generalize command.kind = kind at hk hsuits
  cases hsuits with
  | add _ hkind =>
    cases e with
    | generic v => exact absurd (CommandKind.mem_ruleless_iff.mpr hkind) hk
    | _ => rfl

theorem generics_follow {hasComment : Bool} (h : follow s hasComment command c = .ok (c', logs)) :
    c'.generics = c.generics := by
  by_cases hr : hasComment = true ∨ isRecorded s c.awaiting.isSome command.kind = false
  · unfold generics
    rcases follow_entries hr h with he | he | ⟨isMacro, params, awaiting, he⟩
    · rw [he]
    · rw [he]
      exact generics_markKeywords c
    · rw [he]
      exact generics_link c isMacro params awaiting
  · -- A command without a comment is recorded only if it has a rule.
    obtain ⟨hcomment, hrecorded⟩ := not_or.mp hr
    rw [eq_false_of_ne_true hcomment, follow_of_isRecorded (eq_true_of_ne_false hrecorded)] at h
    refine generics_record_of_rule (fun hk => hrecorded ?_) h
    simp only [CommandKind.ruleless, List.mem_cons, List.not_mem_nil, or_false] at hk
    rcases hk with hk | hk | hk <;> rw [hk] <;> rfl

theorem generics_pass (h : pass s c it = .ok c') :
    c'.generics = c.generics ++ it.generic?.toList := by
  cases it with
  | moduleComment text =>
    cases h
    exact generics_append c _
  | documented comment command =>
    obtain ⟨c₁, logs₁, logs₂, hr, hf⟩ := pass_documented.mp h
    rw [generics_follow hf, Item.generic?]
    by_cases hk : command.kind ∈ CommandKind.ruleless
    · rw [record_ruleless hk] at hr
      cases hr
      rw [if_pos hk, addGeneric, generics_append]
      rfl
    · rw [if_neg hk, generics_record_of_rule hk hr, Option.toList_none, List.append_nil]
  | plain command =>
    obtain ⟨logs, hf⟩ := pass_plain.mp h
    simpa [Item.generic?] using generics_follow hf
  | strayComment =>
    cases h
    simp [Item.generic?]

/-- A run adds one such entry for each documented command without a rule of its own. -/
theorem generics_items (h : (items s is c).error = none) :
    (items s is c).collector.generics = c.generics ++ is.filterMap Item.generic? := by
  induction is using List.reverseRecOn with
  | nil => simp [items, Progress.start]
  | append_singleton is it ih =>
    obtain ⟨hbefore, hpass⟩ := items_concat_error_none h
    have hlast : [it].filterMap Item.generic? = it.generic?.toList := by
      cases h : it.generic? <;> simp [h]
    rw [generics_pass hpass, ih hbefore, List.filterMap_append, List.append_assoc, hlast]

end Collector

namespace CommentedCommand

variable {call : CommentedCommand}

/-- What is said about the command if it has no rule of its own. -/
def entry (call : CommentedCommand) : Invocation :=
  ⟨Text.toSmall call.name.text, Comment.clean call.comment.text, call.params⟩

theorem generic?_item (h : call.item.isRuleless = true) : call.item.generic? = some call.entry := by
  rw [item, Item.generic?, if_pos (of_decide_eq_true h), command_params]
  rfl

theorem record_command (h : call.item.isRuleless = true) (s : Settings) (c : Collector) :
    Collector.record s (Comment.clean call.comment.text) call.command c =
      .ok (c.append (.generic call.entry), []) := by
  rw [Collector.record_ruleless (of_decide_eq_true h), Collector.addGeneric, command_params]
  rfl

end CommentedCommand

/-- The documented commands of a file that have no rule of their own, as they stand in its text. -/
theorem Item.exists_ruleless {text : String} {tree : Tree}
    (htree : (Reader.file (Reader.start text)).tree? = some tree) :
    ∃ calls : List CommentedCommand,
      (∀ call ∈ calls, call.tokens <:+: Token.ofText text ∧ call.item.isRuleless = true) ∧
      calls.map CommentedCommand.item = (ofFile tree).filter isRuleless := by
  refine exists_map_eq fun it hit => ?_
  obtain ⟨hmem, hruleless⟩ := List.mem_filter.mp hit
  cases it with
  | documented comment command =>
    obtain ⟨call, htokens, rfl, rfl⟩ := exists_commentedCommand htree hmem
    exact ⟨call, ⟨htokens, hruleless⟩, rfl⟩
  | moduleComment | plain | strayComment => cases hruleless

namespace Collector

/-- The documented commands of a text without a rule of their own get one entry each, in order, and
whatever has been collected before. Of its arguments the entry lists those of one token first and
the groups behind them. This is the order of the text just if none of one token stands behind a
group. -/
theorem generics_of_text (s : Settings) (text : String) (tree : Tree) (c : Collector)
    (htree : (Reader.file (Reader.start text)).tree? = some tree) :
    ∃ calls : List CommentedCommand,
      calls.map CommentedCommand.item = (Item.ofFile tree).filter Item.isRuleless ∧
      (∀ call ∈ calls, call.tokens <:+: Token.ofText text ∧
        (∀ c', record s (Comment.clean call.comment.text) call.command c' =
          .ok (c'.append (.generic call.entry), [])) ∧
        (call.entry.params = call.arguments.map Tree.text ↔
          call.arguments.Pairwise fun a b => a.isGroup = true → b.isGroup = true)) ∧
      ((file s tree c).error = none →
        (file s tree c).collector.generics = c.generics ++ calls.map CommentedCommand.entry) := by
  obtain ⟨calls, hcalls, hitems⟩ := Item.exists_ruleless htree
  refine ⟨calls, hitems, fun call hcall => ?_, fun hrun => ?_⟩
  · obtain ⟨htokens, hruleless⟩ := hcalls call hcall
    exact ⟨htokens, call.record_command hruleless s, CommentedCommand.params_eq_iff htokens⟩
  · have hentries : calls.filterMap (Item.generic? ∘ CommentedCommand.item) =
        calls.map CommentedCommand.entry := by
      rw [← List.filterMap_eq_map]
      exact List.filterMap_congr fun call hcall =>
        CommentedCommand.generic?_item (hcalls call hcall).2
    rw [file, generics_items hrun, Item.filterMap_generic?, ← hitems, List.filterMap_map, hentries]

/-- Groups behind all other arguments, one of them with a group in it. -/
def groupsBehind : String := "#[[[\n# Doc.\n#]]\nfoo(a \"b\" (c (d) e) (f))\n"

theorem groupsBehind_generics : ∃ (tree : Tree) (call : CommentedCommand),
    (Reader.file (Reader.start groupsBehind)).tree? = some tree ∧
      (file default tree empty).error = none ∧
      (file default tree empty).collector.generics = [call.entry] ∧
      call.tokens <:+: Token.ofText groupsBehind ∧
      call.entry.params = ["a", "\"b\"", "(c(d)e)", "(f)"] ∧
      (call.entry.params = call.arguments.map Tree.text ↔
        call.arguments.Pairwise fun a b => a.isGroup = true → b.isGroup = true) := by
  have hrun : ((Reader.file (Reader.start groupsBehind)).tree?.map fun tree =>
      ((file default tree empty).error.isNone, (file default tree empty).collector.generics)) =
        some (true, [⟨"foo", "Doc.\n", ["a", "\"b\"", "(c(d)e)", "(f)"]⟩]) := by
    decide
  obtain ⟨tree, htree, heq⟩ := Option.map_eq_some_iff.mp hrun
  obtain ⟨hnone, hentries⟩ := Prod.mk.inj heq
  have hok := Option.isNone_iff_eq_none.mp hnone
  obtain ⟨calls, -, hcalls, hgenerics⟩ := generics_of_text default groupsBehind tree empty htree
  have hone := (hgenerics hok).symm.trans hentries
  obtain ⟨call, rest, rfl, hentry, hrest⟩ := List.map_eq_cons_iff.mp hone
  obtain ⟨htokens, -, hordered⟩ := hcalls call List.mem_cons_self
  exact ⟨tree, call, htree, hok, by rw [hentries, hentry], htokens, by rw [hentry], hordered⟩

/-- A group between two arguments of one token. -/
def groupBetween : String := "#[[[\n# Doc.\n#]]\nfoo(a (b) c)\n"

theorem groupBetween_reordered : ∃ tree,
    (Reader.file (Reader.start groupBetween)).tree? = some tree ∧
      Item.ofFile tree = [.documented "#[[[\n# Doc.\n#]]" ⟨"foo", [.single .identifier "a",
        .group "(b)", .single .identifier "c"], "foo(a(b)c)", 4⟩] ∧
      (file default tree empty).error = none ∧
      (file default tree empty).collector.generics = [⟨"foo", "Doc.\n", ["a", "c", "(b)"]⟩] := by
  have hrun : ((Reader.file (Reader.start groupBetween)).tree?.map fun tree =>
      (Item.ofFile tree, (file default tree empty).error.isNone,
        (file default tree empty).collector.generics)) =
      some ([.documented "#[[[\n# Doc.\n#]]" ⟨"foo", [.single .identifier "a",
        .group "(b)", .single .identifier "c"], "foo(a(b)c)", 4⟩], true,
        [⟨"foo", "Doc.\n", ["a", "c", "(b)"]⟩]) := by
    decide
  obtain ⟨tree, htree, heq⟩ := Option.map_eq_some_iff.mp hrun
  obtain ⟨hitems, heq⟩ := Prod.mk.inj heq
  obtain ⟨hnone, hentries⟩ := Prod.mk.inj heq
  exact ⟨tree, htree, hitems, Option.isNone_iff_eq_none.mp hnone, hentries⟩

end Collector

end CMakeDocs
