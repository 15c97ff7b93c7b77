import CMakeDocs.Proofs.Collecting.Changes
import CMakeDocs.Proofs.Collecting.Runs
import Mathlib.Data.List.Infix

/-!
# Open definitions

A function or a macro is put on the stack of open definitions when it begins, and its end takes one
definition off the stack. While a unit test or a method awaits its definition, a definition with a
comment is put there twice: once with its entry, and above that once for what has been waiting. The
second time is never undone, so its entry stays on the stack behind its end.
-/
namespace CMakeDocs

namespace Item

/-- The beginning of a function or a macro. -/
def isDefinition (it : Item) : Bool :=
  match it.kind? with
  | some (.definition _) => true
  | _ => false

def isDefinitionEnd (it : Item) : Bool := it.kind? = some .endDefinition

def hasComment : Item → Bool
  | documented _ _ => true
  | _ => false

theorem isDefinition_iff {it : Item} :
    it.isDefinition = true ↔ ∃ isMacro, it.kind? = some (.definition isMacro) := by
  unfold isDefinition
  split
  · next isMacro h => simp [h]
  · next h =>
    simp only [Bool.false_eq_true, false_iff]
    rintro ⟨isMacro, hk⟩
    exact h isMacro hk

theorem isDefinitionEnd_eq_false_of_isDefinition {it : Item} (h : it.isDefinition = true) :
    it.isDefinitionEnd = false := by
  obtain ⟨isMacro, hk⟩ := isDefinition_iff.mp h
  simp [isDefinitionEnd, hk]

end Item

/-- No more definitions end than have begun, and all of them end. -/
structure Balanced (is : List Item) : Prop where
  ends_le : ∀ before ∈ is.inits,
    before.countP Item.isDefinitionEnd ≤ before.countP Item.isDefinition
  ends_eq : is.countP Item.isDefinitionEnd = is.countP Item.isDefinition

namespace Collector

variable {s : Settings} {c c' : Collector} {is : List Item} {it : Item}

/-- Only a definition is put on the stack of definitions when it is recorded. -/
theorem Change.Suits.definitions_eq {kind : CommandKind} {change : Change}
    (h : change.Suits kind) (hk : ∀ isMacro, kind ≠ .definition isMacro) (c : Collector) :
    (change.apply c).definitions = c.definitions := by
  cases h with
  | define isMacro d => exact absurd rfl (hk isMacro)
  | keywords => simp [Change.apply]
  | await isSection t => rfl
  | beginClass name doc superclasses => simp [Change.apply]
  | declare hm =>
    simp only [Change.apply]
    split
    · rfl
    · rfl
  | hold a => simp [Change.apply]
  | add hk he => rfl
  | nothing hk hd => rfl

theorem record_definitions {doc : String} {command : Command} {logs : List LogRecord}
    (h : record s doc command c = .ok (c', logs))
    (hk : ∀ isMacro, command.kind ≠ .definition isMacro) : c'.definitions = c.definitions := by
  obtain ⟨change, hr, rfl⟩ := records_of_ok h
  exact hr.suits.definitions_eq hk c

theorem opened_of_record {doc : String} {command : Command} {logs : List LogRecord}
    {isMacro : Bool} (h : record s doc command c = .ok (c', logs))
    (hk : command.kind = .definition isMacro) :
    c'.definitions = some c.next :: c.definitions ∧ c'.awaiting = c.awaiting := by
  obtain ⟨change, hr, rfl⟩ := records_of_ok h
  have hsuits := hr.suits
  rw [hk] at hsuits
  cases hsuits with
  | define isMacro d => exact ⟨rfl, rfl⟩
  | add hk he => simp at hk
  | nothing hk hd => exact absurd rfl (hd isMacro)

theorem follow_definition {hasComment : Bool} {command : Command} {logs : List LogRecord}
    {isMacro : Bool} (h : follow s hasComment command c = .ok (c', logs))
    (hk : command.kind = .definition isMacro) :
    ∃ new, c'.definitions = new ++ c.definitions ∧
      new.length = if hasComment && c.awaiting.isNone then 0 else 1 := by
  obtain ⟨hc, -, hr⟩ | ⟨hf, -⟩ := follow_cases h
  · exact ⟨[some c.next], (opened_of_record hr hk).1, by simp [hc]⟩
  · rw [hk] at hf
    cases hf with
    | stay _ hd =>
      obtain ⟨hc, ha⟩ := hd isMacro rfl
      exact ⟨[], rfl, by simp [hc, ha]⟩
    | openDefinition hc => exact ⟨[none], rfl, by simp [hc]⟩
    | link more ha => exact ⟨[none], rfl, by simp [ha]⟩

theorem follow_definitionEnd {hasComment : Bool} {command : Command} {logs : List LogRecord}
    (h : follow s hasComment command c = .ok (c', logs)) (hk : command.kind = .endDefinition) :
    ∃ x, c.definitions = x :: c'.definitions := by
  obtain ⟨-, hr, -⟩ | ⟨hf, -⟩ := follow_cases h
  · simp [isRecorded, hk] at hr
  · rw [hk] at hf
    cases hf with
    | stay hne => simp at hne
    | @closeDefinition x rest hd => exact ⟨x, hd⟩

theorem Follows.definitions_eq {hasComment : Bool} {kind : CommandKind}
    (h : Follows hasComment c kind c') (hk : ∀ isMacro, kind ≠ .definition isMacro)
    (he : kind ≠ .endDefinition) : c'.definitions = c.definitions := by
  cases h with
  | stay | openClass | closeClass => rfl
  | keywords => simp
  | openDefinition | link => exact absurd rfl (hk _)
  | closeDefinition => exact absurd rfl he

theorem follow_definitions {hasComment : Bool} {command : Command} {logs : List LogRecord}
    (h : follow s hasComment command c = .ok (c', logs))
    (hk : ∀ isMacro, command.kind ≠ .definition isMacro) (he : command.kind ≠ .endDefinition) :
    c'.definitions = c.definitions := by
  obtain ⟨-, -, hr⟩ | ⟨hf, -⟩ := follow_cases h
  · exact record_definitions hr hk
  · exact hf.definitions_eq hk he

/-- How often an item is put on the stack of definitions. -/
def timesOpened (c : Collector) (it : Item) : Nat :=
  if it.isDefinition then if it.hasComment && c.awaiting.isSome then 2 else 1 else 0

theorem pass_definition (h : pass s c it = .ok c') (hd : it.isDefinition = true) :
    ∃ new, c'.definitions = new ++ c.definitions ∧ new.length = timesOpened c it := by
  obtain ⟨isMacro, hk⟩ := Item.isDefinition_iff.mp hd
  cases it with
  | moduleComment text => cases hk
  | strayComment => cases hk
  | plain command =>
    obtain ⟨logs, hf⟩ := pass_plain.mp h
    obtain ⟨new, hnew, hlen⟩ := follow_definition hf (Option.some.inj hk)
    exact ⟨new, hnew, by simpa [timesOpened, hd, Item.hasComment] using hlen⟩
  | documented comment command =>
    obtain ⟨c₁, logs₁, logs₂, hr, hf⟩ := pass_documented.mp h
    obtain ⟨hopened, hawaiting⟩ := opened_of_record hr (Option.some.inj hk)
    obtain ⟨new, hnew, hlen⟩ := follow_definition hf (Option.some.inj hk)
    refine ⟨new ++ [some c.next], by rw [hnew, hopened]; simp, ?_⟩
    rw [hawaiting] at hlen
    cases hw : c.awaiting <;> simp [timesOpened, hd, Item.hasComment, hw, hlen]

theorem pass_definitionEnd (h : pass s c it = .ok c') (he : it.isDefinitionEnd = true) :
    ∃ x, c.definitions = x :: c'.definitions := by
  have hk : it.kind? = some .endDefinition := of_decide_eq_true he
  cases it with
  | moduleComment text => cases hk
  | strayComment => cases hk
  | plain command =>
    obtain ⟨logs, hf⟩ := pass_plain.mp h
    exact follow_definitionEnd hf (Option.some.inj hk)
  | documented comment command =>
    obtain ⟨c₁, logs₁, logs₂, hr, hf⟩ := pass_documented.mp h
    have hsame := record_definitions hr (by simp [Option.some.inj hk])
    obtain ⟨x, hx⟩ := follow_definitionEnd hf (Option.some.inj hk)
    exact ⟨x, hsame.symm.trans hx⟩

theorem pass_definitions (h : pass s c it = .ok c') (hd : it.isDefinition = false)
    (he : it.isDefinitionEnd = false) : c'.definitions = c.definitions := by
  have hkind {command : Command} (hc : it.command? = some command) :
      (∀ isMacro, command.kind ≠ .definition isMacro) ∧ command.kind ≠ .endDefinition := by
    have hk : it.kind? = some command.kind := by simp [Item.kind?, hc]
    constructor
    · intro isMacro heq
      have hdef := Item.isDefinition_iff.mpr ⟨isMacro, heq ▸ hk⟩
      rw [hd] at hdef
      cases hdef
    · intro heq
      exact of_decide_eq_false he (heq ▸ hk)
  cases it with
  | moduleComment text =>
    cases h
    rfl
  | strayComment =>
    cases h
    rfl
  | plain command =>
    obtain ⟨logs, hf⟩ := pass_plain.mp h
    obtain ⟨hdef, hend⟩ := hkind rfl
    exact follow_definitions hf hdef hend
  | documented comment command =>
    obtain ⟨c₁, logs₁, logs₂, hr, hf⟩ := pass_documented.mp h
    obtain ⟨hdef, hend⟩ := hkind rfl
    rw [follow_definitions hf hdef hend, record_definitions hr hdef]

/-- What one item adds to the stack and takes off it. -/
theorem pass_definitions_length (h : pass s c it = .ok c') :
    c'.definitions.length + (if it.isDefinitionEnd then 1 else 0) =
      c.definitions.length + timesOpened c it := by
  by_cases hd : it.isDefinition = true
  · obtain ⟨new, hnew, hlen⟩ := pass_definition h hd
    have hend := Item.isDefinitionEnd_eq_false_of_isDefinition hd
    simp only [hnew, hend, List.length_append, Bool.false_eq_true, if_false]
    omega
  by_cases he : it.isDefinitionEnd = true
  · obtain ⟨x, hx⟩ := pass_definitionEnd h he
    simp [hx, he, timesOpened, hd]
  · rw [pass_definitions h (eq_false_of_ne_true hd) (eq_false_of_ne_true he)]
    simp [he, timesOpened, hd]

/-- The run stops at the end of a definition that is not open, if it stops at all. -/
def StopsOnlyAtEnds (s : Settings) (is : List Item) : Prop :=
  ∀ e command, (items s is empty).error = some (e, command) →
    e = .notOpen ∧ command.kind = .endDefinition

theorem item_of_error {p : Progress} {x : CollectError × Command} (h : p.error = some x) :
    (item s p it).error = some x := by
  cases it with
  | moduleComment text => simp [item, Progress.append, h]
  | documented comment command => simp [item, followCommand, Progress.step, h]
  | plain command => simp [item, followCommand, Progress.step, h]
  | strayComment => simp [item, Progress.say, h]

theorem step_error {p : Progress} {text : String} {command command' : Command}
    {f : Collector → Outcome} {e : CollectError} (hp : p.error = none)
    (h : (p.step text command f).error = some (e, command')) :
    f p.collector = .error e ∧ command' = command := by
  unfold Progress.step at h
  rw [hp] at h
  dsimp only at h
  split at h
  · cases h
  · next hf =>
    cases h
    exact ⟨hf, rfl⟩

theorem follow_end_of_open {hasComment : Bool} {command : Command} {e : CollectError}
    (hk : command.kind = .endDefinition) (h : follow s hasComment command c = .error e) :
    c.definitions = [] := by
  cases hd : c.definitions with
  | nil => rfl
  | cons x rest =>
    rw [follow_endDefinition_cons hk hd] at h
    cases h

/-- The end of a definition fails only if no definition is open. -/
theorem definitions_of_end_error {p : Progress} {e : CollectError} {command : Command}
    (hp : p.error = none) (h : (item s p it).error = some (e, command))
    (hk : command.kind = .endDefinition) :
    it.isDefinitionEnd = true ∧ p.collector.definitions = [] := by
  have hend {it : Item} (hc : it.command? = some command) : it.isDefinitionEnd = true :=
    decide_eq_true (by simp [Item.kind?, hc, hk])
  cases it with
  | moduleComment text => simp [item, Progress.append, hp] at h
  | strayComment => simp [item, Progress.say, hp] at h
  | plain command' =>
    obtain ⟨hf, rfl⟩ := step_error hp h
    exact ⟨hend rfl, follow_end_of_open hk hf⟩
  | documented comment command' =>
    simp only [item, followCommand] at h
    cases hr : (p.step "Caught exception while processing documented command" command'
        (record s (Comment.clean comment) command')).error with
    | none =>
      obtain ⟨hf, rfl⟩ := step_error hr h
      obtain ⟨-, logs, hrecord⟩ := step_of_error_none hr
      have hempty := follow_end_of_open hk hf
      rw [record_definitions hrecord (by simp [hk])] at hempty
      exact ⟨hend rfl, hempty⟩
    | some x =>
      have hx : x = (e, command) := by
        rw [Progress.step, hr] at h
        exact Option.some.inj (hr.symm.trans h)
      rw [hx] at hr
      obtain ⟨hrecord, rfl⟩ := step_error hp hr
      rw [record_ruleless (by simp [hk, CommandKind.ruleless])] at hrecord
      cases hrecord

/-- A definition with a comment that begins while something awaits a definition. -/
def meetsAwaiting (s : Settings) (is : List Item) (k : Nat) : Bool :=
  (is[k]?.any fun it => it.isDefinition && it.hasComment) && (reached s is k).awaiting.isSome

/-- How many definitions are put on the stack twice. -/
def openedTwice (s : Settings) (is : List Item) : Nat :=
  (List.range is.length).countP (meetsAwaiting s is)

theorem openedTwice_concat (s : Settings) (is : List Item) (it : Item) :
    openedTwice s (is ++ [it]) + (if it.isDefinition then 1 else 0) =
      openedTwice s is + timesOpened (reached s is is.length) it := by
  have hold : (List.range is.length).countP (meetsAwaiting s (is ++ [it])) = openedTwice s is := by
    refine List.countP_congr fun k hk => ?_
    have hlt : k < is.length := List.mem_range.mp hk
    rw [meetsAwaiting, meetsAwaiting, reached_concat (Nat.le_of_lt hlt),
      List.getElem?_append_left hlt]
  have hlast : meetsAwaiting s (is ++ [it]) is.length =
      ((it.isDefinition && it.hasComment) && (reached s is is.length).awaiting.isSome) := by
    simp [meetsAwaiting, reached_concat]
  rw [openedTwice, List.length_append, List.length_singleton, List.range_succ, List.countP_append,
    hold, List.countP_singleton, hlast]
  unfold timesOpened
  cases it.isDefinition <;> cases it.hasComment <;>
    cases (reached s is is.length).awaiting <;> simp

/-- After balanced definitions, or some of their first items, nothing has gone wrong, and what is
open is what has begun and not ended, with what was put on the stack twice. -/
theorem run_definitions_length
    (hle : ∀ before ∈ is.inits,
      before.countP Item.isDefinitionEnd ≤ before.countP Item.isDefinition)
    (hstops : StopsOnlyAtEnds s is) :
    (items s is empty).error = none ∧
      (items s is empty).collector.definitions.length + is.countP Item.isDefinitionEnd =
        is.countP Item.isDefinition + openedTwice s is := by
  induction is using List.reverseRecOn with
  | nil => exact ⟨rfl, by simp [openedTwice, items, Progress.start, empty]⟩
  | append_singleton is it ih =>
    have hprefix : StopsOnlyAtEnds s is := by
      intro e command herror
      refine hstops e command ?_
      rw [items_concat]
      exact item_of_error herror
    have hinits : ∀ before ∈ is.inits,
        before.countP Item.isDefinitionEnd ≤ before.countP Item.isDefinition := by
      intro before hbefore
      refine hle before ?_
      rw [List.mem_inits] at hbefore ⊢
      exact hbefore.trans (List.prefix_append _ _)
    obtain ⟨herror, hlen⟩ := ih hinits hprefix
    have hwhole := hle (is ++ [it]) (by rw [List.mem_inits])
    have htwice := openedTwice_concat s is it
    rw [reached_length] at htwice
    rw [List.countP_append, List.countP_append, List.countP_singleton, List.countP_singleton]
      at hwhole ⊢
    have hnone : (items s (is ++ [it]) empty).error = none := by
      by_contra hne
      obtain ⟨⟨e, command⟩, hx⟩ := Option.ne_none_iff_exists'.mp hne
      obtain ⟨-, hk⟩ := hstops e command hx
      rw [items_concat] at hx
      obtain ⟨hend, hempty⟩ := definitions_of_end_error herror hx hk
      -- Nothing would be open, although more definitions have begun than ended.
      have hbegins : it.isDefinition = false := by
        by_contra hdef
        rw [Item.isDefinitionEnd_eq_false_of_isDefinition (eq_true_of_ne_false hdef)] at hend
        cases hend
      simp only [hend, hbegins, Bool.false_eq_true, if_true, if_false, hempty, List.length_nil]
        at hwhole hlen
      omega
    obtain ⟨-, hpass⟩ := items_concat_error_none hnone
    have hstep := pass_definitions_length hpass
    refine ⟨hnone, ?_⟩
    omega

/-- How the open definitions are kept while the items of a file are gone through. -/
structure DefinitionDiscipline (s : Settings) (is : List Item) : Prop where
  /-- A definition that begins is put on the stack once. -/
  pushes_one : ∀ k it, is[k]? = some it → it.isDefinition = true →
    ∃ x, (reached s is (k + 1)).definitions = x :: (reached s is k).definitions
  /-- A definition is open wherever one ends. -/
  ends_open : ∀ k it, is[k]? = some it → it.isDefinitionEnd = true →
    (reached s is k).definitions ≠ []
  all_closed : (items s is empty).collector.definitions = []

/-- No definition with a comment begins while something awaits a definition. -/
def NoneMeetsAwaiting (s : Settings) (is : List Item) : Prop :=
  ∀ k comment command isMacro, is[k]? = some (.documented comment command) →
    command.kind = .definition isMacro → (reached s is k).awaiting = none

theorem openedTwice_eq_zero_iff : openedTwice s is = 0 ↔ NoneMeetsAwaiting s is := by
  rw [openedTwice, List.countP_eq_zero]
  constructor
  · intro h k comment command isMacro hk hkind
    obtain ⟨hlt, -⟩ := List.getElem?_eq_some_iff.mp hk
    have hnot := h k (List.mem_range.mpr hlt)
    have hdef : (Item.documented comment command).isDefinition = true :=
      Item.isDefinition_iff.mpr ⟨isMacro, congrArg some hkind⟩
    simpa [meetsAwaiting, hk, hdef, Item.hasComment] using hnot
  · intro h k hk hmeets
    obtain ⟨it, hit⟩ : ∃ it, is[k]? = some it :=
      ⟨_, List.getElem?_eq_getElem (List.mem_range.mp hk)⟩
    simp only [meetsAwaiting, hit, Option.any_some, Bool.and_eq_true] at hmeets
    obtain ⟨⟨hdef, hcomment⟩, hawaiting⟩ := hmeets
    obtain ⟨isMacro, hkind⟩ := Item.isDefinition_iff.mp hdef
    cases it with
    | documented comment command =>
      rw [h k comment command isMacro hit (Option.some.inj hkind)] at hawaiting
      cases hawaiting
    | _ => cases hcomment

theorem timesOpened_eq_one {k : Nat} (h : NoneMeetsAwaiting s is) (hk : is[k]? = some it)
    (hd : it.isDefinition = true) : timesOpened (reached s is k) it = 1 := by
  obtain ⟨isMacro, hkind⟩ := Item.isDefinition_iff.mp hd
  cases it with
  | documented comment command =>
    have hnone := h k comment command isMacro hk (Option.some.inj hkind)
    simp [timesOpened, hd, hnone]
  | _ => simp [timesOpened, hd, Item.hasComment]

/-- Balanced definitions never end one that is not open, and those put on the stack twice stay on
it once. So they are kept track of exactly if no definition with a comment begins while something
awaits a definition. -/
theorem definitionDiscipline_iff (s : Settings) {is : List Item} (hb : Balanced is)
    (hstops : StopsOnlyAtEnds s is) :
    (items s is empty).error = none ∧
      (∀ k it, is[k]? = some it → it.isDefinitionEnd = true →
        (reached s is k).definitions ≠ []) ∧
      (items s is empty).collector.definitions.length = openedTwice s is ∧
      (DefinitionDiscipline s is ↔ NoneMeetsAwaiting s is) := by
  obtain ⟨herror, hlen⟩ := run_definitions_length hb.ends_le hstops
  have hcount : (items s is empty).collector.definitions.length = openedTwice s is := by
    have := hb.ends_eq
    omega
  have hopen : ∀ k it, is[k]? = some it → it.isDefinitionEnd = true →
      (reached s is k).definitions ≠ [] := by
    intro k it hk hend
    obtain ⟨x, hx⟩ := pass_definitionEnd (pass_reached herror hk) hend
    simp [hx]
  refine ⟨herror, hopen, hcount, ?_⟩
  rw [← openedTwice_eq_zero_iff]
  constructor
  · intro hd
    rw [← hcount, hd.all_closed, List.length_nil]
  · intro hzero
    refine ⟨?_, hopen, ?_⟩
    · intro k it hk hdef
      obtain ⟨new, hnew, hone⟩ := pass_definition (pass_reached herror hk) hdef
      rw [timesOpened_eq_one (openedTwice_eq_zero_iff.mp hzero) hk hdef] at hone
      obtain ⟨x, rfl⟩ := List.length_eq_one_iff.mp hone
      exact ⟨x, hnew⟩
    · exact List.eq_nil_of_length_eq_zero (hcount.trans hzero)

/-- A unit test with its definition, and a macro with a comment inside that. -/
def macroInTest : List Item :=
  [.plain (plainCommand "ct_add_test" ["NAME", "t"]), .plain (plainCommand "function" ["t"]),
    .documented "#[[[\n# Does m.\n#]]" (plainCommand "macro" ["m", "x"]),
    .plain (plainCommand "endmacro" []), .plain (plainCommand "endfunction" [])]

theorem macroInTest_discipline :
    Balanced macroInTest ∧ StopsOnlyAtEnds default macroInTest ∧
      NoneMeetsAwaiting default macroInTest ∧ DefinitionDiscipline default macroInTest := by
  have hb : Balanced macroInTest := ⟨by decide, by decide⟩
  have hstops : StopsOnlyAtEnds default macroInTest := by
    intro e command h
    have hnone : (items default macroInTest empty).error = none := rfl
    rw [hnone] at h
    cases h
  have hmeets : NoneMeetsAwaiting default macroInTest := openedTwice_eq_zero_iff.mp (by decide)
  exact ⟨hb, hstops, hmeets, (definitionDiscipline_iff default hb hstops).2.2.2.mpr hmeets⟩

/-- A function with a comment behind a unit test that awaits its definition. -/
def commentedTest : List Item :=
  [.plain (plainCommand "ct_add_test" ["NAME", "t"]),
    .documented "#[[[\n# Doc.\n#]]" (plainCommand "function" ["f"]),
    .plain (plainCommand "endfunction" [])]

theorem commentedTest_stays_open :
    Balanced commentedTest ∧ (items default commentedTest empty).error = none ∧
      (items default commentedTest empty).collector.definitions = [some 1] ∧
      ¬ DefinitionDiscipline default commentedTest := by
  refine ⟨⟨by decide, by decide⟩, rfl, by decide, fun h => ?_⟩
  exact absurd h.all_closed (by decide)

end Collector

end CMakeDocs
