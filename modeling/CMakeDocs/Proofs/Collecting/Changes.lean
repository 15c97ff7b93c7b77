import CMakeDocs.Proofs.Collecting.Handling
import Mathlib.Tactic.SplitIfs

/-!
# Changes

What a command with an entry does to a collector goes by the command and its documentation alone:
it is one of a few changes, whatever the collector holds. Only where the change takes place
depends on what is open. A command that cannot be recorded fails for every collector. A command
that is followed is recorded, or else does one of a few things to what is open and awaited.
-/
namespace CMakeDocs

/-- What an entry is about. -/
inductive EntryKind where
  | definition (isMacro : Bool)
  | variableDoc
  | option
  | generic
  | test
  | unitTest (isSection : Bool)
  | classDoc
  | methodDoc
  | attributeDoc
  | moduleDoc
  | strayComment
deriving DecidableEq, Repr

/-- The kind of entry that a kind of command gets. Methods and attributes have their place in the
entry of a class. -/
def CommandKind.entryKind? : CommandKind → Option EntryKind
  | .definition isMacro => some (.definition isMacro)
  | .setVariable => some .variableDoc
  | .option => some .option
  | .test => some .test
  | .unitTest isSection => some (.unitTest isSection)
  | .classStart => some .classDoc
  | .endDefinition | .classEnd | .other => some .generic
  | .parseArguments | .member _ | .classAttribute | .generic => none

theorem CommandKind.mem_ruleless_iff {kind : CommandKind} :
    kind ∈ ruleless ↔ kind.entryKind? = some .generic := by
  cases kind <;> simp [ruleless, entryKind?]

def Entry.kind : Entry → EntryKind
  | definition isMacro _ => .definition isMacro
  | variableDoc _ => .variableDoc
  | option _ _ => .option
  | generic _ => .generic
  | test _ => .test
  | unitTest isSection _ => .unitTest isSection
  | classDoc _ => .classDoc
  | methodDoc _ => .methodDoc
  | attributeDoc _ => .attributeDoc
  | moduleDoc _ _ => .moduleDoc
  | strayComment _ _ => .strayComment

namespace Collector

/-- The entry of the innermost class, if a class is open and has one. -/
def innermost (c : Collector) : Option Nat := c.classes.head?.join

def modifyInnermost (c : Collector) (f : Class → Class) : Collector :=
  match c.innermost with
  | some i => c.modify i (Entry.mapClass f)
  | none => c

/-- What recording a command does to a collector. -/
inductive Change where
  /-- The command was refused. -/
  | nothing
  | add (e : Entry)
  | define (isMacro : Bool) (d : Definition)
  | await (isSection : Bool) (t : UnitTest)
  | beginClass (name doc : String) (superclasses : List String)
  | declare (m : Method)
  | hold (a : Attribute)
  | keywords

namespace Change

/-- Puts a change into effect. A method or an attribute goes into the innermost class, if that has
an entry. -/
def apply (c : Collector) : Change → Collector
  | nothing => c
  | add e => c.append e
  | define isMacro d =>
    { c.append (.definition isMacro d) with definitions := some c.next :: c.definitions }
  | await isSection t =>
    { c.append (.unitTest isSection t) with awaiting := some (.unitTest c.next) }
  | beginClass name doc superclasses =>
    let c' := (c.append (.classDoc ⟨name, doc, superclasses, [], [], [], []⟩)).modifyInnermost
      fun k => { k with innerClasses := k.innerClasses ++ [name] }
    { c' with classes := some c.next :: c'.classes }
  | declare m =>
    match c.innermost with
    | some i =>
      { c.modify i (Entry.mapClass (addToClass m)) with
        awaiting := some (.method i m.isConstructor (c.methodCount i m.isConstructor)) }
    | none => c
  | hold a => c.modifyInnermost fun k => { k with attributes := k.attributes ++ [a] }
  | keywords => c.markKeywords

/-- The changes that a kind of command can make. -/
inductive Suits : CommandKind → Change → Prop where
  | define (isMacro : Bool) (d : Definition) : Suits (.definition isMacro) (define isMacro d)
  | keywords : Suits .parseArguments keywords
  | await (isSection : Bool) (t : UnitTest) : Suits (.unitTest isSection) (await isSection t)
  | beginClass (name doc : String) (superclasses : List String) :
      Suits .classStart (beginClass name doc superclasses)
  | declare {isConstructor : Bool} {m : Method} (h : m.isConstructor = isConstructor) :
      Suits (.member isConstructor) (declare m)
  | hold (a : Attribute) : Suits .classAttribute (hold a)
  | add {kind : CommandKind} {e : Entry} (hk : kind ∈ [.setVariable, .option, .test,
      .endDefinition, .classEnd, .other]) (he : kind.entryKind? = some e.kind) : Suits kind (add e)
  | nothing {kind : CommandKind} (hk : kind ≠ .parseArguments)
      (hd : ∀ isMacro, kind ≠ .definition isMacro) : Suits kind nothing

/-- Only a class is added as one. -/
theorem Suits.ne_classDoc {kind : CommandKind} {e : Entry} (h : Suits kind (.add e)) (k : Class) :
    e ≠ .classDoc k := by
  rintro rfl
  cases h with
  | add hk he =>
    simp only [List.mem_cons, List.not_mem_nil, or_false] at hk
    rcases hk with rfl | rfl | rfl | rfl | rfl | rfl <;> cases he

end Change

section Fields

variable (c : Collector) (f : Class → Class)

@[simp] theorem modifyInnermost_classes : (c.modifyInnermost f).classes = c.classes := by
  unfold modifyInnermost
  split <;> rfl

@[simp] theorem modifyInnermost_awaiting : (c.modifyInnermost f).awaiting = c.awaiting := by
  unfold modifyInnermost
  split <;> rfl

@[simp] theorem modifyInnermost_definitions :
    (c.modifyInnermost f).definitions = c.definitions := by
  unfold modifyInnermost
  split <;> rfl

end Fields

/-- A command either cannot be recorded at all or makes the same change in every collector. -/
structure Records (s : Settings) (doc : String) (command : Command) (change : Change) : Prop where
  suits : change.Suits command.kind
  record_eq : ∀ c, ∃ logs, record s doc command c = .ok (change.apply c, logs)

section Commands

variable (s : Settings) (doc : String) (command : Command)

theorem define_changes {isMacro : Bool} (hk : command.kind = .definition isMacro) :
    (∃ e, ∀ c, record s doc command c = .error e) ∨ ∃ change, Records s doc command change := by
  cases hs : command.singles with
  | nil => exact .inl ⟨_, fun c => by simp only [record_definition hk, define, hs]; rfl⟩
  | cons name rest =>
    cases hp : strip s.characterNamed (s.definitionStrip isMacro) rest with
    | error e => exact .inl ⟨e, fun c => by simp only [record_definition hk, define, hs, hp]; rfl⟩
    | ok params =>
      cases ht : hasTrigger s.keywordTrigger doc with
      | error e =>
        exact .inl ⟨e, fun c => by simp only [record_definition hk, define, hs, hp, ht]; rfl⟩
      | ok hasKeywords =>
        refine .inr ⟨.define isMacro ⟨name, doc, params, hasKeywords⟩, hk ▸ .define _ _,
          fun c => ?_⟩
        simp only [record_definition hk, define, hs, hp, ht]
        exact ⟨_, rfl⟩

theorem setVariable_changes (hk : command.kind = .setVariable) :
    (∃ e, ∀ c, record s doc command c = .error e) ∨ ∃ change, Records s doc command change := by
  have hadd (v : Variable) : Change.Suits command.kind (.add (.variableDoc v)) := by
    rw [hk]
    exact .add (by simp) rfl
  match hs : command.singles with
  | [] =>
    refine .inr ⟨.nothing, hk ▸ .nothing (by simp) (by simp), fun c => ?_⟩
    simp only [record_setVariable hk, setVariable, hs]
    exact ⟨_, rfl⟩
  | [name] =>
    refine .inr ⟨_, hadd ⟨name, doc, .unset, none⟩, fun c => ?_⟩
    simp only [record_setVariable hk, setVariable, hs]
    exact ⟨_, rfl⟩
  | [name, value] =>
    cases hu : unquote? value.toList with
    | none =>
      exact .inl ⟨_, fun c => by simp only [record_setVariable hk, setVariable, hs, hu]; rfl⟩
    | some cs =>
      refine .inr ⟨_, hadd ⟨name, doc, .string, some (String.ofList cs)⟩, fun c => ?_⟩
      simp only [record_setVariable hk, setVariable, hs, hu]
      exact ⟨_, rfl⟩
  | name :: value :: value' :: values =>
    refine .inr ⟨_, hadd ⟨name, doc, .list, some (" ".intercalate (value :: value' :: values))⟩,
      fun c => ?_⟩
    simp only [record_setVariable hk, setVariable, hs]
    exact ⟨_, rfl⟩

theorem addOption_changes (hk : command.kind = .option) :
    ∃ change, Records s doc command change := by
  have hadd (v : Variable) (help : String) : Change.Suits command.kind (.add (.option v help)) := by
    rw [hk]
    exact .add (by simp) rfl
  have hnothing : Change.Suits command.kind .nothing := hk ▸ .nothing (by simp) (by simp)
  match hs : command.singles with
  | [name, help] =>
    refine ⟨_, hadd ⟨name, doc, .other (.text "bool"), none⟩ help, fun c => ?_⟩
    simp only [record_option hk, addOption, hs]
    exact ⟨_, rfl⟩
  | [name, help, value] =>
    refine ⟨_, hadd ⟨name, doc, .other (.text "bool"), some value⟩ help, fun c => ?_⟩
    simp only [record_option hk, addOption, hs]
    exact ⟨_, rfl⟩
  | [] | [_] | _ :: _ :: _ :: _ :: _ =>
    refine ⟨_, hnothing, fun c => ?_⟩
    simp only [record_option hk, addOption, hs]
    exact ⟨_, rfl⟩

theorem addTest_changes (hk : command.kind = .test) :
    ∃ change, Records s doc command change := by
  have hnothing : Change.Suits command.kind .nothing := hk ▸ .nothing (by simp) (by simp)
  by_cases hl : command.singles.length < 2
  · refine ⟨_, hnothing, fun c => ?_⟩
    simp only [record_test hk, addTest, hl, if_true]
    exact ⟨_, rfl⟩
  cases hn : nameAfter? "" command.singles with
  | none =>
    refine ⟨_, hnothing, fun c => ?_⟩
    simp only [record_test hk, addTest, hl, if_false, hn]
    exact ⟨_, rfl⟩
  | some name =>
    refine ⟨.add (.test ⟨name, doc, command.singles.filter fun p => p ≠ name ∧ p ≠ "NAME"⟩),
      hk ▸ .add (by simp) rfl, fun c => ?_⟩
    simp only [record_test hk, addTest, hl, if_false, hn]
    exact ⟨_, rfl⟩

theorem addUnitTest_changes {isSection : Bool} (hk : command.kind = .unitTest isSection) :
    ∃ change, Records s doc command change := by
  have hnothing : Change.Suits command.kind .nothing := hk ▸ .nothing (by simp) (by simp)
  by_cases hl : command.singles.length < 2
  · refine ⟨_, hnothing, fun c => ?_⟩
    simp only [record_unitTest hk, addUnitTest, hl, if_true]
    exact ⟨_, rfl⟩
  cases hn : nameAfter? "" command.singles with
  | none =>
    refine ⟨_, hnothing, fun c => ?_⟩
    simp only [record_unitTest hk, addUnitTest, hl, if_false, hn]
    exact ⟨_, rfl⟩
  | some name =>
    refine ⟨.await isSection ⟨name, doc, command.singles.any (Text.isSpellingOf "EXPECTFAIL"), [],
      false⟩, hk ▸ .await _ _, fun c => ?_⟩
    simp only [record_unitTest hk, addUnitTest, hl, if_false, hn]
    exact ⟨_, rfl⟩

theorem openClass_changes (hk : command.kind = .classStart) :
    ∃ change, Records s doc command change := by
  cases hs : command.singles with
  | nil =>
    refine ⟨.nothing, hk ▸ .nothing (by simp) (by simp), fun c => ?_⟩
    simp only [record_classStart hk, openClass, hs]
    exact ⟨_, rfl⟩
  | cons name superclasses =>
    refine ⟨.beginClass name doc superclasses, hk ▸ .beginClass _ _ _, fun c => ?_⟩
    simp only [record_classStart hk, openClass, hs, Change.apply, modifyInnermost, innermost,
      append]
    match c.classes with
    | [] => exact ⟨_, rfl⟩
    | none :: _ => exact ⟨_, rfl⟩
    | some i :: _ => exact ⟨_, rfl⟩

theorem addMember_changes {isConstructor : Bool} (hk : command.kind = .member isConstructor) :
    ∃ change, Records s doc command change := by
  match hs : command.singles with
  | [] | [_] =>
    refine ⟨.nothing, hk ▸ .nothing (by simp) (by simp), fun c => ?_⟩
    simp only [record_member hk, addMember, hs]
    exact ⟨_, rfl⟩
  | name :: parentClass :: paramTypes =>
    refine ⟨.declare ⟨name, doc, parentClass, paramTypes, [], isConstructor, false⟩,
      hk ▸ .declare rfl, fun c => ?_⟩
    simp only [record_member hk, addMember, hs, Change.apply, innermost]
    match c.classes with
    | [] => exact ⟨_, rfl⟩
    | none :: _ => exact ⟨_, rfl⟩
    | some i :: _ => exact ⟨_, rfl⟩

theorem addAttribute_changes (hk : command.kind = .classAttribute) :
    ∃ change, Records s doc command change := by
  match hs : command.singles with
  | [] | [_] =>
    refine ⟨.nothing, hk ▸ .nothing (by simp) (by simp), fun c => ?_⟩
    simp only [record_classAttribute hk, addAttribute, hs]
    exact ⟨_, rfl⟩
  | parentClass :: name :: rest =>
    refine ⟨.hold ⟨name, doc, parentClass, rest.head?⟩, hk ▸ .hold _, fun c => ?_⟩
    simp only [record_classAttribute hk, addAttribute, hs, Change.apply, modifyInnermost, innermost]
    match c.classes with
    | [] => exact ⟨_, rfl⟩
    | none :: _ => exact ⟨_, rfl⟩
    | some i :: _ => exact ⟨_, rfl⟩

theorem addGeneric_changes (hk : command.kind ∈ CommandKind.ruleless) :
    ∃ change, Records s doc command change := by
  refine ⟨.add (.generic ⟨command.name, doc, command.singles ++ command.groups⟩), ?_,
    fun c => ⟨[], record_ruleless hk⟩⟩
  generalize command.kind = kind at hk ⊢
  simp only [CommandKind.ruleless, List.mem_cons, List.not_mem_nil, or_false] at hk
  rcases hk with rfl | rfl | rfl <;> exact .add (by simp) rfl

/-- Whether a command can be recorded, and what that changes, does not depend on the collector. -/
theorem record_changes :
    (∃ e, ∀ c, record s doc command c = .error e) ∨ ∃ change, Records s doc command change := by
  cases hk : command.kind with
  | definition isMacro => exact define_changes s doc command hk
  | parseArguments =>
    exact .inr ⟨.keywords, hk ▸ .keywords, fun c => ⟨[], record_parseArguments hk⟩⟩
  | setVariable => exact setVariable_changes s doc command hk
  | option => exact .inr (addOption_changes s doc command hk)
  | test => exact .inr (addTest_changes s doc command hk)
  | unitTest isSection => exact .inr (addUnitTest_changes s doc command hk)
  | classStart => exact .inr (openClass_changes s doc command hk)
  | member isConstructor => exact .inr (addMember_changes s doc command hk)
  | classAttribute => exact .inr (addAttribute_changes s doc command hk)
  | generic => exact .inl ⟨.genericComment, fun c => record_generic hk⟩
  | endDefinition =>
    exact .inr (addGeneric_changes s doc command (by simp [hk, CommandKind.ruleless]))
  | classEnd => exact .inr (addGeneric_changes s doc command (by simp [hk, CommandKind.ruleless]))
  | other => exact .inr (addGeneric_changes s doc command (by simp [hk, CommandKind.ruleless]))

end Commands

variable {s : Settings} {doc : String} {command : Command} {c c' : Collector}
  {logs : List LogRecord}

theorem records_of_ok (h : record s doc command c = .ok (c', logs)) :
    ∃ change, Records s doc command change ∧ c' = change.apply c := by
  obtain ⟨e, he⟩ | ⟨change, hr⟩ := record_changes s doc command
  · rw [he c] at h
    cases h
  · obtain ⟨logs', heq⟩ := hr.record_eq c
    rw [h] at heq
    cases heq
    exact ⟨change, hr, rfl⟩

/-- Whether a command without a comment is recorded. The definition that something awaits is not. -/
def isRecorded (s : Settings) (isAwaited : Bool) (kind : CommandKind) : Bool :=
  match kind with
  | .definition _ => !isAwaited && s.includes kind
  | .option | .test | .unitTest _ | .classStart | .member _ | .classAttribute => s.includes kind
  | .endDefinition | .parseArguments | .setVariable | .classEnd | .generic | .other => false

theorem isRecorded_of_settled {kind : CommandKind} (hk : kind.isSettled = true)
    (isAwaited : Bool) : isRecorded s isAwaited kind = s.includes kind := by
  cases kind with
  | option | test | unitTest _ | member _ | classAttribute => rfl
  | _ => cases hk

theorem follow_of_isRecorded (h : isRecorded s c.awaiting.isSome command.kind = true) :
    follow s false command c = record s "" command c := by
  by_cases hs : command.kind.isSettled = true
  · rw [isRecorded_of_settled hs] at h
    rw [follow_settled hs, recordIfIncluded, if_neg Bool.false_ne_true, if_pos h]
  cases hk : command.kind with
  | definition isMacro =>
    simp only [isRecorded, hk, Bool.and_eq_true, Bool.not_eq_true', Option.isSome_eq_false_iff,
      Option.isNone_iff_eq_none] at h
    simp [follow_unawaited hk h.1, h.2]
  | classStart =>
    simp only [isRecorded, hk] at h
    simp [follow_classStart hk, h]
  | option | test | unitTest _ | member _ | classAttribute => simp [hk, CommandKind.isSettled] at hs
  | endDefinition | parseArguments | setVariable | classEnd | generic | other =>
    simp [isRecorded, hk] at h

/-- What a command of some kind does to a collector if it is followed and not recorded. -/
inductive Follows (hasComment : Bool) (c : Collector) : CommandKind → Collector → Prop where
  /-- A definition is left alone only after its comment, and if nothing awaits it. -/
  | stay {kind : CommandKind} (hk : kind ∉ [.endDefinition, .parseArguments, .classEnd])
      (hd : ∀ isMacro, kind = .definition isMacro → hasComment = true ∧ c.awaiting = none) :
      Follows hasComment c kind c
  | keywords : Follows hasComment c .parseArguments c.markKeywords
  /-- A class begins that gets no entry. -/
  | openClass : Follows hasComment c .classStart { c with classes := none :: c.classes }
  | closeClass {x : Option Nat} {rest : List (Option Nat)} (h : c.classes = x :: rest) :
      Follows hasComment c .classEnd { c with classes := rest }
  /-- A definition begins that gets no entry. -/
  | openDefinition {isMacro : Bool} (hc : hasComment = false) (h : c.awaiting = none) :
      Follows hasComment c (.definition isMacro) { c with definitions := none :: c.definitions }
  | closeDefinition {x : Option Nat} {rest : List (Option Nat)} (h : c.definitions = x :: rest) :
      Follows hasComment c .endDefinition { c with definitions := rest }
  /-- A definition begins that something has been waiting for. -/
  | link {isMacro : Bool} {a : Awaiting} (more : List String) (h : c.awaiting = some a) :
      Follows hasComment c (.definition isMacro)
        { c.link isMacro more a with awaiting := none, definitions := none :: c.definitions }

theorem Follows.stay_of_settled {hasComment : Bool} {kind : CommandKind}
    (hk : kind.isSettled = true) : Follows hasComment c kind c := by
  refine .stay ?_ ?_
  · rintro hmem
    simp only [List.mem_cons, List.not_mem_nil, or_false] at hmem
    rcases hmem with rfl | rfl | rfl <;> cases hk
  · rintro isMacro rfl
    cases hk

theorem follows_of_linkAwaiting {isMacro hasComment : Bool} {a : Awaiting}
    (ha : c.awaiting = some a) (h : linkAwaiting s isMacro command a c = .ok (c', logs)) :
    Follows hasComment c (.definition isMacro) c' ∧ logs = [] := by
  unfold linkAwaiting at h
  cases a with
  | unitTest i =>
    cases h
    exact ⟨.link _ ha, rfl⟩
  | method i isConstructor j =>
    simp only [bind, Except.bind] at h
    split at h
    · cases h
    · cases h
      exact ⟨.link _ ha, rfl⟩

/-- A command that is followed is recorded, or else says nothing and does one of a few things. -/
theorem follow_cases {hasComment : Bool} (h : follow s hasComment command c = .ok (c', logs)) :
    (hasComment = false ∧ isRecorded s c.awaiting.isSome command.kind = true ∧
      record s "" command c = .ok (c', logs)) ∨
    (Follows hasComment c command.kind c' ∧ logs = []) := by
  by_cases hs : command.kind.isSettled = true
  · rw [isRecorded_of_settled hs]
    rw [follow_settled hs, recordIfIncluded] at h
    split_ifs at h with hc hi
    · cases h
      exact .inr ⟨.stay_of_settled hs, rfl⟩
    · exact .inl ⟨eq_false_of_ne_true hc, hi, h⟩
    · cases h
      exact .inr ⟨.stay_of_settled hs, rfl⟩
  cases hk : command.kind with
  | classStart =>
    rw [follow_classStart hk] at h
    split_ifs at h with hi hc
    · cases h
      exact .inr ⟨.openClass, rfl⟩
    · cases h
      exact .inr ⟨.stay (by simp) (by simp), rfl⟩
    · exact .inl ⟨eq_false_of_ne_true hc, by simpa [isRecorded] using hi, h⟩
  | classEnd =>
    cases hc : c.classes with
    | nil =>
      rw [follow_classEnd_nil hk hc] at h
      cases h
    | cons x rest =>
      rw [follow_classEnd_cons hk hc] at h
      cases h
      exact .inr ⟨.closeClass hc, rfl⟩
  | parseArguments =>
    rw [follow_parseArguments hk] at h
    cases h
    exact .inr ⟨.keywords, rfl⟩
  | definition isMacro =>
    cases ha : c.awaiting with
    | some a =>
      rw [follow_awaited hk ha] at h
      exact .inr (follows_of_linkAwaiting ha h)
    | none =>
      rw [follow_unawaited hk ha] at h
      split_ifs at h with hc hi
      · cases h
        exact .inr ⟨.stay (by simp) fun _ _ => ⟨hc, ha⟩, rfl⟩
      · exact .inl ⟨eq_false_of_ne_true hc, by simp [isRecorded, hi], h⟩
      · cases h
        exact .inr ⟨.openDefinition (eq_false_of_ne_true hc) ha, rfl⟩
  | endDefinition =>
    cases hd : c.definitions with
    | nil =>
      rw [follow_endDefinition_nil hk hd] at h
      cases h
    | cons x rest =>
      rw [follow_endDefinition_cons hk hd] at h
      cases h
      exact .inr ⟨.closeDefinition hd, rfl⟩
  | generic =>
    rw [follow_generic hk] at h
    split_ifs at h
    cases h
    exact .inr ⟨.stay (by simp) (by simp), rfl⟩
  | setVariable | other =>
    rw [follow_inert (by simp [hk])] at h
    cases h
    exact .inr ⟨.stay (by simp) (by simp), rfl⟩
  | option | test | unitTest _ | member _ | classAttribute => simp [hk, CommandKind.isSettled] at hs

end Collector

end CMakeDocs
