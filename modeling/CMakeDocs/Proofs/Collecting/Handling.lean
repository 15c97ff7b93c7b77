import CMakeDocs.Collector

/-!
# What is done about each kind of command

The fields of a collector after each of its operations, and what recording and following come to
for a command of each kind. The other modules go by these equations.
-/
namespace CMakeDocs

/-- The kinds of commands that have no rule for what their comment says. -/
def CommandKind.ruleless : List CommandKind := [.endDefinition, .classEnd, .other]

/-- Nothing is left to do about a command of this kind when it has been recorded. -/
def CommandKind.isSettled : CommandKind → Bool
  | option | test | unitTest _ | member _ | classAttribute => true
  | _ => false

namespace Collector

section Fields

variable (c : Collector) (e : Entry) (i : Nat) (f : Entry → Entry) (isMacro : Bool)
  (params : List String) (a : Awaiting)

@[simp] theorem append_entries : (c.append e).entries = c.entries ++ [e] := rfl

@[simp] theorem append_classes : (c.append e).classes = c.classes := rfl

@[simp] theorem append_awaiting : (c.append e).awaiting = c.awaiting := rfl

@[simp] theorem append_definitions : (c.append e).definitions = c.definitions := rfl

@[simp] theorem append_next : (c.append e).next = c.next + 1 := by simp [next]

@[simp] theorem modify_entries : (c.modify i f).entries = c.entries.modify i f := rfl

@[simp] theorem modify_classes : (c.modify i f).classes = c.classes := rfl

@[simp] theorem modify_awaiting : (c.modify i f).awaiting = c.awaiting := rfl

@[simp] theorem modify_definitions : (c.modify i f).definitions = c.definitions := rfl

@[simp] theorem modify_next : (c.modify i f).next = c.next := by simp [next]

@[simp] theorem markKeywords_classes : c.markKeywords.classes = c.classes := by
  unfold markKeywords
  split <;> rfl

@[simp] theorem markKeywords_awaiting : c.markKeywords.awaiting = c.awaiting := by
  unfold markKeywords
  split <;> rfl

@[simp] theorem markKeywords_definitions : c.markKeywords.definitions = c.definitions := by
  unfold markKeywords
  split <;> rfl

@[simp] theorem markKeywords_next : c.markKeywords.next = c.next := by
  unfold markKeywords
  split <;> simp

@[simp] theorem link_classes : (c.link isMacro params a).classes = c.classes := by
  cases a <;> rfl

@[simp] theorem link_definitions : (c.link isMacro params a).definitions = c.definitions := by
  cases a <;> rfl

@[simp] theorem link_next : (c.link isMacro params a).next = c.next := by
  cases a <;> simp [link]

end Fields

section Recording

variable {s : Settings} {doc : String} {command : Command} {c : Collector}

theorem record_definition {isMacro : Bool} (hk : command.kind = .definition isMacro) :
    record s doc command c = define s isMacro doc command c := by
  unfold record
  rw [hk]

theorem record_parseArguments (hk : command.kind = .parseArguments) :
    record s doc command c = .ok (c.markKeywords, []) := by
  unfold record
  rw [hk]

theorem record_setVariable (hk : command.kind = .setVariable) :
    record s doc command c = setVariable doc command c := by
  unfold record
  rw [hk]

theorem record_option (hk : command.kind = .option) :
    record s doc command c = .ok (addOption doc command c) := by
  unfold record
  rw [hk]

theorem record_test (hk : command.kind = .test) :
    record s doc command c = .ok (addTest doc command c) := by
  unfold record
  rw [hk]

theorem record_unitTest {isSection : Bool} (hk : command.kind = .unitTest isSection) :
    record s doc command c = .ok (addUnitTest isSection doc command c) := by
  unfold record
  rw [hk]

theorem record_classStart (hk : command.kind = .classStart) :
    record s doc command c = .ok (openClass doc command c) := by
  unfold record
  rw [hk]

theorem record_member {isConstructor : Bool} (hk : command.kind = .member isConstructor) :
    record s doc command c = .ok (addMember isConstructor doc command c) := by
  unfold record
  rw [hk]

theorem record_classAttribute (hk : command.kind = .classAttribute) :
    record s doc command c = .ok (addAttribute doc command c) := by
  unfold record
  rw [hk]

theorem record_generic (hk : command.kind = .generic) :
    record s doc command c = .error .genericComment := by
  unfold record
  rw [hk]

theorem record_ruleless (hk : command.kind ∈ CommandKind.ruleless) :
    record s doc command c = .ok (addGeneric doc command c, []) := by
  simp only [CommandKind.ruleless, List.mem_cons, List.not_mem_nil, or_false] at hk
  unfold record
  rcases hk with hk | hk | hk <;> rw [hk]

/-- A definition is recorded with its name, its parameters and whether it takes keyword arguments,
and is open then. -/
theorem define_eq_ok {isMacro : Bool} {c' : Collector} {logs : List LogRecord}
    (h : define s isMacro doc command c = .ok (c', logs)) :
    ∃ name rest params hasKeywords, command.singles = name :: rest ∧
      strip s.characterNamed (s.definitionStrip isMacro) rest = .ok params ∧
      hasTrigger s.keywordTrigger doc = .ok hasKeywords ∧ logs = [] ∧
      c' = { c.append (.definition isMacro ⟨name, doc, params, hasKeywords⟩) with
        definitions := some c.next :: c.definitions } := by
  unfold define at h
  split at h
  · cases h
  · next name rest hs =>
    cases hp : strip s.characterNamed (s.definitionStrip isMacro) rest with
    | error e =>
      rw [hp] at h
      cases h
    | ok params =>
      cases ht : hasTrigger s.keywordTrigger doc with
      | error e =>
        rw [hp, ht] at h
        cases h
      | ok hasKeywords =>
        rw [hp, ht] at h
        cases h
        exact ⟨name, rest, params, hasKeywords, hs, hp, rfl, rfl, rfl⟩

end Recording

section Following

variable {s : Settings} {hasComment : Bool} {command : Command} {c : Collector}

theorem follow_classStart (hk : command.kind = .classStart) :
    follow s hasComment command c =
      if !s.includes .classStart then .ok ({ c with classes := none :: c.classes }, [])
      else if hasComment then .ok (c, []) else record s "" command c := by
  unfold follow
  rw [hk]

theorem follow_classEnd_nil (hk : command.kind = .classEnd) (hc : c.classes = []) :
    follow s hasComment command c = .error .notOpen := by
  unfold follow
  simp only [hk, hc]

theorem follow_classEnd_cons {x : Option Nat} {rest : List (Option Nat)}
    (hk : command.kind = .classEnd) (hc : c.classes = x :: rest) :
    follow s hasComment command c = .ok ({ c with classes := rest }, []) := by
  unfold follow
  simp only [hk, hc]

theorem follow_endDefinition_nil (hk : command.kind = .endDefinition) (hd : c.definitions = []) :
    follow s hasComment command c = .error .notOpen := by
  unfold follow
  simp only [hk, hd]

theorem follow_endDefinition_cons {x : Option Nat} {rest : List (Option Nat)}
    (hk : command.kind = .endDefinition) (hd : c.definitions = x :: rest) :
    follow s hasComment command c = .ok ({ c with definitions := rest }, []) := by
  unfold follow
  simp only [hk, hd]

theorem follow_parseArguments (hk : command.kind = .parseArguments) :
    follow s hasComment command c = .ok (c.markKeywords, []) := by
  unfold follow
  rw [hk]

/-- A definition that something awaits. -/
theorem follow_awaited {isMacro : Bool} {a : Awaiting} (hk : command.kind = .definition isMacro)
    (ha : c.awaiting = some a) :
    follow s hasComment command c = linkAwaiting s isMacro command a c := by
  unfold follow
  simp only [hk, ha]

/-- A definition that nothing awaits. -/
theorem follow_unawaited {isMacro : Bool} (hk : command.kind = .definition isMacro)
    (ha : c.awaiting = none) :
    follow s hasComment command c =
      if hasComment then .ok (c, [])
      else if s.includes (.definition isMacro) then record s "" command c
      else .ok ({ c with definitions := none :: c.definitions }, []) := by
  unfold follow
  simp only [hk, ha]

theorem follow_generic (hk : command.kind = .generic) :
    follow s hasComment command c = if hasComment then .ok (c, []) else .error .genericSwitch := by
  unfold follow
  rw [hk]

theorem follow_inert (hk : command.kind ∈ [.setVariable, .other]) :
    follow s hasComment command c = .ok (c, []) := by
  simp only [List.mem_cons, List.not_mem_nil, or_false] at hk
  unfold follow
  rcases hk with hk | hk <;> rw [hk]

theorem follow_settled (hk : command.kind.isSettled = true) :
    follow s hasComment command c =
      if hasComment then .ok (c, []) else recordIfIncluded s command c := by
  unfold follow
  cases h : command.kind with
  | option | test | unitTest _ | member _ | classAttribute => rfl
  | _ => simp [h, CommandKind.isSettled] at hk

end Following

end Collector

end CMakeDocs
