import CMakeDocs.Proofs.Collecting.Changes
import CMakeDocs.Proofs.Collecting.Runs
import Mathlib.Logic.Relation

/-!
# Calls

A collector goes through a file call by call: a command with a comment is first recorded and then
followed, a command without one is only followed. What a call can do to a collector is one of a few
moves, whatever the settings are. A collector is reachable if some calls lead to it from the empty
one; the calls may come in any order, so this also holds of collectors between the two calls for a
command.
-/
namespace CMakeDocs

/-- A call for something in a file. -/
inductive Call where
  | moduleComment (text : String)
  | record (comment : String) (command : Command)
  /-- The comment of the command, if it has one, has been dealt with. -/
  | follow (hasComment : Bool) (command : Command)
  | strayComment

namespace Call

/-- The kind of the command that a call is about. -/
def kind? : Call → Option CommandKind
  | record _ command => some command.kind
  | follow _ command => some command.kind
  | moduleComment _ | strayComment => none

def run (s : Settings) (c : Collector) : Call → Collector.Outcome
  | moduleComment text =>
    .ok (c.append (.moduleDoc (Comment.moduleParts text).1 (some (Comment.moduleParts text).2)), [])
  | record comment command => Collector.record s (Comment.clean comment) command c
  | follow hasComment command => Collector.follow s hasComment command c
  | strayComment => .ok (c, [Collector.strayWarning])

end Call

namespace Collector

variable {s : Settings} {c c' : Collector} {command : Command} {logs : List LogRecord}

/-- What a call for a command of some kind can do to a collector. -/
inductive Move (c : Collector) : Option CommandKind → Collector → Prop where
  | stay (kind? : Option CommandKind) : Move c kind? c
  | addModule (name : String) (doc : Option String) : Move c none (c.append (.moduleDoc name doc))
  | change {kind : CommandKind} {change : Change} (h : change.Suits kind) :
      Move c (some kind) (change.apply c)
  /-- A class begins that gets no entry. -/
  | openClass : Move c (some .classStart) { c with classes := none :: c.classes }
  | closeClass {x : Option Nat} {rest : List (Option Nat)} (h : c.classes = x :: rest) :
      Move c (some .classEnd) { c with classes := rest }
  /-- A definition begins that gets no entry. -/
  | openDefinition (isMacro : Bool) :
      Move c (some (.definition isMacro)) { c with definitions := none :: c.definitions }
  | closeDefinition {x : Option Nat} {rest : List (Option Nat)} (h : c.definitions = x :: rest) :
      Move c (some .endDefinition) { c with definitions := rest }
  /-- A definition begins that something has been waiting for. -/
  | link {isMacro : Bool} {a : Awaiting} (more : List String) (h : c.awaiting = some a) :
      Move c (some (.definition isMacro))
        { c.link isMacro more a with awaiting := none, definitions := none :: c.definitions }

theorem move_of_record {doc : String} (h : record s doc command c = .ok (c', logs)) :
    Move c (some command.kind) c' := by
  obtain ⟨change, hr, rfl⟩ := records_of_ok h
  exact .change hr.suits

theorem Follows.move {hasComment : Bool} {kind : CommandKind} (h : Follows hasComment c kind c') :
    Move c (some kind) c' := by
  cases h with
  | stay => exact .stay _
  | keywords => exact .change .keywords
  | openClass => exact .openClass
  | closeClass h => exact .closeClass h
  | openDefinition => exact .openDefinition _
  | closeDefinition h => exact .closeDefinition h
  | link more h => exact .link more h

theorem move_of_follow {hasComment : Bool} (h : follow s hasComment command c = .ok (c', logs)) :
    Move c (some command.kind) c' := by
  obtain ⟨-, -, hr⟩ | ⟨hf, -⟩ := follow_cases h
  · exact move_of_record hr
  · exact hf.move

theorem move_of_run {call : Call} (h : call.run s c = .ok (c', logs)) : Move c call.kind? c' := by
  cases call with
  | moduleComment text =>
    cases h
    exact .addModule _ _
  | record comment command => exact move_of_record h
  | follow hasComment command => exact move_of_follow h
  | strayComment =>
    cases h
    exact .stay _

/-- One call leads from a collector to another. -/
def Leads (s : Settings) (c c' : Collector) : Prop :=
  ∃ (call : Call) (logs : List LogRecord), call.run s c = .ok (c', logs)

/-- Some calls, one after the other, lead from a collector to another. -/
def Reaches (s : Settings) : Collector → Collector → Prop := Relation.ReflTransGen (Leads s)

def Reachable (s : Settings) (c : Collector) : Prop := Reaches s empty c

theorem reaches_step (call : Call) (p : Progress) (text : String) (command : Command) :
    Reaches s p.collector (p.step text command fun c => call.run s c).collector := by
  unfold Progress.step
  split
  · exact .refl
  · split
    · next hrun => exact .single ⟨call, _, hrun⟩
    · exact .refl

/-- An item is gone through by calls, even if one of them fails. -/
theorem reaches_item (s : Settings) (p : Progress) (it : Item) :
    Reaches s p.collector (item s p it).collector := by
  cases it with
  | moduleComment text =>
    unfold item Progress.append
    dsimp only
    split
    · exact .refl
    · exact .single ⟨.moduleComment text, [], rfl⟩
  | documented comment command =>
    exact (reaches_step (.record comment command) p _ command).trans
      (reaches_step (.follow true command) _ _ command)
  | plain command => exact reaches_step (.follow false command) p _ command
  | strayComment =>
    have hsame : (p.say strayWarning).collector = p.collector := by
      unfold Progress.say
      split
      · rfl
      · rfl
    rw [item, hsame]
    exact .refl

/-- A run that goes on from anywhere goes on by calls. -/
theorem reaches_foldl (s : Settings) (p : Progress) (is : List Item) :
    Reaches s p.collector (is.foldl (item s) p).collector := by
  induction is generalizing p with
  | nil => exact .refl
  | cons it is ih => exact (reaches_item s p it).trans (ih (item s p it))

theorem reaches_items (s : Settings) (is : List Item) (c : Collector) :
    Reaches s c (items s is c).collector := reaches_foldl s (.start c) is

end Collector

end CMakeDocs
