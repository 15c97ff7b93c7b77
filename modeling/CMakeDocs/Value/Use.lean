import CMakeDocs.Value

/-!
# Using values

A value whose kind is not known can be counted, gone through, asked for an item or put behind
another one only if it is of a kind that allows that. Texts are sequences of characters, lists of
their items, records of their names.
-/
namespace CMakeDocs

/-- Why a value cannot be used for something. -/
inductive Misuse where
  /-- There is no item of a number in a sequence of the given kind. -/
  | noItem (sequence : String)
  /-- A record has no names that are numbers. -/
  | noKey (i : Int)
  | notIndexed (v : Value)
  | notIterable (v : Value)
  | noLength (v : Value)
  /-- Only a value of a kind can be put behind one of this kind. -/
  | notAppended (kind : String) (v : Value)
  | notAdded (first second : String)
  | notWhole (v : Value)
  /-- Only texts have lines. -/
  | noLines (v : Value)
  /-- Only texts have parts that can be deleted. -/
  | notSearched (v : Value)
deriving Repr

namespace Misuse

def message : Misuse → String
  | noItem sequence => sequence ++ " index out of range"
  | noKey i => toString i
  | notIndexed v => "'" ++ v.kindName ++ "' object is not subscriptable"
  | notIterable v => "'" ++ v.kindName ++ "' object is not iterable"
  | noLength v => "object of type '" ++ v.kindName ++ "' has no len()"
  | notAppended kind v =>
    "can only concatenate " ++ kind ++ " (not \"" ++ v.kindName ++ "\") to " ++ kind
  | notAdded first second =>
    "unsupported operand type(s) for +: '" ++ first ++ "' and '" ++ second ++ "'"
  | notWhole v => "'" ++ v.kindName ++ "' object cannot be interpreted as an integer"
  | noLines v => "'" ++ v.kindName ++ "' object has no attribute 'split'"
  | notSearched v => "expected string or bytes-like object, got '" ++ v.kindName ++ "'"

end Misuse

namespace Value

/-- The items of a value that can be gone through. -/
def sequence? : Value → Option (List Value)
  | text s => some (s.toList.map fun c => text (String.singleton c))
  | list items => some items
  | record _ fields => some (fields.map fun kv => text kv.1)
  | _ => none

def iterate (v : Value) : Except Misuse (List Value) :=
  match v.sequence? with
  | some items => .ok items
  | none => .error (.notIterable v)

def count (v : Value) : Except Misuse Nat :=
  match v.sequence? with
  | some items => .ok items.length
  | none => .error (.noLength v)

/-- The item of a list at an index that counts from the end if it is below zero. -/
def itemAt? (items : List α) (i : Int) : Option α :=
  if 0 ≤ i then items[i.toNat]?
  else if -i ≤ items.length then items[(items.length + i).toNat]?
  else none

/-- The item of a value at an index. -/
def item (v : Value) (i : Int) : Except Misuse Value :=
  match v with
  | text s =>
    match itemAt? s.toList i with
    | some c => .ok (text (String.singleton c))
    | none => .error (.noItem "string")
  | list items =>
    match itemAt? items i with
    | some item => .ok item
    | none => .error (.noItem "list")
  | record _ _ => .error (.noKey i)
  | v => .error (.notIndexed v)

/-- A whole number; the truth values count as zero and one. -/
def whole : Value → Except Misuse Int
  | int n => .ok n
  | bool b => .ok (if b then 1 else 0)
  | v => .error (.notWhole v)

/-- The kind of a sum of numbers. -/
def sumKind? : Value → Value → Option String
  | int _, int _ | int _, bool _ | bool _, int _ | bool _, bool _ => some "int"
  | real _, int _ | real _, bool _ | real _, real _ | int _, real _ | bool _, real _ => some "float"
  | _, _ => none

/-- Why a text cannot be put behind two values, of which one is no text. -/
def joinFault (first second : Value) : Misuse :=
  match first, second with
  | text _, v => .notAppended "str" v
  | list _, list _ => .notAppended "list" (text "")
  | list _, v => .notAppended "list" v
  | first, second =>
    match sumKind? first second with
    | some kind => .notAdded kind "str"
    | none => .notAdded first.kindName second.kindName

/-- Two values with a text behind them. -/
def join (first second : Value) (last : String) : Except Misuse String :=
  match first, second with
  | text a, text b => .ok (a ++ b ++ last)
  | first, second => .error (joinFault first second)

end Value

end CMakeDocs
