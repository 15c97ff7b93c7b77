import CMakeDocs.Decimal
import CMakeDocs.Text.Quoted

/-!
# Values of a configuration

A configuration is written by people, so nothing is known about the values in it before they are
used. A value can be shown as text, can be asked whether it counts as true, and can name its kind
in a message.
-/
namespace CMakeDocs

inductive Value where
  | null
  | bool (b : Bool)
  | int (n : Int)
  | real (b : Binary)
  | text (s : String)
  | list (items : List Value)
  /-- Names with values. The records of a file are said to be ordered. -/
  | record (isOrdered : Bool) (fields : List (String × Value))
deriving Repr, Inhabited

namespace Value

/-- The name of the kind of a value in messages. -/
def kindName : Value → String
  | null => "NoneType"
  | bool _ => "bool"
  | int _ => "int"
  | real _ => "float"
  | text _ => "str"
  | list _ => "list"
  | record isOrdered _ => if isOrdered then "OrderedDict" else "dict"

/-- Empty and zero values count as false. -/
def isTrue : Value → Bool
  | null => false
  | bool b => b
  | int n => n ≠ 0
  | real b => !b.isZero
  | text s => s ≠ ""
  | list items => !items.isEmpty
  | record _ fields => !fields.isEmpty

mutual

/-- A value as it stands inside a list. -/
def quoted : Value → String
  | null => "None"
  | bool true => "True"
  | bool false => "False"
  | int n => toString n
  | real b => b.text
  | text s => Text.quote s
  | list items => Text.bracketed (quotedItems items)
  | record false fields => "\x7b" ++ ", ".intercalate (quotedFields fields) ++ "\x7d"
  | record true fields =>
    "OrderedDict(" ++ (if fields.isEmpty then "" else Text.bracketed (quotedPairs fields)) ++ ")"

def quotedItems : List Value → List String
  | [] => []
  | v :: vs => v.quoted :: quotedItems vs

def quotedFields : List (String × Value) → List String
  | [] => []
  | (key, v) :: rest => (Text.quote key ++ ": " ++ v.quoted) :: quotedFields rest

def quotedPairs : List (String × Value) → List String
  | [] => []
  | (key, v) :: rest => ("(" ++ Text.quote key ++ ", " ++ v.quoted ++ ")") :: quotedPairs rest

end

/-- A value by itself: a text without quotes, all else as inside a list. -/
def shown : Value → String
  | text s => s
  | v => v.quoted

/-- Whether a value is a given text. -/
def isText (v : Value) (s : String) : Bool :=
  match v with
  | text t => t = s
  | _ => false

/-- The fields of a record. -/
def fields : Value → List (String × Value)
  | record _ kvs => kvs
  | _ => []

/-- The value of a name. -/
def get? (v : Value) (key : String) : Option Value := v.fields.lookup key

/-- Fields with a new value for a name, which stays where it is if it is there already. -/
def setField (fields : List (String × Value)) (key : String) (v : Value) : List (String × Value) :=
  if (fields.lookup key).isSome then fields.map fun kv => if kv.1 = key then (key, v) else kv
  else fields ++ [(key, v)]

end Value

end CMakeDocs
