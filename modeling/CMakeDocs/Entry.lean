import CMakeDocs.Value

/-!
# Documentation entries

An entry is what a page says about one command of a file, or about the file itself. Classes hold
their methods and attributes; the classes inside them have entries of their own and are known by
name.
-/
namespace CMakeDocs

/-- A function or a macro. -/
structure Definition where
  name : String
  doc : String
  params : List String
  /-- Whether it takes keyword arguments. -/
  hasKeywords : Bool
deriving Repr, DecidableEq

/-- What kind of value a variable has. -/
inductive VariableKind where
  | string
  | list
  | unset
  | other (v : Value)
deriving Repr

structure Variable where
  name : String
  doc : String
  kind : VariableKind
  value : Option String
deriving Repr

structure Invocation where
  name : String
  doc : String
  params : List String
deriving Repr, DecidableEq

structure UnitTest where
  name : String
  doc : String
  expectFail : Bool
  params : List String
  isMacro : Bool
deriving Repr, DecidableEq

structure Method where
  name : String
  doc : String
  parentClass : String
  paramTypes : List String
  params : List String
  isConstructor : Bool
  isMacro : Bool
deriving Repr, DecidableEq

structure Attribute where
  name : String
  doc : String
  parentClass : String
  default : Option String
deriving Repr, DecidableEq

structure Class where
  name : String
  doc : String
  superclasses : List String
  innerClasses : List String
  constructors : List Method
  members : List Method
  attributes : List Attribute
deriving Repr, DecidableEq

inductive Entry where
  | definition (isMacro : Bool) (d : Definition)
  | variableDoc (v : Variable)
  | option (v : Variable) (help : String)
  | generic (i : Invocation)
  | test (i : Invocation)
  | unitTest (isSection : Bool) (t : UnitTest)
  | classDoc (c : Class)
  | methodDoc (m : Method)
  | attributeDoc (a : Attribute)
  | moduleDoc (name : String) (doc : Option String)
  | strayComment (name : String) (doc : String)
deriving Repr

namespace Entry

def name : Entry → String
  | definition _ d => d.name
  | variableDoc v => v.name
  | option v _ => v.name
  | generic i => i.name
  | test i => i.name
  | unitTest _ t => t.name
  | classDoc c => c.name
  | methodDoc m => m.name
  | attributeDoc a => a.name
  | moduleDoc name _ => name
  | strayComment name _ => name

/-- Changes a definition. -/
def mapDefinition (f : Definition → Definition) : Entry → Entry
  | definition isMacro d => definition isMacro (f d)
  | e => e

/-- Changes a class. -/
def mapClass (f : Class → Class) : Entry → Entry
  | classDoc c => classDoc (f c)
  | e => e

/-- Changes a unit test. -/
def mapUnitTest (f : UnitTest → UnitTest) : Entry → Entry
  | unitTest isSection t => unitTest isSection (f t)
  | e => e

end Entry

end CMakeDocs
