import CMakeDocs.Entry
import CMakeDocs.Rst.Block

/-!
# Entries as blocks

Every entry becomes one block: a directive that describes it, with its documentation as a
paragraph, or for a comment that belongs to nothing just the paragraph.
-/
namespace CMakeDocs

open Rst (Block)

/-- A directive without options. -/
def directive (name argument : String) (blocks : List Block) : Block :=
  .directive name [argument] [] blocks

/-- A hint to the reader that is all in its heading. -/
def hint (name text : String) : Block := directive name text []

/-- A call with its arguments. -/
def callText (name : String) (arguments : String) : String := name ++ "(" ++ arguments ++ ")"

namespace Definition

/-- The parameters as they are shown. -/
def shownParams (d : Definition) : List String :=
  if d.hasKeywords then d.params ++ ["**kwargs"] else d.params

def block (isMacro : Bool) (d : Definition) : Block :=
  let note := if isMacro then
    [hint "note" "This is a macro, and so does not introduce a new scope."] else []
  directive "function" (callText d.name (" ".intercalate d.shownParams))
    (note ++ [.paragraph d.doc])

end Definition

namespace VariableKind

/-- The name of a known kind. -/
def typeName? : VariableKind → Option String
  | string => some "str"
  | list => some "list"
  | unset => some "UNSET"
  | other _ => none

def shown : VariableKind → String
  | string => "VarType.STRING"
  | list => "VarType.LIST"
  | unset => "VarType.UNSET"
  | other v => v.shown

end VariableKind

namespace Variable

/-- The variable itself; its kind has to be known. -/
def block (v : Variable) (typeName : String) : Block :=
  directive "data" v.name
    [.paragraph v.doc, .field "Default value" (v.value.getD "None"), .field "type" typeName]

/-- What every option says about itself. -/
def optionNote : String :=
  "\nThis variable is a user-editable option,\nmeaning it appears within the cache and can be\n" ++
    "edited on the command line by the :code:`-D` flag.\n"

def optionBlock (v : Variable) (help : String) : Block :=
  directive "data" v.name
    [.directive "note" [] [] [.paragraph optionNote], .paragraph v.doc, .field "Help text" help,
      .field "Default value" (v.value.getD "OFF"), .field "type" v.kind.shown]

end Variable

/-- A call of a command that says what it is. -/
def Invocation.block (i : Invocation) (warning : String) : Block :=
  directive "function" (callText i.name (" ".intercalate i.params))
    [hint "warning" warning, .paragraph i.doc]

def UnitTest.block (isSection : Bool) (t : UnitTest) : Block :=
  let what := if isSection then "section" else "test"
  directive "function" (callText t.name (if t.expectFail then "EXPECTFAIL" else ""))
    [hint "warning" ("This is a CMakeTest " ++ what ++ " definition, do not call this manually."),
      .paragraph t.doc]

namespace Method

/-- The fields of a parameter that the documentation does not describe itself. -/
def paramBlocks (doc : String) (param type : String) : List Block :=
  (if Text.contains (":param " ++ param ++ ":") doc then [] else [.field ("param " ++ param) ""]) ++
    (if Text.contains (":type " ++ param ++ ":") doc then [] else [.field ("type " ++ param) type])

/-- Further arguments are shown if some parameter stands for any number of them. -/
def shownParams (m : Method) : String :=
  ", ".intercalate m.params ++ (if m.paramTypes.contains "args" then "[, ...]" else "")

def block (m : Method) : Block :=
  let note := if m.isMacro then
    [hint "note" "This member is a macro and so does not introduce a new scope"] else []
  directive "py:method" (callText m.name m.shownParams)
    (note ++ .paragraph m.doc ::
      (m.params.zip m.paramTypes).flatMap fun p => paramBlocks m.doc p.1 p.2)

end Method

def Attribute.block (a : Attribute) : Block :=
  .directive "py:attribute" [a.name] (a.default.toList.map fun v => ("value", v))
    [.paragraph a.doc]

namespace Class

/-- A list of parts below a title, unless it is empty. -/
def titled (title : String) (blocks : List Block) : List Block :=
  if blocks.isEmpty then [] else .paragraph title :: blocks

def basesText (names : List String) : String :=
  "Bases: " ++ ", ".intercalate (names.map (Rst.roleText "class")) ++ "\n"

def block (c : Class) : Block :=
  let bases := if c.superclasses.isEmpty then [] else [.paragraph (basesText c.superclasses)]
  let inner := if c.innerClasses.isEmpty then [] else
    [.list .bulleted (c.innerClasses.map (Rst.roleText "class"))]
  directive "py:class" c.name
    (bases ++ .paragraph c.doc ::
      (titled "**Additional Constructors**" (c.constructors.map Method.block) ++
        titled "**Methods**" (c.members.map Method.block) ++
        titled "**Attributes**" (c.attributes.map Attribute.block) ++
        titled "**Inner classes**" inner))

end Class

namespace Entry

/-- The block of an entry, unless it is a variable of an unknown kind. -/
def block : Entry → Except Value Block
  | definition isMacro d => .ok (d.block isMacro)
  | variableDoc v =>
    match v.kind, v.kind.typeName? with
    | _, some typeName => .ok (v.block typeName)
    | .other kind, none => .error kind
    | _, none => .error .null
  | option v help => .ok (v.optionBlock help)
  | generic i =>
    .ok (i.block
      "This is a generic command invocation. It is not a function or macro definition.")
  | test i =>
    .ok (i.block ("This is a CTest test definition, do not call this manually. " ++
      "Use the \"ctest\" program to execute this test."))
  | unitTest isSection t => .ok (t.block isSection)
  | classDoc c => .ok c.block
  | methodDoc m => .ok m.block
  | attributeDoc a => .ok a.block
  | moduleDoc name doc =>
    .ok (directive "module" name
      (match doc with
        | none => []
        | some "" => []
        | some text => [.paragraph text]))
  | strayComment _ doc => .ok (.paragraph doc)

/-- What is left of an entry once it is on a page: a definition keeps the parameters as shown. -/
def shown : Entry → Entry
  | definition isMacro d => definition isMacro { d with params := d.shownParams }
  | e => e

end Entry

end CMakeDocs
