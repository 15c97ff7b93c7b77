import CMakeDocs.Tree
import CMakeDocs.Text.LetterCase

/-!
# The items of a file

What matters of a file's tree for its documentation: the module comment, the commands with the
comments in front of them, and the comments that belong to nothing. A command is known by its
name in any letter case.
-/
namespace CMakeDocs

/-- The commands that have a rule of their own, and all others. -/
inductive CommandKind where
  | definition (isMacro : Bool)
  | endDefinition
  | parseArguments
  | setVariable
  | option
  | test
  | unitTest (isSection : Bool)
  | classStart
  | classEnd
  | member (isConstructor : Bool)
  | classAttribute
  /-- The name that stands for all commands without a rule of their own. -/
  | generic
  | other
deriving DecidableEq, Repr

namespace CommandKind

/-- The commands with a rule, by name. -/
def names : List (String × CommandKind) :=
  [("function", definition false), ("macro", definition true), ("endfunction", endDefinition),
   ("endmacro", endDefinition), ("cmake_parse_arguments", parseArguments), ("set", setVariable),
   ("option", option), ("add_test", test), ("ct_add_test", unitTest false),
   ("ct_add_section", unitTest true), ("cpp_class", classStart), ("cpp_end_class", classEnd),
   ("cpp_member", member false), ("cpp_constructor", member true), ("cpp_attr", classAttribute),
   ("generic_command", generic)]

def ofName (name : String) : CommandKind := (names.lookup name).getD other

end CommandKind

inductive Argument where
  | single (kind : TokenKind) (text : String)
  /-- A list of arguments in parentheses, by its text. -/
  | group (text : String)
deriving DecidableEq, Repr

namespace Argument

def single? : Argument → Option String
  | single _ text => some text
  | group _ => none

def group? : Argument → Option String
  | single _ _ => none
  | group text => some text

end Argument

structure Command where
  /-- The name in small letters. -/
  name : String
  arguments : List Argument
  /-- The texts of all tokens with nothing between them. -/
  text : String
  line : Nat
deriving DecidableEq, Repr

namespace Command

def kind (c : Command) : CommandKind := CommandKind.ofName c.name

/-- The texts of the arguments that are no group. -/
def singles (c : Command) : List String := c.arguments.filterMap Argument.single?

/-- The texts of the arguments that are groups. -/
def groups (c : Command) : List String := c.arguments.filterMap Argument.group?

/-- The kind of the one token of an argument. -/
def argumentKind (t : Tree) : TokenKind := (t.leaves.head?.map Token.kind).getD .unquoted

def argumentOf? (t : Tree) : Option Argument :=
  match t.rule? with
  | some .argument => some (.single (argumentKind t) t.text)
  | some .group => some (.group t.text)
  | _ => none

/-- The command that a tree was read as. -/
def ofTree? : Tree → Option Command
  | tree@(.node .command position children) =>
    (tree.leafOf? .identifier).map fun name =>
      ⟨Text.toSmall name.text, children.filterMap argumentOf?, tree.text, position.line⟩
  | _ => none

end Command

/-- A part of a file that matters for its documentation. -/
inductive Item where
  | moduleComment (text : String)
  | documented (comment : String) (command : Command)
  | plain (command : Command)
  | strayComment
deriving DecidableEq, Repr

namespace Item

def ofTree? : Tree → Option Item
  | tree@(.node .documentedModule _ _) =>
    (tree.leafOf? .moduleComment).map fun comment => moduleComment comment.text
  | tree@(.node .documentedCommand _ _) =>
    (tree.childrenOf .comment).head?.bind fun comment =>
      (tree.childrenOf .command).head?.bind fun command =>
        (Command.ofTree? command).map (documented comment.text)
  | .node .comment _ _ => some strayComment
  | tree => (Command.ofTree? tree).map plain

/-- The items of the tree of a file. -/
def ofFile (tree : Tree) : List Item := tree.children.filterMap ofTree?

end Item

end CMakeDocs
