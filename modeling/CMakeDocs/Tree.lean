import CMakeDocs.Token

/-!
# Trees of a text

A tree shows which tokens were read as what. Its leaves are the tokens that were read, the tokens
that were skipped while recovering from a fault, and marks for tokens that should have stood
there. A node remembers where its first token stands.
-/
namespace CMakeDocs

inductive Rule where
  | file
  | documentedCommand
  | documentedModule
  | comment
  | command
  | argument
  | group
deriving DecidableEq, Repr

namespace Rule

def name : Rule → String
  | file => "cmake_file"
  | documentedCommand => "documented_command"
  | documentedModule => "documented_module"
  | comment => "bracket_doccomment"
  | command => "command_invocation"
  | argument => "single_argument"
  | group => "compound_argument"

def all : List Rule :=
  [file, documentedCommand, documentedModule, comment, command, argument, group]

def ofName? (name : String) : Option Rule := all.find? (·.name = name)

/-- Whether a node of the first rule may have several children of the second. -/
def repeats : Rule → Rule → Bool
  | file, documentedCommand | file, command | file, comment => true
  | command, argument | command, group | group, argument | group, group => true
  | _, _ => false

/-- The name of a rule with a capital, as the events of a walk spell it. -/
def eventName (r : Rule) : String := r.name.capitalize

end Rule

inductive Tree where
  | token (t : Token)
  | skipped (t : Token)
  | missing (kind : TokenKind)
  | node (rule : Rule) (position : Position) (children : List Tree)
deriving Repr

namespace Tree

/-- The text of a mark for a token that should have stood there. -/
def missingText (kind : TokenKind) : String := "<missing " ++ kind.expectedName ++ ">"

mutual

/-- The texts of the leaves with nothing between them. -/
def text : Tree → String
  | token t => t.text
  | skipped t => t.text
  | missing kind => missingText kind
  | node _ _ children => textOfList children

def textOfList : List Tree → String
  | [] => ""
  | t :: ts => t.text ++ textOfList ts

end

mutual

/-- The tokens at the leaves, read or skipped, from left to right. -/
def leaves : Tree → List Token
  | token t => [t]
  | skipped t => [t]
  | missing _ => []
  | node _ _ children => leavesOfList children

def leavesOfList : List Tree → List Token
  | [] => []
  | t :: ts => t.leaves ++ leavesOfList ts

end

def children : Tree → List Tree
  | node _ _ children => children
  | _ => []

def rule? : Tree → Option Rule
  | node rule _ _ => some rule
  | _ => none

/-- The children that were read by a rule. -/
def childrenOf (t : Tree) (rule : Rule) : List Tree :=
  t.children.filter fun child => child.rule? = some rule

/-- The kind of token that a leaf stands for. -/
def kind? : Tree → Option TokenKind
  | token t => some t.kind
  | skipped t => some t.kind
  | missing kind => some kind
  | node _ _ _ => none

/-- The first child that is a leaf of the given kind. -/
def leafOf? (t : Tree) (kind : TokenKind) : Option Tree :=
  t.children.find? fun child => child.kind? = some kind

/-- The subtree that a list of child numbers leads to. -/
def follow? : Tree → List Nat → Option Tree
  | t, [] => some t
  | t, i :: path => t.children[i]?.bind fun child => follow? child path

/-- The event of a leaf in a walk. -/
def leafEvent : Tree → List String
  | token t => ["tok " ++ t.text]
  | skipped t => ["err " ++ t.text]
  | missing kind => ["err " ++ missingText kind]
  | node _ _ _ => []

mutual

/-- The events of a walk that enters and leaves every node. -/
def walkEvents : Tree → List String
  | node rule _ children =>
    ("enter" ++ rule.eventName) :: (walkEventsOfList children ++ ["exit" ++ rule.eventName])
  | leaf => leaf.leafEvent

def walkEventsOfList : List Tree → List String
  | [] => []
  | t :: ts => walkEvents t ++ walkEventsOfList ts

end

mutual

/-- The events of the leaves alone. -/
def leafEvents : Tree → List String
  | node _ _ children => leafEventsOfList children
  | leaf => leaf.leafEvent

def leafEventsOfList : List Tree → List String
  | [] => []
  | t :: ts => leafEvents t ++ leafEventsOfList ts

end

mutual

/-- For every node, from the root down, its visit and then all leaves below it. -/
def visitEvents : Tree → List String
  | node rule position children =>
    ("visit" ++ rule.eventName) :: (leafEvents (node rule position children) ++
      visitEventsOfList children)
  | _ => []

def visitEventsOfList : List Tree → List String
  | [] => []
  | t :: ts => visitEvents t ++ visitEventsOfList ts

end

end Tree

end CMakeDocs
