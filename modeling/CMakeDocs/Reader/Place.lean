import CMakeDocs.Tree

/-!
# Places in the grammar

A file is an optional module comment and then any number of documented commands, commands and
comments. A command is a name and a list of arguments in parentheses; an argument is one token or
again a list in parentheses (a group). A place is a point of these rules at which the reader
looks at the next token: it says which kinds may come there, and, where a rule is called, which
kinds may come after it.
-/
namespace CMakeDocs

/-- The two rules that have a list of arguments. -/
inductive ListOwner where
  | command
  | group
deriving DecidableEq, Repr

inductive Place where
  | fileStart
  | fileItems
  | fileChoice
  | fileNext
  | fileEnd
  | callModule
  | callDocumented
  | callCommand
  | callComment
  | documentedComment
  | documentedCommand
  | moduleToken
  | commentToken
  | argumentToken
  | commandName
  | listOpen (owner : ListOwner)
  | listItems (owner : ListOwner)
  | listNext (owner : ListOwner)
  | listClose (owner : ListOwner)
  | callArgument (owner : ListOwner)
  | callGroup (owner : ListOwner)
deriving DecidableEq, Repr

namespace Place

open TokenKind

def itemKinds : List TokenKind := [endOfText, docComment, identifier]

def argumentKinds : List TokenKind := [identifier, unquoted, quoted, bracket]

def listKinds : List TokenKind := leftParen :: rightParen :: argumentKinds

/-- The kinds that may come at a place, in the order in which messages list them. -/
def expected : Place → List TokenKind
  | fileStart => [endOfText, moduleComment, docComment, identifier]
  | fileItems | fileNext => itemKinds
  | fileChoice => [docComment, identifier]
  | fileEnd => [endOfText]
  | callModule | moduleToken => [moduleComment]
  | callDocumented | callComment | documentedComment | commentToken => [docComment]
  | callCommand | documentedCommand | commandName => [identifier]
  | argumentToken | callArgument _ => argumentKinds
  | listOpen _ | callGroup _ => [leftParen]
  | listItems _ | listNext _ => listKinds
  | listClose _ => [rightParen]

/-- The kinds that may come after the rule that a place calls. -/
def follow : Place → List TokenKind
  | callModule | callDocumented | callCommand | callComment => itemKinds
  | documentedComment => [identifier]
  | callArgument _ | callGroup _ => listKinds
  | _ => []

/-- Whether the rule that a place calls is the last thing in the rule that calls it. -/
def isLast : Place → Bool
  | documentedCommand => true
  | _ => false

/-- What may follow the innermost of a chain of calls, which is listed first. -/
def followAll : List Place → List TokenKind
  | [] => [endOfText]
  | p :: calls => p.follow ++ if p.isLast then followAll calls else []

/-- The kinds that end the skipping of tokens after a fault. -/
def recoverySet (calls : List Place) : List TokenKind := calls.flatMap follow

/-- What may come after the token that is wanted at a place. -/
def afterToken (calls : List Place) : Place → List TokenKind
  | commandName => [leftParen]
  | listOpen _ => listKinds
  | _ => followAll calls

/-- A list of kinds as messages show it. -/
def showKinds : List TokenKind → String
  | [kind] => kind.expectedName
  | kinds => "\x7b" ++ ", ".intercalate (kinds.map TokenKind.expectedName) ++ "\x7d"

end Place

end CMakeDocs
