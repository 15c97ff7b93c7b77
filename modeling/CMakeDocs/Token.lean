import CMakeDocs.Position

/-!
# Tokens of a CMake text

A token is a kind, the characters it was read from and where they stand. The end of the text
is a token of its own, so that a reader always has a current token. Comments other than
documentation comments, blanks and line ends give no token.
-/
namespace CMakeDocs

inductive TokenKind where
  | endOfText
  | leftParen
  | rightParen
  /-- A comment `#[[[ @module … #]]`. -/
  | moduleComment
  /-- A comment `#[[[ … #]]`. -/
  | docComment
  /-- An opening `#[[[` that nothing closes. -/
  | openComment
  | identifier
  | unquoted
  | quoted
  | bracket
deriving DecidableEq, Repr

namespace TokenKind

/-- The name of a kind in a list of tokens. -/
def name : TokenKind → String
  | endOfText => "<EOF>"
  | leftParen => "("
  | rightParen => ")"
  | moduleComment => "Module_docstring"
  | docComment => "Docstring"
  | openComment => "Doccomment_start"
  | identifier => "Identifier"
  | unquoted => "Unquoted_argument"
  | quoted => "Quoted_argument"
  | bracket => "Bracket_argument"

/-- The name of a kind where a message says what was expected. -/
def expectedName : TokenKind → String
  | leftParen => "'('"
  | rightParen => "')'"
  | kind => kind.name

/-- The kinds that are an argument by themselves. -/
def isArgument : TokenKind → Bool
  | identifier | unquoted | quoted | bracket => true
  | _ => false

end TokenKind

structure Token where
  kind : TokenKind
  text : String
  /-- How many characters stand before the token. -/
  start : Nat
  position : Position
deriving DecidableEq, Repr

namespace Token

/-- The index of the last character of a token that has any. -/
def stop (t : Token) : Nat := t.start + t.text.length - 1

/-- Line ends and tabs are written as two characters in messages. -/
def escapeLayout (cs : List Char) : List Char :=
  cs.flatMap fun c =>
    if c = '\n' then ['\\', 'n'] else if c = '\r' then ['\\', 'r']
    else if c = '\t' then ['\\', 't'] else [c]

/-- A text between quotes, as messages show it. -/
def shown (text : String) : String := "'" ++ String.ofList (escapeLayout text.toList) ++ "'"

end Token

end CMakeDocs
