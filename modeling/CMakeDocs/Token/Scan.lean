import CMakeDocs.Token.Extent

/-!
# Cutting a text into pieces

At each place the longest lexeme wins, and of two equally long ones the kind that is listed
first. A piece is a token, something to skip (a comment, blanks, line ends), or a fault:
characters that begin no lexeme, up to and including the one where the last possibility ends.
-/
namespace CMakeDocs

inductive PieceKind where
  | token (kind : TokenKind)
  | skipped
  | fault
deriving DecidableEq, Repr

structure Piece where
  kind : PieceKind
  chars : List Char
deriving DecidableEq, Repr

namespace Scan

open Extent

/-- The lexeme at a `#`, given the characters after it. -/
def comment (cs : List Char) : PieceKind × Nat :=
  match bracketLevel? cs with
  | none => (.skipped, 1 + lineComment cs)
  | some _ =>
    if ['[', '[', '['].isPrefixOf cs then
      match docBody? (cs.drop 3), moduleBody? (cs.drop 3) with
      | some _, some n => (.token .moduleComment, 4 + n)
      | some n, none => (.token .docComment, 4 + n)
      | none, _ =>
        match bracketed? cs with
        | some n => (.skipped, 1 + n)
        | none => (.token .openComment, 4)
    else
      match bracketed? cs with
      | some n => (.skipped, 1 + n)
      | none => (.fault, 1 + cs.length)

/-- The lexeme at the start of a text that is not empty, and its length. -/
def lexeme (c : Char) (cs : List Char) : PieceKind × Nat :=
  if c = '(' then (.token .leftParen, 1)
  else if c = ')' then (.token .rightParen, 1)
  else if isBlank c then (.skipped, 1 + run isBlank cs)
  else if isLineEnd c then (.skipped, 1 + run isLineEnd cs)
  else if c = '#' then comment cs
  else if c = '"' then
    match quoted cs with
    | .closed n => (.token .quoted, 1 + n)
    | .stuck n => (.fault, 1 + n)
  else
    let n := unquoted (c :: cs)
    if n = 0 then (.fault, min 2 (1 + cs.length))
    else if identifier (c :: cs) = n then (.token .identifier, n)
    else
      match bracketed? (c :: cs) with
      | some k => if n < k then (.token .bracket, k) else (.token .unquoted, n)
      | none => (.token .unquoted, n)

/-- The pieces of the characters that are left when the first `skip` of them belong to a
piece that has begun before. -/
def piecesAfter : Nat → List Char → List Piece
  | _, [] => []
  | 0, c :: cs =>
    let (kind, n) := lexeme c cs
    ⟨kind, (c :: cs).take n⟩ :: piecesAfter (n - 1) cs
  | skip + 1, _ :: cs => piecesAfter skip cs

/-- The pieces of a text, in order. -/
def pieces (cs : List Char) : List Piece := piecesAfter 0 cs

end Scan

end CMakeDocs
