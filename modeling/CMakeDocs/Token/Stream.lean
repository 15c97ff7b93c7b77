import CMakeDocs.Token.Scan

/-!
# The stream of tokens

Each token carries the reports about the faults between the token before it and itself. A reader
that asks for a token thereby prints those reports, so the order of all reports follows from how
far the reader has looked. The last cell is always the end of the text.
-/
namespace CMakeDocs

structure Cell where
  reports : List Report
  token : Token
deriving DecidableEq, Repr

namespace Cell

/-- The report about characters that are no lexeme. -/
def faultReport (position : Position) (chars : List Char) : Report :=
  ⟨position, "token recognition error at: " ++ Token.shown (String.ofList chars)⟩

/-- The cells of a list of pieces that begins at the given place, with the reports that wait
for the next token. -/
def ofPieces (start : Nat) (position : Position) (waiting : List Report) :
    List Piece → List Cell
  | [] => [⟨waiting, ⟨.endOfText, "<EOF>", start, position⟩⟩]
  | piece :: rest =>
    let start' := start + piece.chars.length
    let position' := position.after piece.chars
    match piece.kind with
    | .token kind =>
      ⟨waiting, ⟨kind, String.ofList piece.chars, start, position⟩⟩ ::
        ofPieces start' position' [] rest
    | .skipped => ofPieces start' position' waiting rest
    | .fault =>
      ofPieces start' position' (waiting ++ [faultReport position piece.chars]) rest

/-- The cells of a whole text. -/
def ofText (text : String) : List Cell :=
  ofPieces 0 Position.origin [] (Scan.pieces text.toList)

end Cell

namespace Token

/-- The tokens of a text without its end. -/
def ofText (text : String) : List Token :=
  ((Cell.ofText text).map Cell.token).filter fun t => t.kind ≠ .endOfText

/-- The reports about a text, in order. -/
def reportsOfText (text : String) : List Report := (Cell.ofText text).flatMap Cell.reports

end Token

end CMakeDocs
