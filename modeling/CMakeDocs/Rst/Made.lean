import CMakeDocs.Rst.Error
import CMakeDocs.Rst.Piece

/-!
# Pieces made of values

A piece shows most values as they are. Some things can be done with texts only: a paragraph is cut
into lines, an indentation stands in front of them, and an underline is repeated.
-/
namespace CMakeDocs.Rst

/-- The indentation of a level. -/
def indentationOf (level : Value) : Except Misuse String := level.whole.map indentation

def paragraphOf (indent text : Value) : Except Misuse String :=
  match text, indent with
  | .text s, .text indent => .ok (paragraphText indent s)
  | .text _, .list _ => .error (.notAppended "list" text)
  | .text _, v => .error (.notAdded v.kindName "str")
  | v, _ => .error (.noLines v)

/-- A list of what can be gone through. Numbered items are asked for by their numbers. -/
def listOf (kind : ListKind) (indent items : Value) : Except Misuse String := do
  let texts ← match kind, items with
    | .enumerated, .record _ (_ :: _) => .error (.noKey 0)
    | .enumerated, v => do
      let _ ← v.count
      v.iterate
    | .bulleted, v => v.iterate
  .ok (listText kind indent.shown (texts.map Value.shown))

/-- A title between two lines with a mark for each of its items. Without items no mark is needed,
so that anything can stand for it. -/
def headingOf (header title : Value) : Except Misuse String := do
  let count := (← title.iterate).length
  match header with
  | .text s => .ok (linedText s count title.shown)
  | v => if count = 0 then .ok (linedText "" 0 title.shown) else .error (.notAppended "str" v)

end CMakeDocs.Rst
