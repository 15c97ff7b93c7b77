import CMakeDocs.Rst.Error

/-!
# Simple tables

All columns of a table have the same width, that of the longest cell or heading, and two spaces
stand after each. A table without headings keeps three empty lines in their place.
-/
namespace CMakeDocs.Rst

/-- The heading of a column. One that is made of several texts takes a place for each. -/
structure ColumnHeading where
  text : String
  places : Nat
deriving DecidableEq, Repr

namespace ColumnHeading

def ofText (s : String) : ColumnHeading := ⟨s, s.length⟩

/-- The heading that a value stands for. -/
def ofValue? : Value → Except Misuse ColumnHeading
  | .text s => .ok (ofText s)
  | .list items =>
    match items.find? fun v => v.kindName ≠ "str" with
    | some v => .error (.notAppended "str" v)
    | none => .ok ⟨String.join (items.map Value.shown), items.length⟩
  | .record _ fields => if fields.isEmpty then .ok ⟨"", 0⟩ else .error (.noKey 0)
  | v => .error (.noLength v)

end ColumnHeading

structure Table where
  rows : List (List String)
  headings : List ColumnHeading
deriving DecidableEq, Repr

namespace Table

/-- The greatest number. -/
def greatest (ns : List Nat) : Nat := ns.foldl max 0

def width (t : Table) : Nat :=
  greatest (t.rows.flatten.map String.length ++ t.headings.map ColumnHeading.places)

/-- A text that takes some of the places of a width, with the space after it. -/
def paddedText (width : Nat) (text : String) (places : Nat) : String :=
  text ++ String.ofList (List.replicate (width - places) ' ' ++ [' ', ' '])

/-- The cells of a line. -/
def lineText (width : Nat) (cells : List String) : String :=
  String.join (cells.map fun cell => paddedText width cell cell.length)

/-- A line below or above the given number of columns. -/
def borderText (width columns : Nat) : String :=
  lineText width (List.replicate columns (String.ofList (List.replicate width '=')))

def headingsText (t : Table) : String :=
  let border := borderText t.width t.headings.length
  let line := String.join (t.headings.map fun h => paddedText t.width h.text h.places)
  border ++ "\n" ++ line ++ "\n" ++ border ++ "\n"

def rowsText (t : Table) : String :=
  String.join (t.rows.map fun row => lineText t.width row ++ "\n")

def text (t : Table) : String :=
  t.headingsText ++ t.rowsText ++ borderText t.width (t.rows.headD []).length ++ "\n"

/-- The cells of rows of a length. -/
def rowsOf (columns : Nat) : List Value → Except Error (List (List String))
  | [] => .ok []
  | row :: rows => do
    let count ← row.count
    if count ≠ columns then .error .columnCount
    else
      let cells ← row.iterate
      let more ← rowsOf columns rows
      .ok (cells.map Value.shown :: more)

/-- The table of rows and headings that can be gone through. There has to be a first row; all rows
have its length, and so have the headings if there are any. -/
def ofValues? (rows headings : Value) : Except Error Table := do
  let columns ← (← rows.item 0).count
  let count ← headings.count
  if count ≠ 0 && count ≠ columns then .error .headingCount
  else
    let cells ← rowsOf columns (← rows.iterate)
    let titles ← headings.iterate
    let _ ← (titles.mapM Value.count : Except Misuse _)
    .ok ⟨cells, ← (titles.mapM ColumnHeading.ofValue? : Except Misuse _)⟩

end Table

end CMakeDocs.Rst
