/-!
# Places in a text and reports about them

Lines are counted from one and columns from zero. Only a line feed ends a line: a carriage
return is one more column. A report is one line of diagnostic output.
-/
namespace CMakeDocs

structure Position where
  line : Nat
  column : Nat
deriving DecidableEq, Repr

namespace Position

/-- The place of the first character of a text. -/
def origin : Position := ⟨1, 0⟩

/-- The place after a character that stands at `p`. -/
def next (p : Position) (c : Char) : Position :=
  if c = '\n' then ⟨p.line + 1, 0⟩ else ⟨p.line, p.column + 1⟩

/-- The place after a run of characters that starts at `p`. -/
def after (p : Position) (cs : List Char) : Position := cs.foldl next p

@[simp] theorem after_nil (p : Position) : p.after [] = p := rfl

@[simp] theorem after_cons (p : Position) (c : Char) (cs : List Char) :
    p.after (c :: cs) = (p.next c).after cs := rfl

theorem after_append (p : Position) (as bs : List Char) :
    p.after (as ++ bs) = (p.after as).after bs := by
  simp [after]

def render (p : Position) : String := s!"{p.line}:{p.column}"

end Position

structure Report where
  position : Position
  message : String
deriving DecidableEq, Repr

def Report.render (r : Report) : String := s!"line {r.position.render} {r.message}"

end CMakeDocs
