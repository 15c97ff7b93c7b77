/-!
# The order of names

Names are ordered character by character, by the numbers of the characters.
-/
namespace CMakeDocs.Text

def leChars : List Char → List Char → Bool
  | [], _ => true
  | _ :: _, [] => false
  | c :: cs, d :: ds => if c = d then leChars cs ds else c.toNat < d.toNat

/-- Whether a name comes before another one or is the same. -/
def le (s t : String) : Bool := leChars s.toList t.toList

/-- Puts a name into a list that is in order. -/
def insertSorted (s : String) : List String → List String
  | [] => [s]
  | t :: ts => if le s t then s :: t :: ts else t :: insertSorted s ts

/-- The names in order. -/
def sort : List String → List String
  | [] => []
  | s :: ss => insertSorted s (sort ss)

theorem insertSorted_perm (s : String) (ts : List String) :
    (insertSorted s ts).Perm (s :: ts) := by
  induction ts with
  | nil => exact List.Perm.refl _
  | cons t ts ih =>
    rw [insertSorted]
    split
    · exact List.Perm.refl _
    · exact (List.Perm.cons t ih).trans (List.Perm.swap s t ts)

theorem sort_perm (ss : List String) : (sort ss).Perm ss := by
  induction ss with
  | nil => exact List.Perm.refl _
  | cons s ss ih => exact (insertSorted_perm s (sort ss)).trans (List.Perm.cons s ih)

end CMakeDocs.Text
