/-!
# Cutting and joining at a character

Joining the pieces that `splitChars` cuts gives the text back (`joinChars_splitChars`). A line ends
at a line feed and nowhere else.
-/
namespace CMakeDocs.Text

/-- The pieces between the occurrences of a character; there is always at least one. -/
def splitChars (sep : Char) : List Char → List (List Char)
  | [] => [[]]
  | c :: cs =>
    match splitChars sep cs with
    | [] => [[c]]
    | piece :: rest => if c = sep then [] :: piece :: rest else (c :: piece) :: rest

/-- The pieces with a character between each two. -/
def joinChars (sep : Char) : List (List Char) → List Char
  | [] => []
  | [piece] => piece
  | piece :: rest => piece ++ sep :: joinChars sep rest

theorem splitChars_ne_nil (sep : Char) (cs : List Char) : splitChars sep cs ≠ [] := by
  cases cs with
  | nil => simp [splitChars]
  | cons c cs =>
    rw [splitChars]
    split
    · simp
    · split <;> simp

theorem joinChars_splitChars (sep : Char) (cs : List Char) :
    joinChars sep (splitChars sep cs) = cs := by
  induction cs with
  | nil => rfl
  | cons c cs ih =>
    rw [splitChars]
    split
    · next h => exact absurd h (splitChars_ne_nil sep cs)
    · next piece rest h =>
      rw [h] at ih
      by_cases hc : c = sep
      · simp [hc, joinChars, ih]
      · cases rest <;> simp_all [joinChars]

/-- The lines of a text. -/
def lines (s : String) : List String := (splitChars '\n' s.toList).map String.ofList

/-- The text with the given lines. -/
def unlines (ls : List String) : String := "\n".intercalate ls

/-- The pieces of a text between dots. -/
def splitDots (s : String) : List String := (splitChars '.' s.toList).map String.ofList

/-- The text with every occurrence of a mark deleted, from left to right. -/
def deleteChars (mark : List Char) : Nat → List Char → List Char
  | _, [] => []
  | 0, c :: cs =>
    if mark.isPrefixOf (c :: cs) then deleteChars mark (mark.length - 1) cs
    else c :: deleteChars mark 0 cs
  | skip + 1, _ :: cs => deleteChars mark skip cs

/-- Deletes every occurrence of a mark that is not empty. -/
def delete (mark : String) (s : String) : String :=
  String.ofList (deleteChars mark.toList 0 s.toList)

/-- Whether a text occurs inside another. -/
def occursIn (part : List Char) : List Char → Bool
  | [] => part.isEmpty
  | c :: cs => part.isPrefixOf (c :: cs) || occursIn part cs

def contains (part whole : String) : Bool := occursIn part.toList whole.toList

end CMakeDocs.Text
