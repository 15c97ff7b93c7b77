/-!
# Halves of surrogate pairs

A text may hold one half of a surrogate pair, whose number belongs to no character. It is kept as a
character of the last private plane, the one with the same low bits. Such a half has no encoded
form, so a text with one cannot be written to a file.
-/
namespace CMakeDocs.Text

/-- Whether a number is that of a half. -/
def isHalf (n : Nat) : Bool := 0xD800 ≤ n && n < 0xE000

/-- The character that stands for a number. -/
def charOfNumber (n : Nat) : Char := if isHalf n then Char.ofNat (0x100000 + n) else Char.ofNat n

/-- The number that a character stands for. -/
def numberOfChar (c : Char) : Nat :=
  if 0x100000 ≤ c.toNat && isHalf (c.toNat - 0x100000) then c.toNat - 0x100000 else c.toNat

/-- Whether a character can be encoded. -/
def isEncodable (c : Char) : Bool := !isHalf (numberOfChar c)

theorem numberOfChar_charOfNumber_half (n : Nat) (h : isHalf n) :
    numberOfChar (charOfNumber n) = n := by
  have hn : 0xD800 ≤ n ∧ n < 0xE000 := by simpa [isHalf] using h
  have valid : (0x100000 + n).isValidChar := Or.inr ⟨by omega, by omega⟩
  have number : (Char.ofNat (0x100000 + n)).toNat = 0x100000 + n := by
    rw [Char.ofNat, dif_pos valid]
    rfl
  simp [charOfNumber, numberOfChar, h, number]

/-- The place of the first character that cannot be encoded, and of the last one that follows it
without a gap. -/
def unencodable? (s : String) : Option (Nat × Nat) :=
  let start := (s.toList.takeWhile isEncodable).length
  let count := ((s.toList.drop start).takeWhile fun c => !isEncodable c).length
  if count = 0 then none else some (start, start + count - 1)

end CMakeDocs.Text
