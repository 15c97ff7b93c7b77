/-!
# Letter case of ASCII words

A word of ASCII capitals is recognised in any spelling whose capitals it is. Beyond the ASCII
letters, only the dotless i and the long s have an ASCII letter as their capital, and only the
Kelvin sign has one as its small letter.
-/
namespace CMakeDocs.Text

def capital (c : Char) : Char :=
  if c = 'ı' then 'I' else if c = 'ſ' then 'S' else c.toUpper

def small (c : Char) : Char := if c = '\u212a' then 'k' else c.toLower

/-- Whether a text is a spelling of a word of ASCII capitals. -/
def isSpellingOf (word s : String) : Bool := s.toList.map capital = word.toList

/-- A text in small letters. -/
def toSmall (s : String) : String := String.ofList (s.toList.map small)

end CMakeDocs.Text
