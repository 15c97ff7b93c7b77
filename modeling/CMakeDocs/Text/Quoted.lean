import CMakeDocs.Text.Printable
import CMakeDocs.Text.Surrogate

/-!
# Quoted texts

A text is quoted by single quotes, or by double ones if it holds a single quote and no double
one. Inside, a backslash and the quote itself are escaped, and every character that is not shown
as it is gets a short escape or its number.
-/
namespace CMakeDocs.Text

def hexDigits (width : Nat) (n : Nat) : List Char :=
  let digits := Nat.toDigits 16 n
  List.replicate (width - digits.length) '0' ++ digits

/-- A character inside the given quote. -/
def escapeChar (quote c : Char) : List Char :=
  if c = quote ∨ c = '\\' then ['\\', c]
  else if c = '\n' then ['\\', 'n']
  else if c = '\r' then ['\\', 'r']
  else if c = '\t' then ['\\', 't']
  else if isPrintable c then [c]
  else
    let n := numberOfChar c
    if n < 0x100 then '\\' :: 'x' :: hexDigits 2 n
    else if n < 0x10000 then '\\' :: 'u' :: hexDigits 4 n
    else '\\' :: 'U' :: hexDigits 8 n

/-- The quote for a text. -/
def quoteFor (cs : List Char) : Char :=
  if cs.contains '\'' && !cs.contains '"' then '"' else '\''

def quote (s : String) : String :=
  let q := quoteFor s.toList
  String.ofList (q :: (s.toList.flatMap (escapeChar q) ++ [q]))

/-- What is said about a text that cannot be encoded. -/
def encodingMessage (s : String) : String :=
  let (start, stop) := (unencodable? s).getD (0, 0)
  let where_ := if start = stop then
      "character '" ++ String.ofList (escapeChar '\'' (s.toList.getD start ' ')) ++
        s!"' in position {start}"
    else s!"characters in position {start}-{stop}"
  "'utf-8' codec can't encode " ++ where_ ++ ": surrogates not allowed"

/-- A list of items that are written already. -/
def bracketed (items : List String) : String := "[" ++ ", ".intercalate items ++ "]"

/-- A list of texts. -/
def quoteList (ss : List String) : String := bracketed (ss.map quote)

end CMakeDocs.Text
