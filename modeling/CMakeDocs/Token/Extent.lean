import CMakeDocs.Token

/-!
# How far each kind of lexeme reaches

Every function here takes the characters that follow some opening and answers with a number of
characters. They state the classes one at a time; which class wins at a given place is decided
in `CMakeDocs.Token.Scan`.
-/
namespace CMakeDocs.Extent

/-- The index of the first occurrence of `pat`. -/
def find? (pat : List Char) : List Char → Option Nat
  | [] => if pat.isEmpty then some 0 else none
  | c :: cs => if pat.isPrefixOf (c :: cs) then some 0 else (find? pat cs).map (· + 1)

/-- The index of the last occurrence of `pat`. -/
def findLast? (pat : List Char) : List Char → Option Nat
  | [] => if pat.isEmpty then some 0 else none
  | c :: cs =>
    match findLast? pat cs with
    | some i => some (i + 1)
    | none => if pat.isPrefixOf (c :: cs) then some 0 else none

/-- The length of the leading run of characters of a class. -/
def run (p : Char → Bool) (cs : List Char) : Nat := (cs.takeWhile p).length

def isBlank (c : Char) : Bool := c = ' ' || c = '\t'

def isLineEnd (c : Char) : Bool := c = '\n' || c = '\r'

def isIdentifierStart (c : Char) : Bool := c.isAlpha || c = '_'

def isIdentifierRest (c : Char) : Bool := c.isAlphanum || c = '_'

/-- A backslash may stand before any character that is no letter or digit, and before
`t`, `r` and `n`. -/
def isEscapable (c : Char) : Bool := !c.isAlphanum || c = 't' || c = 'r' || c = 'n'

/-- The characters that an unquoted argument takes as they are. -/
def isPlain (c : Char) : Bool :=
  !(isBlank c || isLineEnd c || c = '(' || c = ')' || c = '#' || c = '"' || c = '\\')

/-- The length of the longest identifier at the start, zero if there is none. -/
def identifier : List Char → Nat
  | [] => 0
  | c :: cs => if isIdentifierStart c then 1 + run isIdentifierRest cs else 0

/-- The length of the longest run of plain and escaped characters. -/
def unquoted : List Char → Nat
  | [] => 0
  | ['\\'] => 0
  | '\\' :: c :: cs => if isEscapable c then 2 + unquoted cs else 0
  | c :: cs => if isPlain c then 1 + unquoted cs else 0

/-- Where a lexeme that needs a closing mark ends: `closed n` after its mark, `stuck n` after
the first character that no such lexeme can have there, or at the end of the text. -/
inductive Closing where
  | closed (length : Nat)
  | stuck (length : Nat)
deriving DecidableEq, Repr

def Closing.shift (k : Nat) : Closing → Closing
  | closed n => closed (k + n)
  | stuck n => stuck (k + n)

/-- What follows an opening quote, up to the next quote that no backslash escapes. -/
def quoted : List Char → Closing
  | [] => .stuck 0
  | ['\\'] => .stuck 1
  | '\\' :: c :: cs => if isEscapable c then (quoted cs).shift 2 else .stuck 2
  | c :: cs => if c = '"' then .closed 1 else (quoted cs).shift 1

/-- The level of a bracket opening `[=…=[`: how many equals signs it has. -/
def bracketLevel? : List Char → Option Nat
  | '[' :: cs =>
    match cs.dropWhile (· = '=') with
    | '[' :: _ => some (run (· = '=') cs)
    | _ => none
  | _ => none

/-- The mark that closes a bracket of the given level. -/
def bracketClose (level : Nat) : List Char := ']' :: (List.replicate level '=' ++ [']'])

/-- The length of a whole bracket, from its opening to the first closing mark of its level. -/
def bracketed? (cs : List Char) : Option Nat := do
  let level ← bracketLevel? cs
  let i ← find? (bracketClose level) (cs.drop (level + 2))
  return (level + 2) + i + (level + 2)

/-- The length of a line comment, its line end included. -/
def lineComment (cs : List Char) : Nat :=
  let body := run (fun c => !isLineEnd c) cs
  match cs.drop body with
  | '\r' :: '\n' :: _ => body + 2
  | _ :: _ => body + 1
  | [] => body

def docOpening : List Char := ['#', '[', '[', '[']

def docClosing : List Char := ['#', ']', ']']

/-- The length of what follows `#[[[` in a documentation comment. -/
def docBody? (cs : List Char) : Option Nat := (find? docClosing cs).map (· + 3)

def moduleMark : List Char := "@module".toList

/-- The characters after the mark of a module comment, and how many stood before them. -/
def moduleRest? (cs : List Char) : Option (Nat × List Char) :=
  let blanks := run isBlank cs
  let rest := cs.drop blanks
  if moduleMark.isPrefixOf rest then
    some (blanks + moduleMark.length, rest.drop moduleMark.length)
  else none

/-- How many characters after the module mark belong to the module's name: some blanks and an
unquoted argument, or none at all. -/
def moduleName (cs : List Char) : Nat :=
  let blanks := run isBlank cs
  let name := unquoted (cs.drop blanks)
  if blanks = 0 ∨ name = 0 then 0 else blanks + name

/-- The length of what follows `#[[[` in a module comment. A closing mark inside the name (there
its `#` is escaped) counts only if none comes after the name. -/
def moduleBody? (cs : List Char) : Option Nat := do
  let (before, rest) ← moduleRest? cs
  let name := moduleName rest
  let i ← ((find? docClosing (rest.drop name)).map (· + name)).or
    (findLast? docClosing (rest.take name))
  return before + i + 3

end CMakeDocs.Extent
