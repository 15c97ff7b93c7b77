import CMakeDocs.Text.Surrogate

/-!
# Tokens of a configuration text

A configuration is written with braces, brackets, commas, colons, texts in double quotes and words.
Blanks between them are spaces and line ends, but no tabs. A colon belongs to a key only if the key
began on the same line and not too far before it, so a token that may turn out to be a key is kept
in mind until it is too far away.

Inside of quotes a line end with the blanks around it counts as one space, and further line ends
count as themselves.
-/
namespace CMakeDocs.Value

/-- A place in a text; lines and columns count from zero. -/
structure Mark where
  index : Nat
  line : Nat
  column : Nat
deriving DecidableEq, Repr

def Mark.start : Mark := ⟨0, 0, 0⟩

/-- The characters that end a line. -/
def isLineEnd (c : Char) : Bool := ['\n', '\r', '\u0085', '\u2028', '\u2029'].contains c

/-- What is left of a text from a place on. -/
structure Place where
  rest : List Char
  mark : Mark
deriving Repr

namespace Place

/-- Passes a character. A carriage return before a line feed ends no line, and the mark of the byte
order takes no column. -/
def pass (p : Place) : Place :=
  match p.rest with
  | [] => p
  | c :: rest =>
    let m := p.mark
    let mark : Mark :=
      if isLineEnd c && !(c = '\r' && rest.head? = some '\n') then ⟨m.index + 1, m.line + 1, 0⟩
      else if c = '\ufeff' then ⟨m.index + 1, m.line, m.column⟩
      else ⟨m.index + 1, m.line, m.column + 1⟩
    ⟨rest, mark⟩

/-- Passes a number of characters. -/
def passMany : Nat → Place → Place
  | 0, p => p
  | n + 1, p => p.pass.passMany n

/-- Passes a line end: what it counts as, and the place after it. -/
def passLineEnd? (p : Place) : Option (Char × Place) :=
  match p.rest with
  | '\r' :: '\n' :: _ => some ('\n', p.passMany 2)
  | c :: _ =>
    if isLineEnd c then some (if c = '\u2028' || c = '\u2029' then c else '\n', p.pass) else none
  | [] => none

/-- Passes all characters of a class. -/
def passWhile (f : Char → Bool) (p : Place) : Place := p.passMany (p.rest.takeWhile f).length

end Place

/-- Why a text is no configuration. -/
inductive TextFault where
  /-- A character that may not stand in a text at all. -/
  | character (c : Char) (index : Nat)
  | tab (mark : Mark)
  /-- A line of dashes or dots inside of quotes. -/
  | separator (start mark : Mark)
  /-- A colon without a key, in a record that began at a place. -/
  | colon (start mark : Mark)
  | malformed
deriving DecidableEq, Repr

inductive Sign where
  | openList
  | closeList
  | openRecord
  | closeRecord
  | comma
  /-- A colon, which may have a key before it. -/
  | colon (hasKey : Bool)
  | quoted (s : String)
  | word (s : String)
deriving DecidableEq, Repr

structure Token where
  sign : Sign
  mark : Mark
  number : Nat
deriving DecidableEq, Repr

/-- The characters of escapes of a single letter. -/
def escapeOf? (c : Char) : Option Char :=
  [('0', '\x00'), ('a', '\x07'), ('b', '\x08'), ('t', '\t'), ('\t', '\t'), ('n', '\n'),
    ('v', '\x0b'), ('f', '\x0c'), ('r', '\r'), ('e', '\x1b'), (' ', ' '), ('"', '"'), ('\\', '\\'),
    ('/', '/'), ('N', '\u0085'), ('_', '\u00a0'), ('L', '\u2028'), ('P', '\u2029')].lookup c

/-- How many digits the number of a character has after a letter. -/
def escapeLength? (c : Char) : Option Nat := [('x', 2), ('u', 4), ('U', 8)].lookup c

def hexValue? (c : Char) : Option Nat :=
  if '0' ≤ c && c ≤ '9' then some (c.toNat - '0'.toNat)
  else if 'a' ≤ c && c ≤ 'f' then some (c.toNat - 'a'.toNat + 10)
  else if 'A' ≤ c && c ≤ 'F' then some (c.toNat - 'A'.toNat + 10)
  else none

/-- The character of a number of hexadecimal digits. -/
def hexChar? (length : Nat) (cs : List Char) : Option Char :=
  let digits := cs.take length
  if digits.length = length then
    (digits.mapM hexValue?).map fun values =>
      Text.charOfNumber (values.foldl (fun n d => 16 * n + d) 0)
  else none

/-- Whether a line of dashes or dots begins here, which would divide texts. -/
def isSeparator (cs : List Char) : Bool :=
  (cs.take 3 = ['-', '-', '-'] || cs.take 3 = ['.', '.', '.']) &&
    ((cs.drop 3).head?.map fun c => c = ' ' || c = '\t' || isLineEnd c).getD true

def isSpaceOrTab (c : Char) : Bool := c = ' ' || c = '\t'

/-- The line ends after a first one, with the blanks before each. -/
def readLineEnds (start : Mark) : Nat → Place → Except TextFault (List Char × Place)
  | 0, p => .ok ([], p)
  | fuel + 1, p =>
    if isSeparator p.rest then .error (.separator start p.mark)
    else
      let p := p.passWhile isSpaceOrTab
      match p.passLineEnd? with
      | none => .ok ([], p)
      | some (c, p) => (readLineEnds start fuel p).map fun (more, p) => (c :: more, p)

/-- What a line end and the line ends after it count as. -/
def foldLineEnds (first : Char) (more : List Char) : List Char :=
  if first ≠ '\n' then first :: more else if more.isEmpty then [' '] else more

/-- The character of an escape after its backslash, and the place after it. -/
def readEscape? (p : Place) : Option (Char × Place) :=
  match p.rest with
  | [] => none
  | c :: rest =>
    match escapeOf? c, escapeLength? c with
    | some x, _ => some (x, p.pass)
    | none, some length => (hexChar? length rest).map fun x => (x, p.passMany (length + 1))
    | none, none => none

/-- A text up to its closing quote, and the place after it. -/
def readQuoted (start : Mark) : Nat → Place → Except TextFault (List Char × Place)
  | 0, _ => .error .malformed
  | fuel + 1, p =>
    let continueWith (cs : List Char) (p : Place) :=
      (readQuoted start fuel p).map fun (more, p) => (cs ++ more, p)
    match p.rest with
    | [] => .error .malformed
    | '"' :: _ => .ok ([], p.pass)
    | '\\' :: _ =>
      let p := p.pass
      match p.passLineEnd? with
      | some (_, p) => do
        let (ends, p) ← readLineEnds start p.rest.length p
        continueWith ends p
      | none =>
        match readEscape? p with
        | some (c, p) => continueWith [c] p
        | none => .error .malformed
    | c :: rest =>
      if isSpaceOrTab c || isLineEnd c then
        let blanks := (c :: rest).takeWhile isSpaceOrTab
        let p := p.passMany blanks.length
        match p.passLineEnd? with
        | none => continueWith blanks p
        | some (first, p) => do
          let (more, p) ← readLineEnds start p.rest.length p
          continueWith (foldLineEnds first more) p
      else continueWith [c] p.pass

/-- A token that may be a key. -/
structure Candidate where
  level : Nat
  mark : Mark
  number : Nat
deriving DecidableEq, Repr

/-- How far a key may be away from its colon. -/
def keyLimit : Nat := 1024

/-- Whether a token is near enough to a place to be a key there. -/
def Candidate.isNear (mark : Mark) (k : Candidate) : Bool :=
  k.mark.line = mark.line && mark.index ≤ k.mark.index + keyLimit

structure Scanner where
  place : Place
  /-- How many tokens there have been. -/
  count : Nat
  /-- How many lists and records are open. -/
  level : Nat
  /-- Whether the next token may be a key. -/
  allowsKey : Bool
  candidates : List Candidate
deriving Repr

namespace Scanner

/-- A mark of the byte order may stand in front of all. -/
def start (cs : List Char) : Scanner :=
  let place : Place := ⟨cs, .start⟩
  ⟨if cs.head? = some '\ufeff' then place.pass else place, 0, 0, true, []⟩

def forget (level : Nat) (s : Scanner) : Scanner :=
  { s with candidates := s.candidates.filter fun k => k.level ≠ level }

/-- Keeps in mind that the next token may be a key. -/
def remember (s : Scanner) : Scanner :=
  if s.allowsKey then
    let s := s.forget s.level
    { s with candidates := ⟨s.level, s.place.mark, s.count⟩ :: s.candidates }
  else s

/-- Passes spaces and line ends. Outside of lists and records a key may begin on each line. -/
def skip (s : Scanner) : Scanner :=
  let blanks := s.place.rest.takeWhile fun c => c = ' ' || isLineEnd c
  let place := s.place.passMany blanks.length
  { s with
    place := place
    allowsKey := s.allowsKey || (s.level = 0 && blanks.any isLineEnd)
    candidates := s.candidates.filter (·.isNear place.mark) }

/-- The characters that end a word. -/
def endsWord (c : Char) : Bool :=
  isSpaceOrTab c || isLineEnd c || [',', ':', '[', ']', '\x7b', '\x7d', '"'].contains c

/-- The scanner after a token that ends at a place. -/
def after (s : Scanner) (place : Place) : Scanner :=
  { s with place := place, count := s.count + 1, allowsKey := false }

/-- The scanner after an opening brace or bracket. -/
def enter (s : Scanner) : Scanner :=
  let s := s.remember
  { s.after s.place.pass with level := s.level + 1, allowsKey := true }

/-- The scanner after a closing brace or bracket. -/
def leave (s : Scanner) : Scanner :=
  { (s.forget s.level).after s.place.pass with level := s.level - 1 }

/-- The next token after blanks, if there is one. -/
def next (s : Scanner) : Except TextFault (Option (Sign × Scanner)) :=
  match s.place.rest with
  | [] => .ok none
  | '[' :: _ => .ok (some (.openList, s.enter))
  | '\x7b' :: _ => .ok (some (.openRecord, s.enter))
  | ']' :: _ => .ok (some (.closeList, s.leave))
  | '\x7d' :: _ => .ok (some (.closeRecord, s.leave))
  | ',' :: _ =>
    .ok (some (.comma, { (s.forget s.level).after s.place.pass with allowsKey := true }))
  | ':' :: _ =>
    let hasKey := s.candidates.any fun k => k.level = s.level
    .ok (some (.colon hasKey, (s.forget s.level).after s.place.pass))
  | '"' :: rest =>
    (readQuoted s.place.mark (rest.length + 1) s.place.pass).map fun (cs, place) =>
      some (.quoted (String.ofList cs), s.remember.after place)
  | '\t' :: _ => .error (.tab s.place.mark)
  | cs =>
    let word := cs.takeWhile fun c => !endsWord c
    .ok (some (.word (String.ofList word), s.remember.after (s.place.passMany word.length)))

end Scanner

/-- The tokens of a text as far as they can be read. -/
structure Scan where
  tokens : List Token
  /-- Why no more tokens could be read, and the numbers of the tokens that were still waiting for a
  colon. -/
  fault : Option (TextFault × List Nat)
deriving Repr

def scanFrom : Nat → Scanner → Scan
  | 0, _ => ⟨[], none⟩
  | fuel + 1, s =>
    let waiting := (s.candidates.filter (·.isNear s.place.mark)).map Candidate.number
    let s := s.skip
    match s.next with
    | .error f => ⟨[], some (f, waiting)⟩
    | .ok none => ⟨[], none⟩
    | .ok (some (sign, s')) =>
      let scan := scanFrom fuel s'
      { scan with tokens := ⟨sign, s.place.mark, s.count⟩ :: scan.tokens }

def scan (s : String) : Scan := scanFrom (s.length + 1) (Scanner.start s.toList)

end CMakeDocs.Value
