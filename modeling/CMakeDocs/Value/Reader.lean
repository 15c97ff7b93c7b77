import CMakeDocs.Value
import CMakeDocs.Value.Token

/-!
# Reading configuration texts

A text is a value: a record in braces, a list in brackets, a text in quotes, or a word. A word is
one of `true`, `false` and `null`, a whole number, a number with a decimal point and maybe an
exponent with a sign, or else a text. A text with nothing in it stands for the null value. Where a
name stands twice in a record the last value counts.
-/
namespace CMakeDocs.Value

def isDigits (cs : List Char) : Bool := !cs.isEmpty && cs.all Char.isDigit

def toNat (digits : List Char) : Nat :=
  digits.foldl (fun n c => 10 * n + (c.toNat - '0'.toNat)) 0

/-- The exponent behind its letter; without a sign there is none. -/
def exponentOf? : List Char → Option Int
  | '+' :: digits => if isDigits digits then some (toNat digits) else none
  | '-' :: digits => if isDigits digits then some (-(toNat digits : Int)) else none
  | _ => none

/-- A number with a decimal point, without its sign. -/
def realOf? (negative : Bool) (cs : List Char) : Option Binary := do
  let whole := cs.takeWhile Char.isDigit
  let '.' :: behind := cs.drop whole.length | none
  let fraction := behind.takeWhile Char.isDigit
  let exponent ← match behind.drop fraction.length with
    | [] => some 0
    | 'e' :: rest | 'E' :: rest => exponentOf? rest
    | _ => none
  if whole.isEmpty then none
  else Binary.ofDecimal negative (toNat (whole ++ fraction)) (exponent - fraction.length)

/-- The value of a word. -/
def ofWord (word : String) : Value :=
  let cs := word.toList
  let negative := cs.head? = some '-'
  let digits := if negative then cs.drop 1 else cs
  if word = "true" then .bool true
  else if word = "false" then .bool false
  else if word = "null" then .null
  else if isDigits digits then .int (if negative then -(toNat digits : Int) else toNat digits)
  else
    match realOf? negative digits with
    | some b => .real b
    | none => .text word

/-- Why tokens are no value. -/
inductive Trouble where
  /-- There are no more tokens. -/
  | ended
  /-- A colon without a key, in a record that began at a place. -/
  | colon (start : Mark) (token : Token)
  | malformed
deriving Repr

mutual

/-- A value and the tokens after it. -/
def read : Nat → List Token → Except Trouble (Value × List Token)
  | 0, _ => .error .malformed
  | _, [] => .error .ended
  | fuel + 1, t :: rest =>
    match t.sign with
    | .quoted s => .ok (.text s, rest)
    | .word s => .ok (ofWord s, rest)
    | .openList =>
      match rest with
      | ⟨.closeList, _, _⟩ :: rest => .ok (.list [], rest)
      | rest => (readItems fuel rest).map fun (vs, rest) => (.list vs, rest)
    | .openRecord =>
      match rest with
      | ⟨.closeRecord, _, _⟩ :: rest => .ok (.record true [], rest)
      | rest => (readFields t.mark fuel [] rest).map fun (kvs, rest) => (.record true kvs, rest)
    | _ => .error .malformed

/-- The items of a list up to its closing bracket. -/
def readItems : Nat → List Token → Except Trouble (List Value × List Token)
  | 0, _ => .error .malformed
  | fuel + 1, tokens => do
    let (item, rest) ← read fuel tokens
    match rest with
    | [] => .error .ended
    | ⟨.closeList, _, _⟩ :: rest => .ok ([item], rest)
    | ⟨.comma, _, _⟩ :: rest =>
      let (more, rest) ← readItems fuel rest
      .ok (item :: more, rest)
    | _ => .error .malformed

/-- The fields of a record up to its closing brace. -/
def readFields (start : Mark) : Nat → List (String × Value) → List Token →
    Except Trouble (List (String × Value) × List Token)
  | 0, _, _ => .error .malformed
  | _, _, [] => .error .ended
  | fuel + 1, fields, ⟨.quoted key, _, _⟩ :: rest =>
    match rest with
    | [] => .error .ended
    | ⟨.colon true, _, _⟩ :: rest => do
      let (v, rest) ← read fuel rest
      let fields := setField fields key v
      match rest with
      | [] => .error .ended
      | ⟨.closeRecord, _, _⟩ :: rest => .ok (fields, rest)
      | ⟨.comma, _, _⟩ :: rest => readFields start fuel fields rest
      | _ => .error .malformed
    | ⟨.colon false, mark, number⟩ :: _ => .error (.colon start ⟨.colon false, mark, number⟩)
    | _ => .error .malformed
  | _, _, _ => .error .malformed

end

/-- Whether a character may stand in a text. -/
def isAllowed (c : Char) : Bool :=
  let n := c.toNat
  n = 0x09 || n = 0x0A || n = 0x0D || (0x20 ≤ n && n ≤ 0x7E) || n = 0x85 ||
    (0xA0 ≤ n && n ≤ 0xFFFD) || 0x10000 ≤ n

/-- The first character that may not stand in a text. -/
def forbidden? (s : String) : Option TextFault :=
  let before := (s.toList.takeWhile isAllowed).length
  (s.toList.drop before).head?.map fun c => .character c before

/-- The value that a text writes. The tokens are read only as far as they are needed: up to a colon
without a key, or further while a token up to it is still waiting for its colon. -/
def ofText (s : String) : Except TextFault Value :=
  match forbidden? s with
  | some f => .error f
  | none =>
    let scan := scan s
    if scan.tokens.isEmpty && scan.fault.isNone then .ok .null
    else
      match read (2 * scan.tokens.length + 2) scan.tokens, scan.fault with
      | .ok (v, []), none => .ok v
      | .error (.colon start token), some (f, waiting) =>
        if waiting.any (· ≤ token.number) then .error f else .error (.colon start token.mark)
      | .error (.colon start token), none => .error (.colon start token.mark)
      | .error .ended, some (f, _) | .ok (_, []), some (f, _) => .error f
      | _, _ => .error .malformed

/-- The name of a place in a file. -/
def placeText (path : String) (m : Mark) : String :=
  s!"  in \"{path}\", line {m.line + 1}, column {m.column + 1}"

/-- What is said about a fault in the text of a file. -/
def TextFault.message (path : String) : TextFault → String
  | character c index =>
    "unacceptable character #x" ++ String.ofList (Text.hexDigits 4 (Text.numberOfChar c)) ++
      s!": special characters are not allowed\n  in \"{path}\", position {index}"
  | tab m => s!"found tab character at line {m.line + 1}, column {m.column + 1}"
  | separator start m =>
    "while scanning a quoted scalar\n" ++ placeText path start ++
      "\nfound unexpected document separator\n" ++ placeText path m
  | colon start m =>
    "while parsing a flow mapping\n" ++ placeText path start ++
      "\nexpected ',' or '\x7d', but got ':'\n" ++ placeText path m
  | malformed => "malformed"

end CMakeDocs.Value
