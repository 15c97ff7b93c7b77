import CMakeDocs.Pattern
import CMakeDocs.Text.Identifier
import CMakeDocs.Text.Lines
import CMakeDocs.Text.Quoted

/-!
# Reading patterns

The written form has literals, `.`, sets in brackets, the classes `\d`, `\s`, `\w` and their
capitals, `^`, `$`, `*`, `+`, `?`, counts in braces, groups in parentheses and `|`. A `?` after a
repetition makes it lazy, a `+` possessive. Groups are numbered as they open, may have names, and
can be referred to once they are closed; a condition may ask for any of them. Flags hold for the
whole pattern if they stand in front of it, otherwise for a group. Alternatives that begin with the
same part share it, and alternatives of one character each are a set. A fault is reported with the
place where the faulty part begins.
-/
namespace CMakeDocs.Pattern

/-- What is wrong with the flags of a group. -/
inductive FlagFault where
  | unknown
  /-- Nothing that may follow the flags that are turned on. -/
  | noEnd
  | nothingOff
  /-- Nothing that may follow the flags that are turned off. -/
  | noBody
  | localeOn
  | mixedScripts
  | scriptOff
  | templateOn
  | templateOff
  | onAndOff
  | tooLate
deriving DecidableEq, Repr

def FlagFault.message : FlagFault → String
  | unknown => "unknown flag"
  | noEnd => "missing -, : or )"
  | nothingOff => "missing flag"
  | noBody => "missing :"
  | localeOn => "bad inline flags: cannot use 'L' flag with a str pattern"
  | mixedScripts => "bad inline flags: flags 'a', 'u' and 'L' are incompatible"
  | scriptOff => "bad inline flags: cannot turn off flags 'a', 'u' and 'L'"
  | templateOn => "bad inline flags: cannot turn on global flag"
  | templateOff => "bad inline flags: cannot turn off global flag"
  | onAndOff => "bad inline flags: flag turned on and off"
  | tooLate => "global flags not at the start of the expression"

/-- What a name is for. -/
inductive NameUse where
  | group
  | character
deriving DecidableEq, Repr

def NameUse.description : NameUse → String
  | group => "group name"
  | character => "character name"

inductive ErrorKind where
  | nothingToRepeat
  | multipleRepeat
  | unclosedGroup
  | unopenedGroup
  | unclosedSet
  | badRange (text : String)
  | badEscape (text : String)
  | loneBackslash
  | badCounts
  | unknownExtension (text : String)
  | unexpectedEnd
  | unclosedComment
  | incompleteEscape (text : String)
  | bigOctal (text : String)
  | unknownGroup (number : Nat)
  | openGroup
  /-- A group and a reference to it in the same condition on what stands before. -/
  | groupBehind
  | noName (use : NameUse)
  | unclosedName (closing : Char)
  | badName (name : String)
  | unknownName (name : String)
  | nameTaken (name : String) (number other : Nat)
  | groupZero
  | manyBranches
  | noCharName
  | unknownCharName (name : String)
  | flags (fault : FlagFault)
  /-- A count beyond all bounds, wherever it stands. -/
  | tooOften
  /-- Flags for ASCII and for all scripts, both for the whole pattern. -/
  | bothScripts
  /-- A condition on what stands before that does not say how far before. -/
  | looseWidth
  /-- A condition on what stands too far before. -/
  | farBehind
  /-- A repetition under the flag for templates. -/
  | inTemplate (effort : Effort)
deriving DecidableEq, Repr

structure Error where
  kind : ErrorKind
  offset : Nat
  /-- The written form of the pattern, for the line and column of a fault. -/
  source : String
deriving DecidableEq, Repr

namespace ErrorKind

def message : ErrorKind → String
  | nothingToRepeat => "nothing to repeat"
  | multipleRepeat => "multiple repeat"
  | unclosedGroup => "missing ), unterminated subpattern"
  | unopenedGroup => "unbalanced parenthesis"
  | unclosedSet => "unterminated character set"
  | badRange text => "bad character range " ++ text
  | badEscape text => "bad escape " ++ text
  | loneBackslash => "bad escape (end of pattern)"
  | badCounts => "min repeat greater than max repeat"
  | unknownExtension text => "unknown extension " ++ text
  | unexpectedEnd => "unexpected end of pattern"
  | unclosedComment => "missing ), unterminated comment"
  | incompleteEscape text => "incomplete escape " ++ text
  | bigOctal text => "octal escape value " ++ text ++ " outside of range 0-0o377"
  | unknownGroup number => s!"invalid group reference {number}"
  | openGroup => "cannot refer to an open group"
  | groupBehind => "cannot refer to group defined in the same lookbehind subpattern"
  | noName use => "missing " ++ use.description
  | unclosedName closing => "missing " ++ closing.toString ++ ", unterminated name"
  | badName name => "bad character in group name " ++ Text.quote name
  | unknownName name => "unknown group name " ++ Text.quote name
  | nameTaken name number other =>
    "redefinition of group name " ++ Text.quote name ++ s!" as group {number}; was group {other}"
  | groupZero => "bad group number"
  | manyBranches => "conditional backref with more than two branches"
  | noCharName => "missing \x7b"
  | unknownCharName name => "undefined character name " ++ Text.quote name
  | flags fault => fault.message
  | tooOften => "the repetition number is too large"
  | bothScripts => "ASCII and UNICODE flags are incompatible"
  | looseWidth => "look-behind requires fixed-width pattern"
  | farBehind => "looks too much behind"
  | inTemplate effort =>
    let name := match effort with
      | .greedy => "MAX_REPEAT"
      | .lazy => "MIN_REPEAT"
      | .possessive => "POSSESSIVE_REPEAT"
    "internal: unsupported template operator " ++ name

/-- Whether a fault is reported with its place. -/
def isPlaced : ErrorKind → Bool
  | tooOften | bothScripts | looseWidth | farBehind | inTemplate _ => false
  | _ => true

end ErrorKind

namespace Error

/-- A pattern of several lines also gets the line and column of its fault. -/
def message (e : Error) : String :=
  let text := s!"{e.kind.message} at position {e.offset}"
  let cs := e.source.toList
  if !e.kind.isPlaced then e.kind.message
  else if cs.contains '\n' then
    let before := cs.take e.offset
    let line := before.count '\n' + 1
    let column := (before.reverse.takeWhile (· ≠ '\n')).length + 1
    s!"{text} (line {line}, column {column})"
  else text

end Error

/-- A character of a written pattern, or a backslash with the character after it. -/
structure Mark where
  chars : List Char
  offset : Nat
deriving DecidableEq, Repr

/-- The marks of a written pattern. A backslash at the very end is a mark by itself. -/
def marks : Nat → List Char → List Mark
  | _, [] => []
  | n, '\\' :: c :: cs => ⟨['\\', c], n⟩ :: marks (n + 2) cs
  | n, c :: cs => ⟨[c], n⟩ :: marks (n + 1) cs

def Mark.is (m : Mark) (c : Char) : Bool := m.chars = [c]

/-- The least and the greatest length of a match, if there is one. -/
structure Width where
  least : Nat
  most : Option Nat
deriving DecidableEq, Repr

/-- A switch for how a pattern is meant. -/
inductive Flag where
  | ascii
  | ignoreCase
  | locale
  | multiline
  | dotAll
  | template
  | unicode
  | verbose
deriving DecidableEq, Repr

namespace Flag

def ofChar? : Char → Option Flag
  | 'a' => some ascii
  | 'i' => some ignoreCase
  | 'L' => some locale
  | 'm' => some multiline
  | 's' => some dotAll
  | 't' => some template
  | 'u' => some unicode
  | 'x' => some verbose
  | _ => none

/-- Whether a flag says which characters are letters. -/
def isScript : Flag → Bool
  | ascii | locale | unicode => true
  | _ => false

/-- The flags inside a group that turns some on and others off. -/
def changed (flags added removed : List Flag) : List Flag :=
  let kept := if added.any isScript then flags.filter (!·.isScript) else flags
  (added ++ kept).filter (!removed.contains ·)

end Flag

/-- What is left to read, and what is known of the groups so far. -/
structure Rest where
  marks : List Mark
  /-- The offset behind the last mark. -/
  finish : Nat
  /-- How many groups have been opened. -/
  groups : Nat
  /-- The groups that are closed. -/
  closed : List (Nat × Width)
  names : List (String × Nat)
  /-- How many groups there were before the conditions on what stands before, inside of one. -/
  behind : Option Nat
  /-- The numbers of groups that conditions have asked for, each with the place of the first one. -/
  asked : List (Nat × Nat)
  /-- The flags that are turned on. -/
  flags : List Flag
  /-- The number of the character with a name. -/
  named : String → Option Nat

abbrev Read (α : Type) := Except (ErrorKind × Nat) α

namespace Rest

/-- The offset of the next mark. -/
def offset (r : Rest) : Nat := (r.marks.head?.map Mark.offset).getD r.finish

/-- A lone backslash is a fault as soon as it comes next. -/
def check (r : Rest) : Read Rest :=
  match r.marks with
  | m :: _ => if m.is '\\' then .error (.loneBackslash, m.offset) else .ok r
  | [] => .ok r

/-- Takes the next mark. -/
def next (r : Rest) : Read (Option (Mark × Rest)) :=
  match r.marks with
  | [] => .ok none
  | m :: ms => do
    let rest ← ({ r with marks := ms } : Rest).check
    return some (m, rest)

def mode (r : Rest) : LetterMode :=
  if !r.flags.contains .ignoreCase then .exact
  else if r.flags.contains .ascii then .ascii
  else .folded

def isAscii (r : Rest) : Bool := r.flags.contains .ascii

def startsWith (r : Rest) (c : Char) : Bool := (r.marks.head?.map (·.is c)).getD false

/-- Takes the next mark if it is the given character. -/
def accept (r : Rest) (c : Char) : Read (Option Rest) := do
  if r.startsWith c then
    match ← r.next with
    | some (_, rest) => return some rest
    | none => return none
  else return none

/-- Takes up to `n` characters of a class. -/
def takeWhile (p : Char → Bool) : Nat → Rest → Read (List Char × Rest)
  | 0, r => .ok ([], r)
  | n + 1, r =>
    match r.marks with
    | ⟨[c], _⟩ :: _ =>
      if p c then do
        match ← r.next with
        | some (_, rest) =>
          let (more, rest) ← takeWhile p n rest
          return (c :: more, rest)
        | none => return ([], r)
      else .ok ([], r)
    | _ => .ok ([], r)

end Rest

def literal (mode : LetterMode) (c : Char) : Pattern := .charSet mode false [.char c]

/-- The class that an escape stands for. -/
def classOf? (ascii : Bool) : Char → Option CharItem
  | 'd' => some (.ofClass .digit ascii false)
  | 'D' => some (.ofClass .digit ascii true)
  | 's' => some (.ofClass .blank ascii false)
  | 'S' => some (.ofClass .blank ascii true)
  | 'w' => some (.ofClass .word ascii false)
  | 'W' => some (.ofClass .word ascii true)
  | _ => none

/-- The character that an escape stands for. -/
def charOf? : Char → Option Char
  | 'a' => some '\x07'
  | 'f' => some '\x0c'
  | 'n' => some '\n'
  | 'r' => some '\r'
  | 't' => some '\t'
  | 'v' => some '\x0b'
  | c => if c.isAlphanum then none else some c

def isHexDigit (c : Char) : Bool := c.isDigit || ('a' ≤ c && c ≤ 'f') || ('A' ≤ c && c ≤ 'F')

def isOctalDigit (c : Char) : Bool := '0' ≤ c && c ≤ '7'

/-- The number of some digits to a base. -/
def numberOf (base : Nat) (cs : List Char) : Nat :=
  cs.foldl (fun n c =>
    base * n + (if c.isDigit then c.toNat - '0'.toNat else c.toLower.toNat - 'a'.toNat + 10)) 0

/-- How many digits the number of a character has after each letter that can stand before it. -/
def hexLength? : Char → Option Nat
  | 'x' => some 2
  | 'u' => some 4
  | 'U' => some 8
  | _ => none

/-- The character of a number in hexadecimal digits, of which there have to be `n`. -/
def readHex (c : Char) (n : Nat) (r : Rest) : Read (Char × Rest) := do
  let (digits, rest) ← r.takeWhile isHexDigit n
  let text := '\\' :: c :: digits
  if digits.length < n then
    .error (.incompleteEscape (String.ofList text), rest.offset - text.length)
  else if 0x110000 ≤ numberOf 16 digits then
    .error (.badEscape (String.ofList text), rest.offset - text.length)
  else return (Text.charOfNumber (numberOf 16 digits), rest)

/-- A name up to its closing character. -/
def readName (use : NameUse) (closing : Char) : Nat → List Char → Rest → Read (List Char × Rest)
  | 0, _, r => .error (.noName use, r.offset)
  | fuel + 1, name, r => do
    match ← r.next with
    | none =>
      if name.isEmpty then .error (.noName use, r.offset)
      else .error (.unclosedName closing, r.offset - name.length)
    | some (m, rest) =>
      if m.is closing then
        if name.isEmpty then .error (.noName use, rest.offset - 1) else return (name, rest)
      else readName use closing fuel (name ++ m.chars) rest

/-- The character of a name in braces. -/
def readCharName (r : Rest) : Read (Char × Rest) := do
  match ← r.accept '\x7b' with
  | none => .error (.noCharName, r.offset)
  | some rest =>
    let (name, rest) ← readName .character '\x7d' (rest.marks.length + 1) [] rest
    match rest.named (String.ofList name) with
    | some n => return (Char.ofNat n, rest)
    | none =>
      if name.all Text.isEncodable then
        .error (.unknownCharName (String.ofList name), rest.offset - (name.length + 4))
      else .error (.badEscape "\\N", rest.offset - 2)

/-- The character of a number in octal digits. -/
def octalChar (digits : List Char) (r : Rest) : Read (Char × Rest) :=
  let text := '\\' :: digits
  if 0o377 < numberOf 8 digits then
    .error (.bigOctal (String.ofList text), r.offset - text.length)
  else .ok (Char.ofNat (numberOf 8 digits), r)

/-- A reference to a group that has been closed, written in `length` characters. -/
def refer (number length : Nat) (r : Rest) : Read Pattern :=
  match r.closed.lookup number, r.behind with
  | none, _ => .error (.openGroup, r.offset - length)
  | some _, some bound =>
    if bound < number then .error (.groupBehind, r.offset) else .ok (.reference r.mode number)
  | some _, none => .ok (.reference r.mode number)

/-- A reference to the group of a number, or the character of three octal digits. -/
def readNumber (first : Char) (r : Rest) : Read (Pattern × Rest) := do
  let (second, rest) ← r.takeWhile Char.isDigit 1
  let octal := isOctalDigit first && !second.isEmpty && second.all isOctalDigit
  let (third, rest) ← rest.takeWhile isOctalDigit (if octal then 1 else 0)
  let digits := first :: second ++ third
  if !third.isEmpty then
    let (c, rest) ← octalChar digits rest
    return (literal r.mode c, rest)
  else
    let number := numberOf 10 digits
    if rest.groups < number then
      .error (.unknownGroup number, rest.offset - digits.length)
    else return (← refer number (digits.length + 1) rest, rest)

/-- The pattern of an escape outside a set, whose mark is taken. -/
def readEscape (c : Char) (offset : Nat) (r : Rest) : Read (Pattern × Rest) :=
  match classOf? r.isAscii c, charOf? c, c with
  | some item, _, _ => .ok (.charSet r.mode false [item], r)
  | none, some x, _ => .ok (literal r.mode x, r)
  | none, none, 'A' => .ok (.atStart false, r)
  | none, none, 'Z' => .ok (.atEnd .ofText, r)
  | none, none, 'b' => .ok (.wordEdge r.isAscii false, r)
  | none, none, 'B' => .ok (.wordEdge r.isAscii true, r)
  | none, none, 'N' => do
    let (x, rest) ← readCharName r
    return (literal r.mode x, rest)
  | none, none, '0' => do
    let (digits, rest) ← r.takeWhile isOctalDigit 2
    return (literal r.mode (Char.ofNat (numberOf 8 digits)), rest)
  | none, none, c => do
    match hexLength? c with
    | some n =>
      let (x, rest) ← readHex c n r
      return (literal r.mode x, rest)
    | none =>
      if c.isDigit then readNumber c r
      else .error (.badEscape (String.ofList ['\\', c]), offset)

/-- One member of a set, whose mark is taken: a class, or a character. -/
def setMember (m : Mark) (r : Rest) : Read ((CharItem ⊕ Char) × Rest) :=
  match m.chars with
  | ['\\', c] =>
    match classOf? r.isAscii c, charOf? c, hexLength? c with
    | some item, _, _ => .ok (.inl item, r)
    | none, some x, _ => .ok (.inr x, r)
    | none, none, some n => do
      let (x, rest) ← readHex c n r
      return (.inr x, rest)
    | none, none, none => do
      if c = 'b' then return (.inr '\x08', r)
      else if c = 'N' then
        let (x, rest) ← readCharName r
        return (.inr x, rest)
      else if isOctalDigit c then
        let (digits, rest) ← r.takeWhile isOctalDigit 2
        let (x, rest) ← octalChar (c :: digits) rest
        return (.inr x, rest)
      else .error (.badEscape (String.ofList ['\\', c]), m.offset)
  | [c] => .ok (.inr c, r)
  | _ => .ok (.inr ' ', r)

def memberItem : CharItem ⊕ Char → CharItem
  | .inl item => item
  | .inr c => .char c

/-- The members of a set up to its closing bracket. -/
def setItems (opening : Nat) : Nat → Bool → Rest → Read (List CharItem × Rest)
  | 0, _, _ => .error (.unclosedSet, opening)
  | fuel + 1, isFirst, r => do
    match ← r.next with
    | none => .error (.unclosedSet, opening)
    | some (m, rest) =>
      if m.is ']' && !isFirst then return ([], rest)
      else
        let (low, rest) ← setMember m rest
        match ← rest.accept '-' with
        | none =>
          let (items, rest) ← setItems opening fuel false rest
          return (memberItem low :: items, rest)
        | some afterDash =>
          match ← afterDash.next with
          | none => .error (.unclosedSet, opening)
          | some (n, rest) =>
            if n.is ']' then return ([memberItem low, .char '-'], rest)
            else
              let (high, rest) ← setMember n rest
              let text := m.chars ++ '-' :: n.chars
              let bad : ErrorKind × Nat :=
                (.badRange (String.ofList text), rest.offset - text.length)
              match low, high with
              | .inr a, .inr b =>
                let (a, b) := (Text.numberOfChar a, Text.numberOfChar b)
                if b < a then .error bad
                else
                  let (items, rest) ← setItems opening fuel false rest
                  return (.range a b :: items, rest)
              | _, _ => .error bad

/-- A set, its opening bracket taken. -/
def readSet (opening : Nat) (r : Rest) : Read (Pattern × Rest) := do
  let (negated, rest) ← (do
    match ← r.accept '^' with
    | some rest => return (true, rest)
    | none => return (false, r) : Read (Bool × Rest))
  let (items, rest) ← setItems opening (rest.marks.length + 1) true rest
  return (.charSet r.mode negated items.eraseDups, rest)

/-- How often something is repeated: at least, and at most. -/
abbrev Counts := Nat × Option Nat

/-- The least number of times that is too often. -/
def countLimit : Nat := 4294967295

/-- The counts after an opening brace, or `none` if the brace is a literal. -/
def readCounts (behind : Nat) (r : Rest) : Read (Option (Counts × Rest)) := do
  if r.startsWith '\x7d' then return none
  let fuel := r.marks.length + 1
  let (low, rest) ← r.takeWhile Char.isDigit fuel
  let (high, rest) ← (do
    match ← rest.accept ',' with
    | some rest => rest.takeWhile Char.isDigit fuel
    | none => return (low, rest) : Read (List Char × Rest))
  match ← rest.accept '\x7d' with
  | none => return none
  | some rest =>
    let least := numberOf 10 low
    let most := numberOf 10 high
    if countLimit ≤ least || countLimit ≤ most then .error (.tooOften, behind)
    else if high.isEmpty then return some ((least, none), rest)
    else if most < least then .error (.badCounts, behind)
    else return some ((least, some most), rest)

/-- A part of a row: one pattern, or those of a group that only holds them together. -/
structure Part where
  patterns : List Pattern
  isGroup : Bool
deriving Repr

def Part.one (p : Pattern) : Part := ⟨[p], false⟩

/-- The pattern of some patterns in a row. -/
def inRow : List Pattern → Pattern
  | [] => .empty
  | [p] => p
  | p :: ps => .seq p (inRow ps)

/-- The last part of a row as something that can be repeated, given the offset of the mark that
repeats it. -/
def checkRepeatable (offset : Nat) : List Part → Read Pattern
  | [] => .error (.nothingToRepeat, offset)
  | part :: _ =>
    match part.isGroup, part.patterns with
    | false, [.atStart _] | false, [.atEnd _] | false, [.wordEdge _ _] =>
      .error (.nothingToRepeat, offset)
    | false, [.repeated _ _ _ _ _] => .error (.multipleRepeat, offset)
    | _, ps => .ok (inRow ps)

/-- Whether two patterns without parts are the same. -/
def isSamePart (p q : Pattern) : Bool :=
  match p with
  | .anyChar _ | .charSet _ _ _ | .atStart _ | .atEnd _ | .wordEdge _ _ | .reference _ _ => p == q
  | _ => false

/-- The patterns that all rows begin with, and what is left of the rows. -/
def sharedParts : List Pattern → List (List Pattern) → List Pattern × List (List Pattern)
  | [], others => ([], [] :: others)
  | p :: first, others =>
    if others.all fun row => (row.head?.map (isSamePart p)).getD false then
      let (shared, rows) := sharedParts first (others.map List.tail)
      (p :: shared, rows)
    else ([], (p :: first) :: others)

/-- The entries of a set that is not negated. -/
def itemsOf? : List Pattern → Option (List CharItem)
  | [.charSet _ false items] => some items
  | _ => none

/-- The alternatives that are left once they begin differently. -/
def choice (mode : LetterMode) (rows : List (List Pattern)) : Pattern :=
  match rows.mapM itemsOf? with
  | some items => .charSet mode false items.flatten.eraseDups
  | none =>
    match rows.map inRow with
    | [] => .empty
    | p :: ps => (p :: ps).dropLast.foldr .alt ((p :: ps).getLast (List.cons_ne_nil p ps))

/-- The patterns of some alternatives, given how their letters are compared. -/
def joined (mode : LetterMode) : List (List Pattern) → List Pattern
  | [] => []
  | [row] => row
  | row :: others =>
    let (shared, rows) := sharedParts row others
    shared ++ [choice mode rows]

namespace Width

def add (v w : Width) : Width :=
  ⟨v.least + w.least, v.most.bind fun m => w.most.map (m + ·)⟩

/-- The width of either of two parts. -/
def union (v w : Width) : Width :=
  ⟨min v.least w.least, v.most.bind fun m => w.most.map (max m ·)⟩

def times (least : Nat) (most : Option Nat) (w : Width) : Width :=
  ⟨least * w.least,
    if w.most = some 0 || most = some 0 then some 0
    else most.bind fun n => w.most.map (n * ·)⟩

end Width

/-- The width of a pattern, given those of the groups that it refers to. -/
def width (closed : List (Nat × Width)) : Pattern → Width
  | .empty | .atStart _ | .atEnd _ | .wordEdge _ _ | .look _ _ _ => ⟨0, some 0⟩
  | .anyChar _ | .charSet _ _ _ => ⟨1, some 1⟩
  | .seq p q => (width closed p).add (width closed q)
  | .alt p q => (width closed p).union (width closed q)
  | .repeated _ least most _ p => (width closed p).times least most
  | .group _ p | .atomic p => width closed p
  | .reference _ n => (closed.lookup n).getD ⟨0, some 0⟩
  | .conditional _ yes no => (width closed yes).union (width closed no)

/-- Skips a comment, whose group began at an offset. -/
def skipComment (opening : Nat) : Nat → Rest → Read Rest
  | 0, r => .error (.unclosedComment, r.offset)
  | fuel + 1, r => do
    match ← r.next with
    | none => .error (.unclosedComment, opening)
    | some (m, rest) => if m.is ')' then return rest else skipComment opening fuel rest

/-- Skips a line of a pattern that is written with blanks. -/
def skipLine : Nat → Rest → Read Rest
  | 0, r => .ok r
  | fuel + 1, r => do
    match ← r.next with
    | none => return r
    | some (m, rest) => if m.is '\n' then return rest else skipLine fuel rest

/-- What an opening parenthesis begins. -/
inductive Opening where
  | group (number : Nat)
  /-- A group that only holds its parts together. -/
  | plain
  /-- A group with flags of its own. -/
  | flagged (added removed : List Flag)
  | atomic
  | look (negated behind : Bool)
  | conditional (number : Nat)
  /-- Flags for the whole pattern. -/
  | flags (added : List Flag)
  /-- Something that is complete already. -/
  | done (p : Option Pattern)
deriving Repr

/-- Opens a group, which may have a name. -/
def openGroup (name : Option String) (r : Rest) : Read (Opening × Rest) :=
  let number := r.groups + 1
  let opened := { r with groups := number }
  match name with
  | none => .ok (.group number, opened)
  | some name =>
    match r.names.lookup name with
    | some other => .error (.nameTaken name number other, r.offset - (name.length + 1))
    | none => .ok (.group number, { opened with names := (name, number) :: r.names })

/-- The name of a group up to its closing character. -/
def readGroupName (closing : Char) (r : Rest) : Read (List Char × Rest) := do
  let (name, rest) ← readName .group closing (r.marks.length + 1) [] r
  if Text.isName name then return (name, rest)
  else .error (.badName (String.ofList name), rest.offset - (name.length + 1))

/-- What follows `(?P`. -/
def readNamed (opening : Nat) (r : Rest) : Read (Opening × Rest) := do
  match ← r.accept '<', ← r.accept '=' with
  | some rest, _ =>
    let (name, rest) ← readGroupName '>' rest
    openGroup (some (String.ofList name)) rest
  | none, some rest =>
    let (name, rest) ← readGroupName ')' rest
    match rest.names.lookup (String.ofList name) with
    | none => .error (.unknownName (String.ofList name), rest.offset - (name.length + 1))
    | some number => return (.done (some (← refer number (name.length + 1) rest)), rest)
  | none, none =>
    match ← r.next with
    | none => .error (.unexpectedEnd, r.offset)
    | some (m, _) => .error (.unknownExtension (String.ofList ('?' :: 'P' :: m.chars)), opening + 1)

/-- What follows `(?<`. -/
def readBehind (opening : Nat) (r : Rest) : Read (Opening × Rest) := do
  match ← r.next with
  | none => .error (.unexpectedEnd, r.offset)
  | some (m, rest) =>
    if m.is '=' then return (.look false true, rest)
    else if m.is '!' then return (.look true true, rest)
    else .error (.unknownExtension (String.ofList ('?' :: '<' :: m.chars)), opening + 1)

/-- The value of a decimal digit of some script. -/
def digitValue? (c : Char) : Option Nat :=
  (Text.digitRanges.find? fun r => r.1 ≤ c.toNat && c.toNat ≤ r.2).map fun r =>
    (c.toNat - r.1) % 10

/-- Whether a character may stand around a number. -/
def isMargin (c : Char) : Bool :=
  if c.toNat < 0x80 then [' ', '\t', '\n', '\r', '\x0b', '\x0c'].contains c else Text.isBlank c

/-- The digits of a number, of which single underscores may stand between two. -/
def digitsOf? : List Char → Option (List Nat)
  | [] => none
  | [c] => (digitValue? c).map ([·])
  | c :: '_' :: cs => do return (← digitValue? c) :: (← digitsOf? cs)
  | c :: cs => do return (← digitValue? c) :: (← digitsOf? cs)

/-- The greatest number of digits of a number. -/
def digitLimit : Nat := 4300

/-- The number that a text stands for, with blanks around it and a sign. -/
def numberText? (cs : List Char) : Option Nat :=
  let cs := Text.dropEnd isMargin (cs.dropWhile isMargin)
  let (negative, digits) := match cs with
    | '-' :: digits => (true, digits)
    | '+' :: digits => (false, digits)
    | digits => (false, digits)
  match digitsOf? digits with
  | none => none
  | some values =>
    let n := values.foldl (fun n d => 10 * n + d) 0
    if digitLimit < values.length || (negative && n ≠ 0) then none else some n

/-- The least number that is too great for a group. -/
def groupLimit : Nat := 1073741823

/-- The group that a condition asks for, by its name or its number. -/
def readCondition (r : Rest) : Read (Opening × Rest) := do
  let (name, rest) ← readName .group ')' (r.marks.length + 1) [] r
  let place := rest.offset - (name.length + 1)
  let (number, rest) ← (do
    if Text.isName name then
      match rest.names.lookup (String.ofList name) with
      | none => .error (.unknownName (String.ofList name), place)
      | some number => return (number, rest)
    else
      match numberText? name with
      | none => .error (.badName (String.ofList name), place)
      | some number =>
        if number = 0 then .error (.groupZero, place)
        else if groupLimit ≤ number then .error (.unknownGroup number, place)
        else if (rest.asked.lookup number).isSome then return (number, rest)
        else return (number, { rest with asked := rest.asked ++ [(number, place)] })
    : Read (Nat × Rest))
  match rest.behind with
  | none => return (.conditional number, rest)
  | some bound =>
    if (rest.closed.lookup number).isNone then .error (.openGroup, rest.offset)
    else if bound < number then .error (.groupBehind, rest.offset)
    else return (.conditional number, rest)

/-- What is wrong with a mark where a flag was expected or something else. -/
def notAFlag (fault : FlagFault) (m : Mark) (r : Rest) : ErrorKind × Nat :=
  let isLetter := match m.chars with
    | [c] => Text.isLetter c
    | _ => false
  (.flags (if isLetter then .unknown else fault), r.offset - m.chars.length)

/-- The flags that are turned on, from the one that is taken on, and the character that ends
them. -/
def readAdded : Nat → Flag → List Flag → Rest → Read (List Flag × Char × Rest)
  | 0, _, _, r => .error (.flags .noEnd, r.offset)
  | fuel + 1, flag, others, r => do
    let added := flag :: others
    if flag = .locale then .error (.flags .localeOn, r.offset)
    else if flag.isScript && others.any (fun f => f.isScript && f ≠ flag) then
      .error (.flags .mixedScripts, r.offset)
    else
      match ← r.next with
      | none => .error (.flags .noEnd, r.offset)
      | some (m, rest) =>
        match m.chars with
        | [')'] => return (added, ')', rest)
        | ['-'] => return (added, '-', rest)
        | [':'] => return (added, ':', rest)
        | [c] =>
          match Flag.ofChar? c with
          | some next => readAdded fuel next added rest
          | none => .error (notAFlag .noEnd m rest)
        | _ => .error (notAFlag .noEnd m rest)

/-- The flags that are turned off, from the one that is taken on, up to a colon. -/
def readRemoved : Nat → Flag → List Flag → Rest → Read (List Flag × Rest)
  | 0, _, _, r => .error (.flags .noBody, r.offset)
  | fuel + 1, flag, others, r => do
    if flag.isScript then .error (.flags .scriptOff, r.offset)
    else
      match ← r.next with
      | none => .error (.flags .noBody, r.offset)
      | some (m, rest) =>
        match m.chars with
        | [':'] => return (flag :: others, rest)
        | [c] =>
          match Flag.ofChar? c with
          | some next => readRemoved fuel next (flag :: others) rest
          | none => .error (notAFlag .noBody m rest)
        | _ => .error (notAFlag .noBody m rest)

/-- The flags that a minus turns off. -/
def readOff (r : Rest) : Read (List Flag × Rest) := do
  match ← r.next with
  | none => .error (.flags .nothingOff, r.offset)
  | some (m, rest) =>
    match m.chars with
    | [c] =>
      match Flag.ofChar? c with
      | some flag => readRemoved (rest.marks.length + 1) flag [] rest
      | none => .error (notAFlag .nothingOff m rest)
    | _ => .error (notAFlag .nothingOff m rest)

/-- What flags begin, the first of which is taken unless a minus stands in its place. -/
def readFlags (first : Option Flag) (r : Rest) : Read (Opening × Rest) := do
  let (added, stop, rest) ← (match first with
    | some flag => readAdded (r.marks.length + 1) flag [] r
    | none => return ([], '-', r) : Read (List Flag × Char × Rest))
  if stop = ')' then return (.flags added, rest)
  else if added.contains .template then .error (.flags .templateOn, rest.offset - 1)
  else
    let (removed, rest) ← (if stop = '-' then readOff rest else return ([], rest))
    if removed.contains .template then .error (.flags .templateOff, rest.offset - 1)
    else if added.any removed.contains then .error (.flags .onAndOff, rest.offset - 1)
    else return (.flagged added removed, rest)

/-- What an opening parenthesis at an offset begins. -/
def readOpening (opening : Nat) (r : Rest) : Read (Opening × Rest) := do
  match ← r.accept '?' with
  | none => openGroup none r
  | some rest =>
    match ← rest.next with
    | none => .error (.unexpectedEnd, rest.offset)
    | some (m, rest) =>
      match m.chars with
      | ['P'] => readNamed opening rest
      | [':'] => return (.plain, rest)
      | ['>'] => return (.atomic, rest)
      | ['='] => return (.look false false, rest)
      | ['!'] => return (.look true false, rest)
      | ['<'] => readBehind opening rest
      | ['#'] => return (.done none, ← skipComment opening (rest.marks.length + 1) rest)
      | ['('] => readCondition rest
      | ['-'] => readFlags none rest
      | chars =>
        match chars.head?.bind Flag.ofChar?, chars.length with
        | some flag, 1 => readFlags (some flag) rest
        | _, _ => .error (.unknownExtension (String.ofList ('?' :: chars)), opening + 1)

/-- What is known inside of what was opened. -/
def Opening.inside (r : Rest) : Opening → Rest
  | look _ true => { r with behind := r.behind.or (some r.groups) }
  | flagged added removed => { r with flags := Flag.changed r.flags added removed }
  | _ => r

/-- The part that was opened, given its patterns, and what is known after it is closed. -/
def Opening.close (ps : List Pattern) (r : Rest) : Opening → Part × Rest
  | group number =>
    (.one (.group (some number) (inRow ps)),
      { r with closed := (number, width r.closed (inRow ps)) :: r.closed })
  | plain => (⟨ps, true⟩, r)
  | flagged _ _ => (.one (.group none (inRow ps)), r)
  | atomic => (.one (.atomic (inRow ps)), r)
  | look negated behind =>
    let back := if behind then some (width r.closed (inRow ps)).least else none
    (.one (.look negated back (inRow ps)), r)
  | conditional _ | flags _ | done _ => (⟨ps, true⟩, r)

/-- The blanks that are skipped in a pattern that is written with blanks. -/
def Mark.isBlank (m : Mark) : Bool :=
  match m.chars with
  | [c] => [' ', '\t', '\n', '\r', '\x0b', '\x0c'].contains c
  | _ => false

mutual

/-- Alternatives, up to a closing parenthesis or the end. Flags for the whole pattern may stand at
the start only. -/
def readAlternatives : Nat → Bool → Rest → Read (List (List Pattern) × Rest)
  | 0, _, r => .ok ([], r)
  | fuel + 1, isStart, r => do
    let (first, rest) ← readRow fuel isStart [] r
    match ← rest.accept '|' with
    | none => return ([first], rest)
    | some rest =>
      let (others, rest) ← readAlternatives fuel false rest
      return (first :: others, rest)
termination_by structural fuel => fuel

/-- Parts in a row, after some that are read already, the last one first. -/
def readRow : Nat → Bool → List Part → Rest → Read (List Pattern × Rest)
  | 0, _, parts, r => .ok (parts.reverse.flatMap Part.patterns, r)
  | fuel + 1, isStart, parts, r => do
    if r.startsWith '|' || r.startsWith ')' then
      return (parts.reverse.flatMap Part.patterns, r)
    match ← r.next with
    | none => return (parts.reverse.flatMap Part.patterns, r)
    | some (m, rest) =>
      if r.flags.contains .verbose && m.isBlank then readRow fuel isStart parts rest
      else if r.flags.contains .verbose && m.is '#' then
        readRow fuel isStart parts (← skipLine (rest.marks.length + 1) rest)
      else
        match m.chars with
        | ['\\', c] =>
          let (p, rest) ← readEscape c m.offset rest
          readRow fuel isStart (.one p :: parts) rest
        | ['.'] => readRow fuel isStart (.one (.anyChar (r.flags.contains .dotAll)) :: parts) rest
        | ['^'] =>
          readRow fuel isStart (.one (.atStart (r.flags.contains .multiline)) :: parts) rest
        | ['$'] =>
          let kind := if r.flags.contains .multiline then .ofAnyLine else .ofLastLine
          readRow fuel isStart (.one (.atEnd kind) :: parts) rest
        | ['['] =>
          let (set, rest) ← readSet m.offset rest
          readRow fuel isStart (.one set :: parts) rest
        | ['('] =>
          let (opening, rest) ← readOpening m.offset rest
          match opening with
          | .done none => readRow fuel isStart parts rest
          | .done (some p) => readRow fuel isStart (.one p :: parts) rest
          | .flags added =>
            if isStart && parts.isEmpty then
              readRow fuel isStart parts { rest with flags := added ++ rest.flags }
            else .error (.flags .tooLate, m.offset)
          | .conditional number =>
            let (p, rest) ← readCases fuel m.offset number rest
            readRow fuel isStart (.one p :: parts) rest
          | opening =>
            let (part, rest) ← readBody fuel m.offset opening rest
            readRow fuel isStart (part :: parts) rest
        | ['*'] => readRepeated fuel isStart m.offset (0, none) parts rest
        | ['+'] => readRepeated fuel isStart m.offset (1, none) parts rest
        | ['?'] => readRepeated fuel isStart m.offset (0, some 1) parts rest
        | ['\x7b'] =>
          match ← readCounts rest.offset rest with
          | none => readRow fuel isStart (.one (literal r.mode '\x7b') :: parts) rest
          | some (counts, rest) => readRepeated fuel isStart m.offset counts parts rest
        | c :: _ => readRow fuel isStart (.one (literal r.mode c) :: parts) rest
        | [] => readRow fuel isStart parts rest
termination_by structural fuel => fuel

/-- The repetition of the last part. -/
def readRepeated :
    Nat → Bool → Nat → Counts → List Part → Rest → Read (List Pattern × Rest)
  | 0, _, _, _, parts, r => .ok (parts.reverse.flatMap Part.patterns, r)
  | fuel + 1, isStart, offset, counts, parts, r => do
    let body ← checkRepeatable offset parts
    let (effort, rest) ← (do
      match ← r.accept '?', ← r.accept '+' with
      | some rest, _ => return (.lazy, rest)
      | none, some rest => return (.possessive, rest)
      | none, none => return (.greedy, r) : Read (Effort × Rest))
    let p := .repeated offset counts.1 counts.2 effort body
    readRow fuel isStart (.one p :: parts.drop 1) rest
termination_by structural fuel => fuel

/-- The body of what an opening parenthesis began, up to the closing one. -/
def readBody : Nat → Nat → Opening → Rest → Read (Part × Rest)
  | 0, start, _, _ => .error (.unclosedGroup, start)
  | fuel + 1, start, opening, r => do
    let inside := opening.inside r
    let (rows, rest) ← readAlternatives fuel false inside
    match ← rest.accept ')' with
    | some rest =>
      let after := { rest with behind := r.behind, flags := r.flags }
      return opening.close (joined inside.mode rows) after
    | none => .error (.unclosedGroup, start)
termination_by structural fuel => fuel

/-- The two cases of a condition, up to the closing parenthesis; the second may be missing. -/
def readCases : Nat → Nat → Nat → Rest → Read (Pattern × Rest)
  | 0, start, _, _ => .error (.unclosedGroup, start)
  | fuel + 1, start, number, r => do
    let (yes, rest) ← readRow fuel false [] r
    let (no, rest) ← (do
      match ← rest.accept '|' with
      | none => return ([], rest)
      | some rest =>
        let (no, rest) ← readRow fuel false [] rest
        if rest.startsWith '|' then .error (.manyBranches, rest.offset) else return (no, rest)
      : Read (List Pattern × Rest))
    match ← rest.accept ')' with
    | some rest => return (.conditional number (inRow yes) (inRow no), rest)
    | none => .error (.unclosedGroup, start)
termination_by structural fuel => fuel

end

/-- The numbers of the groups that a pattern refers to. -/
def numbersUsed : Pattern → List Nat
  | .seq p q | .alt p q => numbersUsed p ++ numbersUsed q
  | .conditional n p q => n :: (numbersUsed p ++ numbersUsed q)
  | .repeated _ _ _ _ p | .group _ p | .atomic p | .look _ _ p => numbersUsed p
  | .reference _ n => [n]
  | .empty | .anyChar _ | .charSet _ _ _ | .atStart _ | .atEnd _ | .wordEdge _ _ => []

/-- The pattern with no other group noted than those of the given numbers. -/
def withNumbers (used : List Nat) : Pattern → Pattern
  | .seq p q => .seq (withNumbers used p) (withNumbers used q)
  | .alt p q => .alt (withNumbers used p) (withNumbers used q)
  | .conditional n p q => .conditional n (withNumbers used p) (withNumbers used q)
  | .repeated site least most effort p => .repeated site least most effort (withNumbers used p)
  | .group number p => .group (number.filter used.contains) (withNumbers used p)
  | .atomic p => .atomic (withNumbers used p)
  | .look negated back p => .look negated back (withNumbers used p)
  | p => p

/-- The farthest that a condition may look behind. -/
def backLimit : Nat := 4294967295

/-- Why a pattern cannot be put to use, given the widths of its groups. -/
def fault? (isTemplate : Bool) (closed : List (Nat × Width)) : Pattern → Option ErrorKind
  | .seq p q | .alt p q | .conditional _ p q =>
    (fault? isTemplate closed p).or (fault? isTemplate closed q)
  | .repeated _ _ _ effort p =>
    if isTemplate then some (.inTemplate effort) else fault? isTemplate closed p
  | .group _ p | .atomic p => fault? isTemplate closed p
  | .look _ none p => fault? isTemplate closed p
  | .look _ (some least) p =>
    if backLimit < least then some .farBehind
    else if (width closed p).most ≠ some least then some .looseWidth
    else fault? isTemplate closed p
  | .empty | .anyChar _ | .charSet _ _ _ | .atStart _ | .atEnd _ | .wordEdge _ _ | .reference _ _ =>
    none

/-- The pattern of the parts that have been read, unless something is wrong with it as a whole. -/
def finished (ps : List Pattern) (r : Rest) : Read Pattern :=
  let p := inRow ps
  let fault := fault? (r.flags.contains .template) r.closed p
  if r.flags.contains .ascii && r.flags.contains .unicode then .error (.bothScripts, 0)
  else
    match r.marks, r.asked.find? (r.groups < ·.1), fault with
    | m :: _, _, _ => .error (.unopenedGroup, m.offset)
    | [], some (number, place), _ => .error (.unknownGroup number, place)
    | [], none, some kind => .error (kind, 0)
    | [], none, none => .ok (withNumbers (numbersUsed p) p)

/-- Reads a whole pattern, given which characters are known by name. -/
def ofString? (named : String → Option Nat) (source : String) : Except Error Pattern :=
  let cs := source.toList
  let result : Read Pattern := do
    let r ← (⟨marks 0 cs, cs.length, 0, [], [], none, [], [], named⟩ : Rest).check
    let (rows, rest) ← readAlternatives (4 * cs.length + 4) true r
    finished (joined rest.mode rows) rest
  match result with
  | .ok p => .ok p
  | .error (kind, offset) => .error ⟨kind, offset, source⟩

end CMakeDocs.Pattern
