import CMakeDocs.Text.Alphanumeric
import CMakeDocs.Text.Blank
import CMakeDocs.Text.Digit
import CMakeDocs.Text.Folding
import Std.Data.HashSet

/-!
# Patterns for parts of names

A pattern describes runs of characters. `find` tries the ways in which a match that begins at a
given place may end, the preferred one first, until what has to follow can be met: of alternatives
the first, of repetitions the longest unless they are lazy. A repetition beyond the required ones
that passes no character is the last one. A possessive repetition takes each part in its preferred
way and as often as it can. What has failed once at a spot of a repetition is not tried again there,
so that a search takes no longer than there are spots. `delete` removes from a text, from left to
right, the first match that is not empty at each place.
-/
namespace CMakeDocs

/-- How letters are compared. -/
inductive LetterMode where
  /-- As they are written. -/
  | exact
  /-- Letters of ASCII in any case. -/
  | ascii
  /-- Letters of all scripts in any case. -/
  | folded
deriving DecidableEq, Repr

namespace LetterMode

/-- The small letter of a character, by its number. -/
def small (mode : LetterMode) (n : Nat) : Nat :=
  match mode with
  | exact => n
  | ascii => if 65 ≤ n && n ≤ 90 then n + 32 else n
  | folded => Text.smallLetter n

/-- The characters that count as the same. -/
def spellings (mode : LetterMode) (n : Nat) : List Nat :=
  match mode with
  | exact => [n]
  | ascii =>
    let m := mode.small n
    if 97 ≤ m && m ≤ 122 then [m, m - 32] else [n]
  | folded => Text.spellings n

end LetterMode

inductive CharClass where
  | digit
  | blank
  | word
deriving DecidableEq, Repr

/-- Letters and numbers, and the underscore; those of all scripts unless `ascii`. -/
def CharClass.isWordChar (ascii : Bool) (c : Char) : Bool :=
  (if ascii then c.isAlphanum else Text.isAlphanumeric c) || c = '_'

def CharClass.holds (ascii : Bool) (c : Char) : CharClass → Bool
  | digit => if ascii then c.isDigit else Text.isDigit c
  | blank =>
    if ascii then [' ', '\t', '\n', '\r', '\x0b', '\x0c'].contains c else Text.isBlank c
  | word => isWordChar ascii c

/-- One entry of a set of characters. -/
inductive CharItem where
  | char (c : Char)
  /-- The characters with numbers from `low` to `high`. -/
  | range (low high : Nat)
  | ofClass (kind : CharClass) (ascii negated : Bool)
deriving DecidableEq, Repr

namespace CharItem

def isWithin (low high n : Nat) : Bool := low ≤ n && n ≤ high

def admits : CharItem → Char → Bool
  | char x, c => x = c
  | range low high, c => isWithin low high (Text.numberOfChar c)
  | ofClass kind ascii negated, c => kind.holds ascii c != negated

/-- The greatest number of a character that a set looks up in any case. -/
def caseLimit : Nat := 0xFFFF

/-- Whether a character of a set with several entries is meant in some case. Beyond the limit a
single character is meant only by its small letter, and a range also by the capital letter. -/
def admitsFolded (mode : LetterMode) (c : Char) : CharItem → Bool
  | char x =>
    if Text.numberOfChar x ≤ caseLimit then
      (mode.spellings (Text.numberOfChar c)).contains (Text.numberOfChar x)
    else mode.small (Text.numberOfChar c) = Text.numberOfChar x
  | range low high =>
    let n := mode.small (Text.numberOfChar c)
    (mode.spellings n).any (isWithin low (min high caseLimit)) ||
      (caseLimit < high && (isWithin low high n || isWithin low high (Text.capitalLetter n)))
  | ofClass kind ascii negated => kind.holds ascii c != negated

/-- Whether a character is in a set. -/
def anyAdmits (mode : LetterMode) (items : List CharItem) (c : Char) : Bool :=
  match mode, items with
  | .exact, items => items.any (·.admits c)
  | mode, [char x] => (mode.spellings (Text.numberOfChar c)).contains (Text.numberOfChar x)
  | mode, items => items.any (·.admitsFolded mode c)

end CharItem

/-- Which numbers of repetitions are tried, and in which order. -/
inductive Effort where
  | greedy
  | lazy
  | possessive
deriving DecidableEq, Repr

/-- What counts as the end. -/
inductive EndKind where
  | ofText
  /-- The end of the text or its last line feed. -/
  | ofLastLine
  | ofAnyLine
deriving DecidableEq, Repr

inductive Pattern where
  | empty
  /-- Any character, but for a line feed unless `all`. -/
  | anyChar (all : Bool)
  | charSet (mode : LetterMode) (negated : Bool) (items : List CharItem)
  /-- The start of the text, or of a line if `ofLine`. -/
  | atStart (ofLine : Bool)
  | atEnd (kind : EndKind)
  | wordEdge (ascii negated : Bool)
  | seq (first second : Pattern)
  | alt (first second : Pattern)
  /-- Repetitions of a part. No two of one pattern have the same `site`. -/
  | repeated (site least : Nat) (most : Option Nat) (effort : Effort) (body : Pattern)
  /-- A part in parentheses, which may have a number by which it is referred to. -/
  | group (number : Option Nat) (body : Pattern)
  /-- What the group of a number has matched last. -/
  | reference (mode : LetterMode) (number : Nat)
  /-- One of two parts, the first if the group of a number has matched. -/
  | conditional (number : Nat) (yes no : Pattern)
  /-- Only the preferred way to match a part. -/
  | atomic (body : Pattern)
  /-- A condition on what follows, or on so many characters before. -/
  | look (negated : Bool) (back : Option Nat) (body : Pattern)
deriving BEq, Repr

namespace Pattern

/-- What a group has matched, and the number of the characters after it. -/
structure Capture where
  text : List Char
  left : Nat
deriving DecidableEq, Repr

/-- A place in a text: the characters before it, last first, and those after it, with what the
groups have matched on the way. -/
structure Cursor where
  before : List Char
  after : List Char
  /-- The number of the characters after it. -/
  left : Nat
  groups : List (Nat × Capture)
deriving DecidableEq, Repr

namespace Cursor

def start (cs : List Char) : Cursor := ⟨[], cs, cs.length, []⟩

/-- Passes one character if it is of a class. -/
def step (p : Char → Bool) (c : Cursor) : Option Cursor :=
  match c.after with
  | [] => none
  | x :: rest =>
    if p x then some { c with before := x :: c.before, after := rest, left := c.left - 1 } else none

/-- Passes a number of characters of a class. -/
def stepTimes (p : Char → Bool) : Nat → Cursor → Option Cursor
  | 0, c => some c
  | n + 1, c =>
    match c.step p with
    | some d => stepTimes p n d
    | none => none

/-- Passes up to a number of characters of a class. -/
def stepMost (p : Char → Bool) : Nat → Cursor → Cursor
  | 0, c => c
  | n + 1, c =>
    match c.step p with
    | some d => stepMost p n d
    | none => c

def isAtStart (ofLine : Bool) (c : Cursor) : Bool :=
  c.before.isEmpty || (ofLine && c.before.head? == some '\n')

def isAtEnd (kind : EndKind) (c : Cursor) : Bool :=
  c.after.isEmpty ||
    match kind with
    | .ofText => false
    | .ofLastLine => c.after == ['\n']
    | .ofAnyLine => c.after.head? == some '\n'

def isAtWordEdge (ascii : Bool) (c : Cursor) : Bool :=
  (c.before.head?.map (CharClass.isWordChar ascii)).getD false !=
    (c.after.head?.map (CharClass.isWordChar ascii)).getD false

/-- Passes the given characters. -/
def pass (mode : LetterMode) (cs : List Char) (c : Cursor) : Option Cursor :=
  let next := c.after.take cs.length
  let letters (cs : List Char) := cs.map fun x => mode.small (Text.numberOfChar x)
  if letters next = letters cs then
    some { c with
      before := next.reverse ++ c.before
      after := c.after.drop cs.length
      left := c.left - cs.length }
  else none

/-- Goes back over a number of characters. -/
def back (n : Nat) (c : Cursor) : Option Cursor :=
  let passed := c.before.take n
  if passed.length < n then none
  else some { c with
    before := c.before.drop n
    after := passed.reverse ++ c.after
    left := c.left + n }

/-- Begins the group of a number. What it has matched before counts inside of it only if that ended
no earlier. -/
def enter (c : Cursor) (number : Nat) : Cursor :=
  { c with groups := c.groups.filter fun g => g.1 ≠ number || g.2.left ≤ c.left }

/-- Notes what the group of a number has matched since another place. -/
def note (c : Cursor) (number : Nat) (start : Cursor) : Cursor :=
  let text := start.after.take (start.left - c.left)
  { c with groups := (number, ⟨text, c.left⟩) :: c.groups.filter fun g => g.1 ≠ number }

def hasMatched (c : Cursor) (number : Nat) : Bool := (c.groups.lookup number).isSome

end Cursor

/-- What may follow in a repetition. -/
inductive Phase where
  /-- So many repetitions are still required. -/
  | required (n : Nat)
  /-- So many repetitions may follow. -/
  | limited (n : Nat)
  /-- Any number of repetitions may follow. -/
  | free
deriving DecidableEq, Hashable, Repr

/-- A part of a pattern that is under way. `start` is the number of the characters after the place
where it began. -/
inductive Frame where
  | round (phase : Phase) (start : Nat)
  /-- A group whose match is noted in the end. -/
  | group (start : Nat)
deriving DecidableEq, Hashable, Repr

/-- What counts of a frame where so many characters are left: of a round, whether it has got on. -/
def Frame.seenFrom (left : Nat) : Frame → Frame
  | round phase start => round phase (min start (left + 1))
  | group start => group start

/-- All that the outcome of a search at a repetition depends on: its site and phase, the place, what
is under way, and what the groups have matched. -/
structure Spot where
  site : Nat
  phase : Phase
  left : Nat
  frames : List Frame
  groups : List (Nat × Capture)
deriving DecidableEq, Repr

instance : Hashable Spot where
  hash s := mixHash (hash (s.site, s.phase, s.left, s.frames))
    (hash (s.groups.map fun (n, found) => (n, found.left, found.text.map Char.toNat)))

def Cursor.spot (c : Cursor) (site : Nat) (phase : Phase) (frames : List Frame) : Spot :=
  ⟨site, phase, c.left, frames.map (Frame.seenFrom c.left), c.groups⟩

/-- The spots from which no match is possible. -/
abbrev Tried := Std.HashSet Spot

/-- Where something ends, if it succeeds. -/
abbrev Attempt := OptionT (StateM Tried) Cursor

/-- What has to follow a match. -/
abbrev Goal := Cursor → Attempt

/-- How to get from a place through a part of a pattern so that a goal is met. -/
abbrev Search := Cursor → Goal → Attempt

/-- Goes on from a place if there is one. -/
def goOn (goal : Goal) : Option Cursor → Attempt
  | some c => goal c
  | none => failure

/-- Tries something at a spot where it has not failed before. -/
def once (spot : Spot) (attempt : Attempt) : Attempt := fun tried =>
  if tried.contains spot then (none, tried)
  else
    match attempt tried with
    | (some d, tried) => (some d, tried)
    | (none, tried) => (none, tried.insert spot)

/-- Notes that nothing is possible from some spots. -/
def giveUp (spots : List Spot) : Attempt := fun tried => (none, tried.insertMany spots)

/-- How many repetitions may follow the required ones: so many that all but the last get on. -/
def furtherTimes (least : Nat) (most : Option Nat) (c : Cursor) : Nat :=
  match most with
  | none => c.left + 1
  | some m => min (m - least) (c.left + 1)

/-- The phase in which so many repetitions may follow. -/
def furtherPhase (times : Nat) (c : Cursor) : Phase :=
  if times ≤ c.left then .limited times else .free

/-- A number of repetitions in a row. -/
def findTimes (site : Nat) (body : List Frame → Search) (frames : List Frame) : Nat → Search
  | 0, c, goal => goal c
  | n + 1, c, goal =>
    once (c.spot site (.required (n + 1)) frames) <|
      body (.round (.required n) c.left :: frames) c fun d => findTimes site body frames n d goal

/-- Up to `n` further repetitions; none comes after one that has left the cursor where it was, with
`last` characters after it. -/
def findMore (site : Nat) (lazy : Bool) (body : List Frame → Search) (frames : List Frame) :
    Nat → Option Nat → Search
  | 0, _, c, goal => goal c
  | n + 1, last, c, goal =>
    if last = some c.left then goal c
    else
      let phase := furtherPhase (n + 1) c
      let further (_ : Unit) := body (.round phase c.left :: frames) c fun d =>
        findMore site lazy body frames n (some c.left) d goal
      once (c.spot site phase frames)
        (if lazy then goal c <|> further () else further () <|> goal c)

/-- Where a number of repetitions leads of which each is taken in its preferred way. -/
def passTimes (body : Search) : Nat → Goal
  | 0, c => pure c
  | n + 1, c => do passTimes body n (← body c pure)

/-- Where up to `n` further repetitions lead of which each is taken in its preferred way, as long
as they get on. -/
def passMore (body : Search) : Nat → Goal
  | 0, c => pure c
  | n + 1, c => fun tried =>
    match body c pure tried with
    | (none, tried) => (some c, tried)
    | (some d, tried) => if d.left < c.left then passMore body n d tried else (some d, tried)

/-- The repetitions of a part. -/
def findRepeated (site least : Nat) (most : Option Nat) (effort : Effort)
    (body : List Frame → Search) (frames : List Frame) : Search := fun c goal =>
  match effort with
  | .possessive => do
    let d ← passTimes (body []) least c
    goal (← passMore (body []) (furtherTimes least most d) d)
  | effort =>
    findTimes site body frames least c fun d =>
      findMore site (effort == .lazy) body frames (furtherTimes least most d) none d goal

/-- The places after up to `n` characters of a class with their spots, the farthest first, before
some others; not beyond a spot that has been tried. -/
def spotsOfRun (spot : Nat → Cursor → Spot) (p : Char → Bool) (tried : Tried) :
    Nat → Cursor → List (Spot × Cursor) → List (Spot × Cursor)
  | 0, c, others => (spot 0 c, c) :: others
  | n + 1, c, others =>
    let here := spot (n + 1) c
    if tried.contains here then others
    else
      match c.step p with
      | some d => spotsOfRun spot p tried n d ((here, c) :: others)
      | none => (here, c) :: others

/-- Tries some places, of which each fails only if all before it do. -/
def findFirst (goal : Goal) : List (Spot × Cursor) → Attempt
  | [] => failure
  | (spot, c) :: others => once spot (goal c) <|> findFirst goal others

/-- Up to `n` further characters of a class, as few as possible, after some spots that fail if the
rest fails. -/
def findFewest (spot : Nat → Cursor → Spot) (p : Char → Bool) (goal : Goal) :
    Nat → Cursor → List Spot → Attempt
  | 0, c, spots => goal c <|> giveUp (spot 0 c :: spots)
  | n + 1, c, spots => fun tried =>
    let here := spot (n + 1) c
    if tried.contains here then giveUp spots tried
    else
      match goal c tried with
      | (some d, tried) => (some d, tried)
      | (none, tried) =>
        match c.step p with
        | some d => findFewest spot p goal n d (here :: spots) tried
        | none => giveUp (here :: spots) tried

/-- The repetitions of a single character of a class. -/
def findRun (site least : Nat) (most : Option Nat) (effort : Effort) (p : Char → Bool)
    (frames : List Frame) : Search := fun c goal =>
  match c.stepTimes p least with
  | none => failure
  | some d =>
    let times := furtherTimes least most d
    let spot (n : Nat) (c : Cursor) := c.spot site (furtherPhase n c) frames
    match effort with
    | .greedy => fun tried => findFirst goal (spotsOfRun spot p tried times d []) tried
    | .lazy => findFewest spot p goal times d []
    | .possessive => goal (d.stepMost p times)

/-- The class of a pattern for a single character. -/
def class? : Pattern → Option (Char → Bool)
  | anyChar all => some fun x => all || x ≠ '\n'
  | charSet mode negated items => some fun x => CharItem.anyAdmits mode items x != negated
  | group none body => body.class?
  | _ => none

/-- Tries the ways to match from a place, the preferred one first, until the goal is met. -/
def find : Pattern → List Frame → Search
  | empty, _, c, goal => goal c
  | anyChar all, _, c, goal => goOn goal (c.step fun x => all || x ≠ '\n')
  | charSet mode negated items, _, c, goal =>
    goOn goal (c.step fun x => CharItem.anyAdmits mode items x != negated)
  | atStart ofLine, _, c, goal => if c.isAtStart ofLine then goal c else failure
  | atEnd kind, _, c, goal => if c.isAtEnd kind then goal c else failure
  | wordEdge ascii negated, _, c, goal =>
    if c.isAtWordEdge ascii != negated then goal c else failure
  | seq first second, frames, c, goal => first.find frames c fun d => second.find frames d goal
  | alt first second, frames, c, goal => first.find frames c goal <|> second.find frames c goal
  | repeated site least most effort body, frames, c, goal =>
    match body.class? with
    | some p => findRun site least most effort p frames c goal
    | none => findRepeated site least most effort body.find frames c goal
  | group none body, frames, c, goal => body.find frames c goal
  | group (some number) body, frames, c, goal =>
    body.find (.group c.left :: frames) (c.enter number) fun d => goal (d.note number c)
  | reference mode number, _, c, goal =>
    goOn goal ((c.groups.lookup number).bind fun found => c.pass mode found.text)
  | conditional number yes no, frames, c, goal =>
    if c.hasMatched number then yes.find frames c goal else no.find frames c goal
  | atomic body, _, c, goal => body.find [] c pure >>= goal
  | look negated back body, _, c, goal => fun tried =>
    let begin_ := match back with
      | some n => c.back n
      | none => some c
    match goOn (fun d => body.find [] d pure) begin_ tried with
    | (none, tried) => if negated then goal c tried else (none, tried)
    | (some d, tried) =>
      if negated then (none, tried) else goal { c with groups := d.groups } tried

/-- Whether a match begins at a place. -/
def matchesAt (p : Pattern) (c : Cursor) : Bool := (p.find [] c pure ∅).1.isSome

/-- The length of the preferred match at a place among those that are not empty. What fails before
fails also for a later place. -/
def matchLength? (p : Pattern) (c : Cursor) (tried : Tried) : Option Nat × Tried :=
  let (found, tried) :=
    p.find [] c (fun d => if d.left < c.left then pure d else failure) tried
  (found.map fun d => c.left - d.left, tried)

/-- The characters that stay, of a text of the given length whose first `skip` characters are part
of a match. -/
def deleteFrom (p : Pattern) : Nat → List Char → Nat → Tried → List Char → List Char
  | _, _, _, _, [] => []
  | 0, before, left, tried, c :: cs =>
    match p.matchLength? ⟨before, c :: cs, left, []⟩ tried with
    | (some n, tried) => deleteFrom p (n - 1) (c :: before) (left - 1) tried cs
    | (none, tried) => c :: deleteFrom p 0 (c :: before) (left - 1) tried cs
  | skip + 1, before, left, tried, c :: cs =>
    deleteFrom p skip (c :: before) (left - 1) tried cs

/-- The text without its matches. -/
def delete (p : Pattern) (s : String) : String :=
  String.ofList (deleteFrom p 0 [] s.length ∅ s.toList)

end Pattern

end CMakeDocs
