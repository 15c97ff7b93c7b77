import CMakeDocs.Text.Lines
import CMakeDocs.Text.NameTable

/-!
# Characters by their names

A name is found in any spelling. Only the syllables of the Korean script and the common ideographs
have to be written in capital letters: a syllable is named by its sounds, an ideograph by its
number.
-/
namespace CMakeDocs.Text

/-- The number of some hexadecimal digits in capital letters, if they are such. -/
def capitalHex? (cs : List Char) : Option Nat :=
  if cs.all fun c => c.isDigit || ('A' ≤ c && c ≤ 'F') then
    some (cs.foldl (fun n c =>
      16 * n + (if c.isDigit then c.toNat - '0'.toNat else c.toNat - 'A'.toNat + 10)) 0)
  else none

/-- The numbers of the ideographs that have no other name, both ends included. -/
def ideographRanges : List (Nat × Nat) :=
  [(0x3400, 0x4DBF), (0x4E00, 0x9FFF), (0x20000, 0x2A6DF), (0x2A700, 0x2B738), (0x2B740, 0x2B81D),
   (0x2B820, 0x2CEA1), (0x2CEB0, 0x2EBE0), (0x30000, 0x3134A)]

/-- The other characters that are named by their numbers. -/
def numberedRanges : List (String × List (Nat × Nat)) :=
  [("CJK COMPATIBILITY IDEOGRAPH-", [(0xF900, 0xFA6D), (0xFA70, 0xFAD9), (0x2F800, 0x2FA1D)]),
   ("KHITAN SMALL SCRIPT CHARACTER-", [(0x18B00, 0x18CD5)]),
   ("NUSHU CHARACTER-", [(0x1B170, 0x1B2FB)])]

/-- The sounds that can begin a syllable. -/
def initialSounds : List String :=
  ["G", "GG", "N", "D", "DD", "R", "M", "B", "BB", "S", "SS", "", "J", "JJ", "C", "K", "T", "P",
    "H"]

def middleSounds : List String :=
  ["A", "AE", "YA", "YAE", "EO", "E", "YEO", "YE", "O", "WA", "WAE", "OE", "YO", "U", "WEO", "WE",
   "WI", "YU", "EU", "YI", "I"]

def finalSounds : List String :=
  ["", "G", "GG", "GS", "N", "NJ", "NH", "D", "L", "LG", "LM", "LB", "LS", "LT", "LP", "LH", "M",
   "B", "BS", "S", "SS", "NG", "J", "C", "K", "T", "P", "H"]

/-- What follows a beginning. -/
def after? (beginning : String) (cs : List Char) : Option (List Char) :=
  if beginning.toList.isPrefixOf cs then some (cs.drop beginning.length) else none

/-- The place of the longest sound that a text begins with, and the rest of the text. -/
def takeSound? (sounds : List String) (cs : List Char) : Option (Nat × List Char) :=
  let found := sounds.zipIdx.filterMap fun (sound, i) => (after? sound cs).map (i, ·)
  found.foldl (fun best next =>
    match best with
    | some (i, rest) => if next.2.length < rest.length then some next else some (i, rest)
    | none => some next) none

/-- The syllable of some sounds. -/
def syllable? (cs : List Char) : Option Nat := do
  let (i, cs) ← takeSound? initialSounds cs
  let (j, cs) ← takeSound? middleSounds cs
  let (k, cs) ← takeSound? finalSounds cs
  if cs.isEmpty then some (0xAC00 + (i * middleSounds.length + j) * finalSounds.length + k)
  else none

/-- The ideograph of a number with four or five digits. -/
def ideograph? (cs : List Char) : Option Nat := do
  let n ← capitalHex? cs
  if (cs.length = 4 || cs.length = 5) && ideographRanges.any fun r => r.1 ≤ n && n ≤ r.2 then some n
  else none

/-- A character that is named by its number, which is written with four digits at least. -/
def numbered? (cs : List Char) : Option Nat :=
  numberedRanges.findSome? fun (beginning, ranges) => do
    let digits ← after? beginning cs
    let n ← capitalHex? digits
    if digits.length = (if n < 0x10000 then 4 else 5) && ranges.any fun r => r.1 ≤ n && n ≤ r.2 then
      some n
    else none

/-- A variation selector by its short name. -/
def selector? (cs : List Char) : Option Nat := do
  let digits ← after? "VS" cs
  let n ← (String.ofList digits).toNat?
  if toString n ≠ String.ofList digits then none
  else if 1 ≤ n && n ≤ 16 then some (0xFDFF + n)
  else if 17 ≤ n && n ≤ 256 then some (0xE00EF + n)
  else none

/-- The words of a name in the table, given those of the name before it. -/
def tableWords (previous : List (List Char)) : List Char → List (List Char)
  | [] => []
  | mark :: rest =>
    let shared := if mark.isDigit then mark.toNat - '0'.toNat else mark.toNat - 'a'.toNat + 10
    previous.take shared ++ if rest.isEmpty then [] else splitChars ' ' rest

/-- The place of a name among some names of the table, the first of which has the given number. -/
def placeOf? (wanted : List (List Char)) : Nat → List (List Char) → List (List Char) → Option Nat
  | _, _, [] => none
  | n, previous, name :: names =>
    let words := tableWords previous name
    if words = wanted then some n else placeOf? wanted (n + 1) words names

def tabled? (cs : List Char) : Option Nat :=
  nameRuns.findSome? fun (first, lines) =>
    placeOf? (splitChars ' ' cs) first [] (lines.flatMap fun line => splitChars ',' line.toList)

/-- The number of the character with a name. -/
def characterNamed? (name : String) : Option Nat :=
  match after? "HANGUL SYLLABLE " name.toList, after? "CJK UNIFIED IDEOGRAPH-" name.toList with
  | some sounds, _ => syllable? sounds
  | none, some digits => ideograph? digits
  | none, none =>
    let capitals := name.toList.map Char.toUpper
    tabled? capitals <|> furtherNames.lookup (String.ofList capitals) <|> numbered? capitals <|>
      selector? capitals

end CMakeDocs.Text
