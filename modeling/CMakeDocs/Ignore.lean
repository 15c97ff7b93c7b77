import CMakeDocs.Pattern.Reader
import CMakeDocs.Text.Lines
import CMakeDocs.Value

/-!
# Exclusion filters

A filter is a line in the notation of ignore files: `*` and `?` stand for characters of one name,
`**` for any number of names, a set in brackets for one character, a slash at the end for folders
only, an exclamation mark in front takes an exclusion back. The last line that matches decides.
A line is spelled out as a pattern for whole paths without their first slash.
-/
namespace CMakeDocs

inductive IgnoreError where
  | invalid (line : String)
  | pattern (e : Pattern.Error)
  | lineKind (v : Value)
  | linesKind (v : Value)
deriving Repr

def IgnoreError.message : IgnoreError → String
  | invalid line => "Invalid git pattern: " ++ Text.quote line
  | pattern e => e.message
  | lineKind v => "pattern:" ++ v.quoted ++ " is not a string, re.Pattern, or None."
  | linesKind v => "lines:" ++ v.quoted ++ " is not an iterable."

namespace Ignore

/-- A line that decides about the paths it matches. -/
structure Rule where
  excludes : Bool
  pattern : Pattern
deriving Repr

/-- The characters that mean something in a written pattern. -/
def isSpecial (c : Char) : Bool :=
  ['(', ')', '[', ']', '\x7b', '\x7d', '?', '*', '+', '-', '|', '^', '$', '\\', '.', '&', '~', '#',
    ' ', '\t', '\n', '\r', '\x0b', '\x0c'].contains c

def escaped (c : Char) : List Char := if isSpecial c then ['\\', c] else [c]

/-- The length of a set after its opening bracket, with the closing one, if it is closed. -/
def setLength? (cs : List Char) : Option Nat :=
  let negation := if cs.head? = some '!' || cs.head? = some '^' then 1 else 0
  let first := if (cs.drop negation).head? = some ']' then 1 else 0
  let inner := (cs.drop (negation + first)).takeWhile (· ≠ ']')
  let length := negation + first + inner.length
  if length < cs.length then some (length + 1) else none

/-- A set as a pattern writes it; backslashes stand for themselves. -/
def setText (cs : List Char) : List Char :=
  let doubled (cs : List Char) := cs.flatMap fun c => if c = '\\' then ['\\', '\\'] else [c]
  match cs with
  | '!' :: rest => '[' :: '^' :: doubled rest
  | '^' :: rest => '[' :: '^' :: doubled rest
  | rest => '[' :: doubled rest

/-- A name with wildcards as a pattern, of which the first `skip` characters are done already;
nothing if it ends in a lone backslash. -/
def nameText? : Nat → List Char → Option (List Char)
  | _, [] => some []
  | skip + 1, _ :: cs => nameText? skip cs
  | 0, '\\' :: cs =>
    match cs with
    | [] => none
    | c :: _ => (nameText? 1 cs).map (escaped c ++ ·)
  | 0, '*' :: cs => (nameText? 0 cs).map ("[^/]*".toList ++ ·)
  | 0, '?' :: cs => (nameText? 0 cs).map ("[^/]".toList ++ ·)
  | 0, '[' :: cs =>
    match setLength? cs with
    | some n => (nameText? n cs).map (setText (cs.take n) ++ ·)
    | none => (nameText? 0 cs).map ("\\[".toList ++ ·)
  | 0, c :: cs => (nameText? 0 cs).map (escaped c ++ ·)

/-- Several `**` in a row are one. -/
def collapse : List String → List String
  | "**" :: "**" :: rest => collapse ("**" :: rest)
  | s :: rest => s :: collapse rest
  | [] => []

/-- Where a line may match: one without a slash in front or inside matches in any folder. -/
def anchor : List String → List String
  | "" :: rest => rest
  | [s] => if s = "**" then [s] else ["**", s]
  | [s, ""] => if s = "**" then [s, ""] else ["**", s, ""]
  | segments => segments

/-- A slash at the end stands for everything below. -/
def openEnd (segments : List String) : List String :=
  if segments.length > 1 && segments.getLast? = some "" then segments.dropLast ++ ["**"]
  else segments

/-- The segments of a line from an index on, as a pattern. -/
def segmentsText? (needSlash isFirst : Bool) : List String → Option (List Char)
  | [] => some []
  | "**" :: rest =>
    if rest.isEmpty then some (if isFirst then "[^/]+(?:/.*)?" else "/.*").toList
    else if isFirst then (segmentsText? false false rest).map ("(?:.+/)?".toList ++ ·)
    else (segmentsText? true false rest).map ("(?:/.+)?".toList ++ ·)
  | segment :: rest => do
    let slash := if needSlash then ['/'] else []
    let name ← if segment = "*" then some "[^/]+".toList else nameText? 0 segment.toList
    let tail := if rest.isEmpty then "(?:(?:/).*)?".toList else []
    let more ← segmentsText? true false rest
    some (slash ++ name ++ tail ++ more)

/-- The pattern of a line that is neither blank nor a comment, its exclamation mark taken. -/
def lineText? (line : String) : Option String :=
  let segments := collapse ((Text.splitChars '/' line.toList).map String.ofList)
  if segments = ["**", ""] then some "^.+(?:/).*$"
  else
    match openEnd (anchor segments) with
    | [] => none
    | segments =>
      (segmentsText? false true segments).map fun cs => String.ofList ('^' :: (cs ++ ['$']))

/-- A line without the blanks around it; a blank after a backslash stays. -/
def trimLine (line : String) : String :=
  if "\\ ".toList.isSuffixOf line.toList then String.ofList (line.toList.dropWhile Text.isBlank)
  else Text.trim line

/-- The rule of a line. Blank lines, comments and a lone slash decide nothing. -/
def ruleOf? (line : String) : Except IgnoreError (Option Rule) :=
  let trimmed := trimLine line
  if trimmed = "" || trimmed = "/" || trimmed.toList.head? = some '#' then .ok none
  else
    let excludes := trimmed.toList.head? ≠ some '!'
    let body := if excludes then trimmed else String.ofList (trimmed.toList.drop 1)
    match lineText? body with
    | none => .error (.invalid line)
    | some text =>
      -- A line spelled out calls no character by a name.
      match Pattern.ofString? (fun _ => none) text with
      | .ok p => .ok (some ⟨excludes, p⟩)
      | .error e => .error (.pattern e)

def ruleOfValue? : Value → Except IgnoreError (Option Rule)
  | .text line => ruleOf? line
  | v => .error (.lineKind v)

def rulesOfItems : List Value → Except IgnoreError (List Rule)
  | [] => .ok []
  | v :: vs =>
    if v.isTrue then do
      let rule ← ruleOfValue? v
      let rules ← rulesOfItems vs
      .ok (rule.toList ++ rules)
    else rulesOfItems vs

/-- The rules of a list of lines; a line that counts as false is left out. -/
def rulesOf : Value → Except IgnoreError (List Rule)
  | .list vs => rulesOfItems vs
  | .record _ fields => rulesOfItems (fields.map fun kv => .text kv.1)
  | v => .error (.linesKind v)

/-- The path that patterns are matched against. -/
def pathText (path : String) : List Char :=
  match path.toList with
  | '/' :: rest => rest
  | '.' :: '/' :: rest => rest
  | cs => cs

def Rule.matches (r : Rule) (path : String) : Bool :=
  r.pattern.matchesAt (Pattern.Cursor.start (pathText path))

/-- Whether a path is excluded: the last rule that matches decides. -/
def isExcluded (rules : List Rule) (path : String) : Bool :=
  ((rules.filter (·.matches path)).getLast?.map Rule.excludes).getD false

end Ignore

end CMakeDocs
