import CMakeDocs.Text.Digit
import CMakeDocs.Text.Lines
import CMakeDocs.Text.Quoted

/-!
# The command line

Words with a dash in front are options, in a short spelling with one dash or a long one with two.
A long spelling may be cut as long as it stays the only one. A word may hold the argument of its
option, after an equals sign or, for a short spelling, right behind the letter. Short options
without an argument share a word with those behind them, also across an equals sign. All other
words, and all words after two dashes, name what is to be documented; they have to stand together.
-/
namespace CMakeDocs.CommandLine

inductive Name where
  | help
  | output
  | recursive
  | rootName
  | settings
  | exclude
  | version
deriving DecidableEq, Repr

namespace Name

def spellings : List (String × Name) :=
  [("-h", help), ("--help", help), ("-o", output), ("--output", output), ("-r", recursive),
   ("--recursive", recursive), ("-p", rootName), ("--prefix", rootName), ("-s", settings),
   ("--settings", settings), ("-e", exclude), ("--exclude", exclude), ("--version", version)]

def takesArgument : Name → Bool
  | output | rootName | settings | exclude => true
  | help | recursive | version => false

/-- All spellings of an option, as messages name it. -/
def shown (n : Name) : String :=
  "/".intercalate ((spellings.filter fun s => s.2 = n).map Prod.fst)

end Name

inductive UsageError where
  | noFiles
  | unrecognized (words : List String)
  | noArgument (option : Name)
  | extraArgument (option : Name) (argument : String)
  | ambiguous (word : String) (spellings : List String)
deriving DecidableEq, Repr

def UsageError.message : UsageError → String
  | noFiles => "the following arguments are required: files"
  | unrecognized words => "unrecognized arguments: " ++ " ".intercalate words
  | noArgument option => "argument " ++ option.shown ++ ": expected one argument"
  | extraArgument option argument =>
    "argument " ++ option.shown ++ ": ignored explicit argument " ++ Text.quote argument
  | ambiguous word spellings =>
    "ambiguous option: " ++ word ++ " could match " ++ ", ".intercalate spellings

/-- Why nothing is to be done. -/
inductive Stop where
  | usage (e : UsageError)
  | help
  | version
deriving DecidableEq, Repr

/-- The argument of an option. -/
inductive Argument where
  | text (s : String)
  /-- Two dashes, which stand for no argument at all. -/
  | dropped
deriving DecidableEq, Repr

def Argument.ofWord (word : String) : Argument := if word = "--" then dropped else text word

def Argument.text? : Argument → Option String
  | text s => some s
  | dropped => none

structure Options where
  files : List String
  output : Option Argument
  recursive : Bool
  rootName : Option Argument
  settings : Option Argument
  excludes : List Argument
deriving DecidableEq, Repr

inductive Word where
  | plain (text : String)
  /-- Two dashes, after which all words are plain. -/
  | dashes
  /-- An option, with the text that the word holds besides its spelling. -/
  | option (name : Name) (isShort : Bool) (attached : Option String)
  | unknown (text : String)
deriving DecidableEq, Repr

def Word.text : Word → String
  | plain text => text
  | dashes => "--"
  | option _ _ _ => ""
  | unknown text => text

def isShortSpelling (spelling : String) : Bool := spelling.toList.getD 1 '-' ≠ '-'

/-- A dash and digits, with a decimal point among or before them. -/
def isNegativeNumber (cs : List Char) : Bool :=
  match cs with
  | '-' :: rest =>
    let rest := if rest.getLast? = some '\n' then rest.dropLast else rest
    let fraction := (rest.dropWhile Text.isDigit)
    if fraction.isEmpty then !rest.isEmpty
    else fraction.head? = some '.' && fraction.length > 1 && (fraction.drop 1).all Text.isDigit
  | _ => false

/-- The text before the first equals sign and the one after it. -/
def splitEquals? (word : String) : Option (String × String) :=
  let before := word.toList.takeWhile (· ≠ '=')
  if before.length < word.length then
    some (String.ofList before, String.ofList (word.toList.drop (before.length + 1)))
  else none

/-- The options that a word may be short for. -/
def candidates (word : String) : List (String × Word) :=
  match word.toList with
  | '-' :: '-' :: _ =>
    let (start, attached) := match splitEquals? word with
      | some (start, argument) => (start, some argument)
      | none => (word, none)
    (Name.spellings.filter fun s => start.toList.isPrefixOf s.1.toList).map fun s =>
      (s.1, .option s.2 false attached)
  | '-' :: c :: rest =>
    (Name.spellings.filter fun s => s.1.toList = ['-', c]).map fun s =>
      (s.1, .option s.2 true (some (String.ofList rest)))
  | _ => []

/-- What a word is, unless two dashes stand before it. -/
def classify (word : String) : Except UsageError Word :=
  if word.toList.head? ≠ some '-' || word.length = 1 then .ok (.plain word)
  else
    match Name.spellings.lookup word with
    | some name => .ok (.option name (isShortSpelling word) none)
    | none =>
      match (splitEquals? word).bind fun (spelling, argument) =>
        (Name.spellings.lookup spelling).map fun name =>
          Word.option name (isShortSpelling spelling) (some argument) with
      | some w => .ok w
      | none =>
        match candidates word with
        | [(_, w)] => .ok w
        | [] =>
          if isNegativeNumber word.toList || word.toList.contains ' ' then .ok (.plain word)
          else .ok (.unknown word)
        | several => .error (.ambiguous word (several.map Prod.fst))

def classifyAll : List String → Except UsageError (List Word)
  | [] => .ok []
  | word :: rest =>
    if word = "--" then .ok (.dashes :: rest.map .plain)
    else do
      let w ← classify word
      let ws ← classifyAll rest
      .ok (w :: ws)

/-- The options of a word with text attached to its first one: those without an argument, and the
last one, which may have one. -/
def expand (option : Name) (isShort : Bool) :
    List Char → Except UsageError (List Name × Name × Option String)
  | [] =>
    if option.takesArgument then .ok ([], option, some "") else .error (.extraArgument option "")
  | c :: rest =>
    let attached := String.ofList (c :: rest)
    if option.takesArgument then .ok ([], option, some attached)
    else
      match isShort, Name.spellings.lookup (String.ofList ['-', c]) with
      | true, some next =>
        if rest.isEmpty then .ok ([option], next, none)
        else do
          let (flags, last, argument) ← expand next true rest
          .ok (option :: flags, last, argument)
      | _, _ => .error (.extraArgument option attached)

/-- The options of a word. -/
def optionsOf (option : Name) (isShort : Bool) :
    Option String → Except UsageError (List Name × Name × Option String)
  | none => .ok ([], option, none)
  | some attached => expand option isShort attached.toList

/-- What has been taken from the command line so far. -/
structure Taken where
  options : Options
  hasFiles : Bool
  extras : List String
deriving Repr

def Taken.start : Taken := ⟨⟨[], none, false, none, none, []⟩, false, []⟩

/-- The effect of an option. -/
def apply (t : Taken) (name : Name) (word : String) : Except Stop Taken :=
  let o := t.options
  let argument := Argument.ofWord word
  match name with
  | .help => .error .help
  | .version => .error .version
  | .recursive => .ok { t with options := { o with recursive := true } }
  | .output => .ok { t with options := { o with output := some argument } }
  | .rootName => .ok { t with options := { o with rootName := some argument } }
  | .settings => .ok { t with options := { o with settings := some argument } }
  | .exclude => .ok { t with options := { o with excludes := o.excludes ++ [argument] } }

def applyFlags (t : Taken) (flags : List Name) : Except Stop Taken :=
  flags.foldlM (fun t name => apply t name "") t

def Word.isPlain : Word → Bool
  | plain _ | dashes => true
  | option _ _ _ | unknown _ => false

/-- Words that stand together are files if none have been taken yet, and left over otherwise. -/
def takeFiles (t : Taken) (words : List Word) : Taken :=
  if t.hasFiles || words.all (· = .dashes) then
    { t with extras := t.extras ++ words.map Word.text }
  else
    { t with
      options := { t.options with files := (words.map Word.text).erase "--" }
      hasFiles := true }

/-- Takes the words one after the other. -/
def take : Nat → Taken → List Word → Except Stop Taken
  | 0, t, _ => .ok t
  | _, t, [] => .ok t
  | fuel + 1, t, .unknown text :: rest => take fuel { t with extras := t.extras ++ [text] } rest
  | fuel + 1, t, .option name isShort attached :: rest => do
    let (flags, last, argument) ← (optionsOf name isShort attached).mapError Stop.usage
    match argument, rest with
    | some argument, _ =>
      let t ← applyFlags t flags
      take fuel (← apply t last argument) rest
    | none, next :: rest' =>
      if last.takesArgument then
        match next with
        | .plain argument =>
          let t ← applyFlags t flags
          take fuel (← apply t last argument) rest'
        | _ => .error (.usage (.noArgument last))
      else
        let t ← applyFlags t flags
        take fuel (← apply t last "") rest
    | none, [] =>
      if last.takesArgument then .error (.usage (.noArgument last))
      else
        let t ← applyFlags t flags
        apply t last ""
  | fuel + 1, t, word :: rest =>
    let run := rest.takeWhile Word.isPlain
    take fuel (takeFiles t (word :: run)) (rest.drop run.length)

/-- Reads a command line. -/
def parse (words : List String) : Except Stop Options := do
  let ws ← (classifyAll words).mapError Stop.usage
  let t ← take (ws.length + 1) Taken.start ws
  if !t.hasFiles then .error (.usage .noFiles)
  else if !t.extras.isEmpty then .error (.usage (.unrecognized t.extras))
  else .ok t.options

end CMakeDocs.CommandLine
