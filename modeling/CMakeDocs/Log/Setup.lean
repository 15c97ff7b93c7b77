import CMakeDocs.FileTree
import CMakeDocs.Log
import CMakeDocs.Pattern.Reader
import CMakeDocs.Text.Order
import CMakeDocs.Value.Use

/-!
# Where messages go

Messages are told by tellers: one for each part of the program, the one for collecting below the
one for all, and a root above both. A teller passes on what is important enough to its outlets and,
unless it keeps to itself, to the outlets of those above it. An outlet has a target, a level and a
format. Both may be for the messages of some tellers only. The configuration of the messages names
formats, outlets and tellers; what it does not name is silent.
-/
namespace CMakeDocs

/-- What an outlet writes to. -/
inductive LogTarget where
  | output
  | errors
  | file (path : String) (appends : Bool)
  | nothing
deriving DecidableEq, Repr

structure Outlet where
  target : LogTarget
  level : Int
  format : String
  /-- The names of the tellers that it is for, each with all that is below; an empty name is for
  all. -/
  filters : List String
deriving DecidableEq, Repr

structure Teller where
  isDisabled : Bool
  /-- The least level that counts; zero leaves it to the teller above. -/
  level : Int
  outlets : List Outlet
  filters : List String
  /-- Whether the outlets of the teller above get its messages too. -/
  propagates : Bool
deriving DecidableEq, Repr

structure LogSetup where
  /-- All outlets by their names. -/
  outlets : List (String × Outlet)
  root : Teller
  site : Teller
  collector : Teller
deriving DecidableEq, Repr

inductive LogConfigError where
  | noVersion
  | wrongVersion (v : Value)
  /-- A group of the configuration that cannot be gone through. -/
  | notIterable (v : Value)
  /-- Something of a group that is not as it should be. -/
  | unusable (what : String) (name : String)
  | unusableRoot
  | unknownOutlet (name : String)
deriving Repr

namespace LogConfigError

def message : LogConfigError → String
  | noVersion => "dictionary doesn't specify a version"
  | wrongVersion (.record _ fields) => "Unsupported version: " ++ (Value.record false fields).shown
  | wrongVersion v => "Unsupported version: " ++ v.shown
  | notIterable v => (Misuse.notIterable v).message
  | unusable what name => "Unable to configure " ++ what ++ " " ++ Text.quote name
  | unusableRoot => "Unable to configure root logger"
  | unknownOutlet name => "No handler found with name " ++ Text.quote name

end LogConfigError

namespace LogSetup

/-- The number of a level. -/
def levelNumber : LogLevel → Int
  | .info => 20
  | .warning => 30
  | .error => 40

/-- The teller of a source and those above it. -/
def chain (s : LogSetup) : LogSource → List Teller
  | .site => [s.site, s.root]
  | .collector => [s.collector, s.site, s.root]

/-- The outlets that the first of some tellers reaches. -/
def reached : List Teller → List Outlet
  | [] => []
  | t :: above => t.outlets ++ if t.propagates then reached above else []

/-- The first level that is set. -/
def effectiveLevel (tellers : List Teller) : Int :=
  ((tellers.map Teller.level).find? (· ≠ 0)).getD 0

/-- What serves where no outlet is reached at all: warnings and errors are reported as they are. -/
def lastResort : Outlet := ⟨.errors, 30, "%(message)s", []⟩

/-- Whether all filters are for a teller. -/
def passes (filters : List String) (teller : String) : Bool :=
  filters.all fun f => f = "" || f = teller || (f ++ ".").toList.isPrefixOf teller.toList

/-- The outlets that write a message. -/
def outletsFor (s : LogSetup) (r : LogRecord) : List Outlet :=
  let tellers := s.chain r.source
  let teller := tellers.headD s.root
  let number := levelNumber r.level
  if teller.isDisabled || number < effectiveLevel tellers ||
      !passes teller.filters r.source.name then
    []
  else
    let outlets := match reached tellers with
      | [] => [lastResort]
      | outlets => outlets
    outlets.filter fun o => o.level ≤ number && passes o.filters r.source.name

/-- A part of a message by its name in formats. -/
def partOf? (time : String) (r : LogRecord) (name : String) : Option String :=
  [("asctime", time), ("name", r.source.name), ("levelname", r.level.name),
    ("levelno", toString (levelNumber r.level)), ("message", r.message)].lookup name

/-- A text with as many spaces as a width asks for, behind it or in front of it. -/
def padded (isLeft : Bool) (width : Nat) (text : List Char) : List Char :=
  let spaces := List.replicate (width - text.length) ' '
  if isLeft then text ++ spaces else spaces ++ text

/-- A format with its parts put in, of which the first `skip` characters are done already. -/
def fill (time : String) (r : LogRecord) : Nat → List Char → List Char
  | _, [] => []
  | skip + 1, _ :: cs => fill time r skip cs
  | 0, '%' :: cs =>
    let name := (cs.drop 1).takeWhile (· ≠ ')')
    let behind := cs.drop (name.length + 2)
    let flags := behind.takeWhile fun c => ['#', '0', '+', ' ', '-'].contains c
    let width := (behind.drop flags.length).takeWhile Char.isDigit
    let length := name.length + 3 + flags.length + width.length
    match cs.head?, partOf? time r (String.ofList name) with
    | some '%', _ => '%' :: fill time r 1 cs
    | some '(', some text =>
      padded (flags.contains '-') (Pattern.numberOf 10 width) text.toList ++ fill time r length cs
    | _, _ => '%' :: fill time r 0 cs
  | 0, c :: cs => c :: fill time r 0 cs

/-- A message as an outlet writes it. -/
def line (time : String) (r : LogRecord) (o : Outlet) : String :=
  String.ofList (fill time r 0 o.format.toList) ++ "\n"

/-- What a message adds to a target. -/
def textFor (s : LogSetup) (time : String) (target : LogTarget) (r : LogRecord) : String :=
  String.join (((s.outletsFor r).filter (·.target = target)).map (line time r))

/-- The levels by their names. -/
def levelNames : List (String × Int) :=
  [("CRITICAL", 50), ("FATAL", 50), ("ERROR", 40), ("WARN", 30), ("WARNING", 30), ("INFO", 20),
    ("DEBUG", 10), ("NOTSET", 0)]

/-- A level: a whole number or a name. -/
def levelOf? : Value → Option Int
  | .text s => levelNames.lookup s
  | v => v.whole.toOption

/-- A level that may be left out. -/
def optionalLevel? (preset : Int) : Option Value → Option Int
  | none | some .null => some preset
  | some v => levelOf? v

/-- The names of a group of the configuration. -/
def namesOf (config : Value) (group : String) : Except LogConfigError (List String) :=
  match config.get? group with
  | none => .ok []
  | some v =>
    match v.sequence? with
    | some items => .ok (items.map Value.shown)
    | none => .error (.notIterable v)

/-- The fields of something in a group, if it is a record. -/
def fieldsIn? (config : Value) (group name : String) : Option Value := do
  let .record _ fields ← config.get? group | none
  let .record isOrdered inner ← fields.lookup name | none
  some (.record isOrdered inner)

/-- What a format has to hold somewhere. -/
def formatPattern : String :=
  "%\\(\\w+\\)[#0+ -]*(\\*|\\d+)?(\\.(\\*|\\d+))?[diouxefgcrsaDIOUXEFGCRSA%]"

/-- Whether a format has a part to put in. -/
def isFormat (s : String) : Bool :=
  match Pattern.ofString? (fun _ => none) formatPattern with
  | .error _ => false
  | .ok p =>
    (List.range s.length).any fun n => p.matchesAt (Pattern.Cursor.start (s.toList.drop n))

/-- A format of the configuration. -/
def formatOf? (v : Value) : Option String :=
  match v.get? "class", v.get? "()" with
  | none, none | some .null, none =>
    match v.get? "format", (v.get? "style").getD (.text "%") with
    | none, .text "%" | some .null, .text "%" => some lastResort.format
    | some (.text s), .text "%" =>
      if isFormat s || ((v.get? "validate").any fun b => !b.isTrue) then some s else none
    | _, _ => none
  | _, _ => none

/-- The target of an outlet, from its class and the fields for it. -/
def targetOf? (kind : String) (fields : List (String × Value)) : Option LogTarget :=
  match kind, fields with
  | "logging.StreamHandler", [] => some .errors
  | "logging.StreamHandler", [("stream", .null)] => some .errors
  | "logging.StreamHandler", [("stream", .text "ext://sys.stderr")] => some .errors
  | "logging.StreamHandler", [("stream", .text "ext://sys.stdout")] => some .output
  | "logging.StreamHandler", [("stream", _)] => some .nothing
  | "logging.NullHandler", [] => some .nothing
  | "logging.FileHandler", fields =>
    if fields.all fun kv => kv.1 = "filename" || kv.1 = "mode" then
      match fields.lookup "filename", (fields.lookup "mode").getD (.text "a") with
      | some (.text path), .text "a" => some (.file path true)
      | some (.text path), .text "w" => some (.file path false)
      | _, _ => none
    else none
  | _, _ => none

/-- The fields of an outlet that are not for its target. -/
def outletKeys : List String := ["class", "formatter", "level", "filters"]

/-- The name that a filter of the configuration is for. -/
def filterOf? (v : Value) : Option String :=
  match v.get? "()", v.get? "name" with
  | none, none => some ""
  | none, some (.text s) => some s
  | _, _ => none

/-- The filters that are asked for by their names. -/
def filtersOf? (filters : List (String × String)) : Option Value → Option (List String)
  | none => some []
  | some v =>
    if !v.isTrue then some []
    else do
      (← v.sequence?).mapM fun
        | .text name => filters.lookup name
        | _ => none

/-- Opens a target; a file that is not to be added to is emptied. -/
def openTarget (place : Address) (files : FileTree) : LogTarget → Option FileTree
  | .file path appends =>
    let text := if appends then (files.contents place path).toOption.getD "" else ""
    match files.save place path text with
    | (files, none) => some files
    | (_, some _) => none
  | _ => some files

/-- A step of the configuration. The files that have been opened before an error stay. -/
abbrev Step := EStateM LogConfigError FileTree

/-- What is needed at a step. -/
def need (e : LogConfigError) : Option α → Step α
  | some a => return a
  | none => throw e

/-- The outlet of a name. -/
def outletOf (place : Address) (formats filters : List (String × String)) (config : Value)
    (name : String) : Step Outlet := do
  let fault := LogConfigError.unusable "handler" name
  let v ← need fault (fieldsIn? config "handlers" name)
  let format ← need fault (match v.get? "formatter" with
    | none => some lastResort.format
    | some (.text name) => if name = "" then some lastResort.format else formats.lookup name
    | some v => if v.isTrue then none else some lastResort.format)
  let kind ← need fault (v.get? "class")
  let target ← need fault
    (targetOf? kind.shown (v.fields.filter fun kv => !outletKeys.contains kv.1))
  set (← need fault (openTarget place (← get) target))
  let level ← need fault (optionalLevel? 0 (v.get? "level"))
  let filters ← need fault (filtersOf? filters (v.get? "filters"))
  return ⟨target, level, format, filters⟩

/-- What the configuration has for tellers. -/
structure Stock where
  outlets : List (String × Outlet)
  filters : List (String × String)
deriving Repr

/-- A teller of the configuration, made from the one that was there before. -/
def tellerOf? (stock : Stock) (before : Teller) (v : Value) : Option Teller := do
  let level ← optionalLevel? before.level (v.get? "level")
  let names ← match v.get? "handlers" with
    | none => some []
    | some v => if v.isTrue then v.sequence? else some []
  let reached ← names.mapM fun
    | .text name => stock.outlets.lookup name
    | _ => none
  let filters ← filtersOf? stock.filters (v.get? "filters")
  let propagates := match v.get? "propagate" with
    | none | some .null => before.propagates
    | some v => v.isTrue
  some ⟨false, level, reached, filters, propagates⟩

/-- How messages are told before anything is configured. -/
def initial : LogSetup :=
  let silent : Teller := ⟨false, 0, [], [], true⟩
  ⟨[], { silent with level := 30 }, silent, silent⟩

/-- Reads everything in a group. -/
def readGroup (config : Value) (group what : String) (read? : Value → Option α) :
    Except LogConfigError (List (String × α)) := do
  (← namesOf config group).mapM fun name =>
    match (fieldsIn? config group name).bind read? with
    | some a => .ok (name, a)
    | none => .error (.unusable what name)

/-- The root of a configuration; without one it stays as it was. -/
def readRoot (stock : Stock) (config : Value) : Except LogConfigError Teller :=
  match config.get? "root" with
  | none => .ok initial.root
  | some v =>
    if !v.isTrue then .ok initial.root
    else
      match v with
      | .record _ _ =>
        match tellerOf? stock initial.root v with
        | some t => .ok t
        | none => .error .unusableRoot
      | _ => .error .unusableRoot

/-- The tellers that are configured; a teller that is not is disabled, unless it is below one that
is or they are all kept. -/
def readTellers (stock : Stock) (config : Value) : Except LogConfigError LogSetup := do
  let tellers ← readGroup config "loggers" "logger" (tellerOf? stock initial.site)
  let root ← readRoot stock config
  let keepsAll := (config.get? "disable_existing_loggers").any fun v => !v.isTrue
  let other : Teller := { initial.site with isDisabled := !keepsAll }
  let site := tellers.lookup LogSource.site.name
  let collector := tellers.lookup LogSource.collector.name
  .ok ⟨stock.outlets, root, site.getD other,
    collector.getD (if site.isSome then initial.collector else other)⟩

/-- A record without what is not for levels. -/
def levelsOnly : Value → Value
  | .record isOrdered fields =>
    .record isOrdered (fields.filter fun kv => kv.1 ≠ "handlers" && kv.1 ≠ "filters")
  | v => v

/-- Where only levels are changed, nothing else is looked at. -/
def readLevels (config : Value) : Except LogConfigError LogSetup := do
  match ← namesOf config "handlers" with
  | name :: _ => .error (.unknownOutlet name)
  | [] =>
    let stock : Stock := ⟨[], []⟩
    let tellers ← readGroup config "loggers" "logger" fun v =>
      tellerOf? stock initial.site (levelsOnly v)
    let root ← readRoot stock
      (.record false ((config.get? "root").toList.map fun v => ("root", levelsOnly v)))
    .ok ⟨[], root, (tellers.lookup LogSource.site.name).getD initial.site,
      (tellers.lookup LogSource.collector.name).getD initial.collector⟩

/-- Whether a number is one. -/
def isOne : Value → Bool
  | .int n => n = 1
  | .bool b => b
  | .real b => b.isOne
  | _ => false

/-- The setup that a configuration describes, seen from a folder. -/
def ofValue (place : Address) (config : Value) : Step LogSetup := do
  let v ← need .noVersion (config.get? "version")
  if !isOne v then throw (.wrongVersion v)
  else if (config.get? "incremental").any Value.isTrue then ofExcept (readLevels config)
  else
    let formats ← ofExcept (readGroup config "formatters" "formatter" formatOf?)
    let filters ← ofExcept (readGroup config "filters" "filter" filterOf?)
    let names ← ofExcept (namesOf config "handlers")
    let outlets ← (Text.sort names).mapM fun name => do
      return (name, ← outletOf place formats filters config name)
    ofExcept (readTellers ⟨outlets, filters⟩ config)
where
  ofExcept {α : Type} : Except LogConfigError α → Step α
    | .ok a => return a
    | .error e => throw e

end LogSetup

end CMakeDocs
