import CMakeDocs.Comment
import CMakeDocs.Entry
import CMakeDocs.Log
import CMakeDocs.Pattern.Reader
import CMakeDocs.Settings

/-!
# Collecting the entries of a file

The collector goes through the items of a file. It keeps the entries so far, the open classes and
definitions, innermost first, and the unit test or method whose definition has still to come.
Open things are known by the number of their entry; a class or definition that gets no entry is
open without one. A command that fails leaves the collector as it was.
-/
namespace CMakeDocs

/-- What is waiting for its definition. -/
inductive Awaiting where
  | unitTest (entry : Nat)
  | method (entry : Nat) (isConstructor : Bool) (index : Nat)
deriving DecidableEq, Repr

structure Collector where
  entries : List Entry
  /-- The open classes, innermost first. -/
  classes : List (Option Nat)
  awaiting : Option Awaiting
  /-- The open definitions, innermost first. -/
  definitions : List (Option Nat)
deriving Repr

/-- Why a command cannot be dealt with. -/
inductive CollectError where
  /-- A definition without a name. -/
  | unnamed (isMacro : Bool) (doc : String) (command : Command)
  | pattern (e : Pattern.Error)
  | patternKind (v : Value)
  | triggerKind (v : Value)
  /-- A variable is set to a text without characters, not even quotes. -/
  | emptyValue
  /-- The end of a class or a definition that is not open. -/
  | notOpen
  /-- The command that stands for all others cannot have a comment. -/
  | genericComment
  /-- The command that stands for all others has no switch. -/
  | genericSwitch
deriving Repr

namespace CollectError

/-- How a command was called, below what is wrong with it. -/
def context (doc : String) (command : Command) : String := doc ++ "\n" ++ command.text

def message : CollectError → String
  | unnamed isMacro doc command =>
    (if isMacro then "macro" else "function") ++ "() called with incorrect parameters: []\n\n" ++
      context doc command
  | pattern e => e.message
  | patternKind (.list _) => "unhashable type: 'list'"
  | patternKind (.record _ _) => "unhashable type: 'dict'"
  | patternKind _ => "first argument must be string or compiled pattern"
  | triggerKind v => "'in <string>' requires string as left operand, not " ++ v.kindName
  | emptyValue => "string index out of range"
  | notOpen => "pop from empty list"
  | genericComment =>
    "DocumentationAggregator.process_generic_command() missing 1 required positional argument: " ++
      "'docstring'"
  | genericSwitch => "'include_undocumented_generic_command'"

end CollectError

namespace Collector

/-- The collector before the first file. -/
def empty : Collector := ⟨[], [], none, []⟩

/-- What a command makes of a collector, and what is said about it. -/
abbrev Outcome := Except CollectError (Collector × List LogRecord)

def append (c : Collector) (e : Entry) : Collector := { c with entries := c.entries ++ [e] }

/-- The number of the next entry. -/
def next (c : Collector) : Nat := c.entries.length

def modify (c : Collector) (i : Nat) (f : Entry → Entry) : Collector :=
  { c with entries := c.entries.modify i f }

/-- Notes that the innermost definition takes keyword arguments, if it has an entry. -/
def markKeywords (c : Collector) : Collector :=
  match c.definitions with
  | some i :: _ => c.modify i (Entry.mapDefinition fun d => { d with hasKeywords := true })
  | _ => c

/-- Adds to what has been waiting for its definition. -/
def link (c : Collector) (isMacro : Bool) (params : List String) : Awaiting → Collector
  | .unitTest i =>
    c.modify i (Entry.mapUnitTest fun t =>
      { t with isMacro := isMacro, params := t.params ++ params })
  | .method i isConstructor j =>
    let change (m : Method) : Method := { m with isMacro := isMacro, params := m.params ++ params }
    c.modify i (Entry.mapClass fun k =>
      if isConstructor then { k with constructors := k.constructors.modify j change }
      else { k with members := k.members.modify j change })

def complaint (what shown doc : String) (command : Command) : LogRecord :=
  ⟨.collector, .error, what ++ shown ++ "\n\n" ++ CollectError.context doc command⟩

/-- A command was called with the wrong number of arguments, which are shown as texts. -/
def badParameters (name doc : String) (command : Command) : LogRecord :=
  complaint (name ++ "() called with incorrect parameters: ") (Text.quoteList command.singles) doc
    command

/-- The same with the arguments shown by a mark each. -/
def badArguments (name doc : String) (command : Command) : LogRecord :=
  complaint (name ++ "() called with incorrect parameters: ")
    (Text.bracketed (command.singles.map fun _ => "<Single_argumentContext>")) doc command

def outsideClass (name doc : String) (command : Command) : LogRecord :=
  complaint (name ++ "() called outside of cpp_class() definition: ")
    (Text.quoteList command.singles) doc command

/-- The parameters without what a pattern matches. The pattern is read only if there are any. -/
def strip (named : String → Option Nat) (pattern : Value) (params : List String) :
    Except CollectError (List String) :=
  if params.isEmpty then .ok [] else
    match pattern with
    | .text s =>
      match Pattern.ofString? named s with
      | .ok p => .ok (params.map p.delete)
      | .error e => .error (.pattern e)
    | v => .error (.patternKind v)

/-- Whether a comment says that a definition takes keyword arguments. -/
def hasTrigger (trigger : Value) (doc : String) : Except CollectError Bool :=
  match trigger with
  | .text s => .ok (Text.contains s doc)
  | v => .error (.triggerKind v)

def define (s : Settings) (isMacro : Bool) (doc : String) (command : Command) (c : Collector) :
    Outcome :=
  match command.singles with
  | [] => .error (.unnamed isMacro doc command)
  | name :: rest => do
    let params ← strip s.characterNamed (s.definitionStrip isMacro) rest
    let hasKeywords ← hasTrigger s.keywordTrigger doc
    let c' := c.append (.definition isMacro ⟨name, doc, params, hasKeywords⟩)
    .ok ({ c' with definitions := some c.next :: c.definitions }, [])

/-- The argument after the last keyword `NAME`, or the given one if there is no such keyword;
nothing if the keyword comes last. -/
def nameAfter? (name : String) : List String → Option String
  | [] => some name
  | p :: ps =>
    if Text.isSpellingOf "NAME" p then
      match ps with
      | [] => none
      | q :: _ => nameAfter? q ps
    else nameAfter? name ps

def addUnitTest (isSection : Bool) (doc : String) (command : Command) (c : Collector) :
    Collector × List LogRecord :=
  let params := command.singles
  let refused := (c, [badParameters (if isSection then "ct_add_section" else "ct_add_test") doc
    command])
  if params.length < 2 then refused else
    match nameAfter? "" params with
    | none => refused
    | some name =>
      let expectFail := params.any (Text.isSpellingOf "EXPECTFAIL")
      let c' := c.append (.unitTest isSection ⟨name, doc, expectFail, [], false⟩)
      ({ c' with awaiting := some (.unitTest c.next) }, [])

/-- A text without a quote at its start and one at its end. -/
def unquote? (value : List Char) : Option (List Char) :=
  match value with
  | [] => none
  | c :: cs =>
    let inner := if c = '"' then cs else c :: cs
    match inner.getLast? with
    | none => none
    | some last => some (if last = '"' then inner.dropLast else inner)

def setVariable (doc : String) (command : Command) (c : Collector) : Outcome :=
  match command.singles with
  | [] => .ok (c, [badArguments "set" doc command])
  | [name] => .ok (c.append (.variableDoc ⟨name, doc, .unset, none⟩), [])
  | [name, value] =>
    match unquote? value.toList with
    | none => .error .emptyValue
    | some cs => .ok (c.append (.variableDoc ⟨name, doc, .string, some (String.ofList cs)⟩), [])
  | name :: values =>
    .ok (c.append (.variableDoc ⟨name, doc, .list, some (" ".intercalate values)⟩), [])

def openClass (doc : String) (command : Command) (c : Collector) : Collector × List LogRecord :=
  match command.singles with
  | [] => (c, [badArguments "cpp_class" doc command])
  | name :: superclasses =>
    let c' := c.append (.classDoc ⟨name, doc, superclasses, [], [], [], []⟩)
    let c' := match c.classes with
      | some i :: _ =>
        c'.modify i (Entry.mapClass fun k => { k with innerClasses := k.innerClasses ++ [name] })
      | _ => c'
    ({ c' with classes := some c.next :: c.classes }, [])

/-- The class with a method more, and the number of that method. -/
def addToClass (m : Method) (k : Class) : Class :=
  if m.isConstructor then { k with constructors := k.constructors ++ [m] }
  else { k with members := k.members ++ [m] }

/-- How many methods of a sort the class of an entry has. -/
def methodCount (c : Collector) (entry : Nat) (isConstructor : Bool) : Nat :=
  match c.entries[entry]? with
  | some (.classDoc k) => if isConstructor then k.constructors.length else k.members.length
  | _ => 0

def addMember (isConstructor : Bool) (doc : String) (command : Command) (c : Collector) :
    Collector × List LogRecord :=
  match command.singles with
  | name :: parentClass :: paramTypes =>
    match c.classes with
    | [] =>
      (c, [outsideClass (if isConstructor then "cpp_constructor" else "cpp_member") doc command])
    | none :: _ => (c, [])
    | some i :: _ =>
      let m : Method := ⟨name, doc, parentClass, paramTypes, [], isConstructor, false⟩
      let c' := c.modify i (Entry.mapClass (addToClass m))
      ({ c' with awaiting := some (.method i isConstructor (c.methodCount i isConstructor)) }, [])
  | _ => (c, [badArguments "cpp_class" doc command])

def addAttribute (doc : String) (command : Command) (c : Collector) :
    Collector × List LogRecord :=
  match command.singles with
  | parentClass :: name :: rest =>
    match c.classes with
    | [] => (c, [outsideClass "cpp_attr" doc command])
    | none :: _ => (c, [])
    | some i :: _ =>
      let a : Attribute := ⟨name, doc, parentClass, rest.head?⟩
      (c.modify i (Entry.mapClass fun k => { k with attributes := k.attributes ++ [a] }), [])
  | _ => (c, [badArguments "cpp_attr" doc command])

def addTest (doc : String) (command : Command) (c : Collector) : Collector × List LogRecord :=
  let params := command.singles
  if params.length < 2 then (c, [badParameters "ct_add_section" doc command]) else
    match nameAfter? "" params with
    | none => (c, [badParameters "add_test" doc command])
    | some name =>
      (c.append (.test ⟨name, doc, params.filter fun p => p ≠ name ∧ p ≠ "NAME"⟩), [])

def addOption (doc : String) (command : Command) (c : Collector) : Collector × List LogRecord :=
  match command.singles with
  | [name, help] => (c.append (.option ⟨name, doc, .other (.text "bool"), none⟩ help), [])
  | [name, help, value] =>
    (c.append (.option ⟨name, doc, .other (.text "bool"), some value⟩ help), [])
  | _ => (c, [badParameters "ct_add_section" doc command])

def addGeneric (doc : String) (command : Command) (c : Collector) : Collector :=
  c.append (.generic ⟨command.name, doc, command.singles ++ command.groups⟩)

/-- Gives a command its entry. -/
def record (s : Settings) (doc : String) (command : Command) (c : Collector) : Outcome :=
  match command.kind with
  | .definition isMacro => define s isMacro doc command c
  | .parseArguments => .ok (c.markKeywords, [])
  | .setVariable => setVariable doc command c
  | .option => .ok (addOption doc command c)
  | .test => .ok (addTest doc command c)
  | .unitTest isSection => .ok (addUnitTest isSection doc command c)
  | .classStart => .ok (openClass doc command c)
  | .member isConstructor => .ok (addMember isConstructor doc command c)
  | .classAttribute => .ok (addAttribute doc command c)
  | .generic => .error .genericComment
  | .endDefinition | .classEnd | .other => .ok (addGeneric doc command c, [])

/-- The definition that something has been waiting for. Its name and its first parameter are not
parameters of what waits. -/
def linkAwaiting (s : Settings) (isMacro : Bool) (command : Command) (awaiting : Awaiting)
    (c : Collector) : Outcome := do
  let params ← match awaiting with
    | .unitTest _ => .ok command.singles
    | .method _ _ _ => strip s.characterNamed s.memberStrip command.singles
  let c' := c.link isMacro (params.drop 2) awaiting
  .ok ({ c' with awaiting := none, definitions := none :: c.definitions }, [])

/-- Gives a command without a comment its entry, if its kind is included. -/
def recordIfIncluded (s : Settings) (command : Command) (c : Collector) : Outcome :=
  if s.includes command.kind then record s "" command c else .ok (c, [])

/-- Follows a command, with its comment dealt with already or without one. -/
def follow (s : Settings) (hasComment : Bool) (command : Command) (c : Collector) : Outcome :=
  match command.kind with
  | .classStart =>
    if !s.includes .classStart then .ok ({ c with classes := none :: c.classes }, [])
    else if hasComment then .ok (c, []) else record s "" command c
  | .classEnd =>
    match c.classes with
    | [] => .error .notOpen
    | _ :: rest => .ok ({ c with classes := rest }, [])
  | .parseArguments => .ok (c.markKeywords, [])
  | .definition isMacro =>
    match c.awaiting with
    | some awaiting => linkAwaiting s isMacro command awaiting c
    | none =>
      if hasComment then .ok (c, [])
      else if s.includes (.definition isMacro) then record s "" command c
      else .ok ({ c with definitions := none :: c.definitions }, [])
  | .endDefinition =>
    match c.definitions with
    | [] => .error .notOpen
    | _ :: rest => .ok ({ c with definitions := rest }, [])
  | .generic => if hasComment then .ok (c, []) else .error .genericSwitch
  | .setVariable | .other => .ok (c, [])
  | .option | .test | .unitTest _ | .member _ | .classAttribute =>
    if hasComment then .ok (c, []) else recordIfIncluded s command c

/-- What has become of a collector, what was said, and why it stopped, if it did. -/
structure Progress where
  collector : Collector
  logs : List LogRecord
  error : Option (CollectError × Command)
deriving Repr

namespace Progress

def start (c : Collector) : Progress := ⟨c, [], none⟩

/-- Goes on with a command unless there was an error. -/
def step (p : Progress) (errorText : String) (command : Command) (f : Collector → Outcome) :
    Progress :=
  match p.error with
  | some _ => p
  | none =>
    match f p.collector with
    | .ok (c, logs) => { p with collector := c, logs := p.logs ++ logs }
    | .error e =>
      let log : LogRecord :=
        ⟨.collector, .error, s!"{errorText} beginning at line number {command.line}"⟩
      { p with logs := p.logs ++ [log], error := some (e, command) }

/-- Says something unless there was an error. -/
def say (p : Progress) (log : LogRecord) : Progress :=
  match p.error with
  | some _ => p
  | none => { p with logs := p.logs ++ [log] }

/-- Adds an entry unless there was an error. -/
def append (p : Progress) (e : Entry) : Progress :=
  match p.error with
  | some _ => p
  | none => { p with collector := p.collector.append e }

end Progress

def strayWarning : LogRecord :=
  ⟨.collector, .warning,
    "Detected dangling doccomment, ignoring. RST may change depending on CMinx version."⟩

def followCommand (s : Settings) (hasComment : Bool) (command : Command) (p : Progress) :
    Progress :=
  p.step "Caught exception while processing command" command (follow s hasComment command)

def item (s : Settings) (p : Progress) : Item → Progress
  | .moduleComment text =>
    let (name, doc) := Comment.moduleParts text
    p.append (.moduleDoc name (some doc))
  | .documented comment command =>
    let p := p.step "Caught exception while processing documented command" command
      (record s (Comment.clean comment) command)
    followCommand s true command p
  | .plain command => followCommand s false command p
  | .strayComment => p.say strayWarning

/-- Goes through the items of a file. -/
def items (s : Settings) (is : List Item) (c : Collector) : Progress :=
  is.foldl (item s) (Progress.start c)

/-- Goes through the tree of a file. -/
def file (s : Settings) (tree : Tree) (c : Collector) : Progress := items s (Item.ofFile tree) c

/-- The name of an open thing, if it has an entry. -/
def openName (c : Collector) (i : Option Nat) : Option String :=
  i.bind fun i => c.entries[i]?.map Entry.name

/-- The method or unit test that waits for its definition. -/
def awaited? (c : Collector) : Option Entry :=
  match c.awaiting with
  | none => none
  | some (.unitTest i) => c.entries[i]?
  | some (.method i isConstructor j) =>
    match c.entries[i]? with
    | some (.classDoc k) =>
      (if isConstructor then k.constructors else k.members)[j]?.map Entry.methodDoc
    | _ => none

end Collector

end CMakeDocs
