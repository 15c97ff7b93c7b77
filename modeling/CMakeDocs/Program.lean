import CMakeDocs.Config
import CMakeDocs.Site

/-!
# The program

The program reads its command line and its configuration, and documents what the command line
names. Messages are lines of what it prints.
-/
namespace CMakeDocs

inductive ProgramError where
  | stop (s : CommandLine.Stop)
  | config (e : ConfigError)
  | site (e : SiteError)
deriving Repr

namespace ProgramError

/-- The status that the program ends with where it ends by itself. -/
def exitStatus? : ProgramError → Option Int
  | stop (.usage _) => some 2
  | stop _ => some 0
  | site .missing => some (-1)
  | _ => none

def message (e : ProgramError) : String :=
  match e, e.exitStatus? with
  | _, some status => toString status
  | config e, none => e.message
  | site e, none => e.message
  | stop _, none => ""

end ProgramError

/-- What has come of a run of the program. -/
structure Outcome where
  world : World
  error : Option ProgramError
  /-- Where messages go. -/
  logs : LogSetup

namespace Program

/-- The layer of a settings file. -/
def fileLayer (w : World) (a : CommandLine.Argument) : Except ConfigError Layer :=
  match Config.argumentValue a with
  | .text path =>
    let path := w.absolute path
    match w.files.contents w.place path with
    | .error f => .error (.unopened path f)
    | .ok text => Config.layerOf path text
  | v => .error (.noPath v)

/-- The layers of a run, the first one first. -/
def layers (w : World) (o : CommandLine.Options) (userConfig : Option (String × String)) :
    Except ConfigError (List Layer) := do
  let user ← userConfig.toList.mapM fun (path, text) => Config.layerOf path text
  let file ← o.settings.toList.mapM (fileLayer w)
  .ok (Config.commandLayer o :: file ++ user ++ [Config.presets])

/-- Documents what is named, after a word on where the pages go. -/
def documentAll (s : Settings) (files : List String) : Run Unit := do
  match s.outputFolder with
  | .text path => Site.say .info ("Writing RST files to " ++ (← get).absolute path)
  | _ => pure ()
  Site.documentAll s files

/-- Runs the program on a command line. The configuration of the user is a path and a text. -/
def run (arguments : List String) (userConfig : Option (String × String)) (w : World) : Outcome :=
  match CommandLine.parse arguments with
  | .error s => ⟨w, some (.stop s), LogSetup.initial⟩
  | .ok o =>
    let configured := do
      let ls ← layers w o userConfig
      Config.settingsOf w.current ls
    match configured with
    | .error e => ⟨w, some (.config e), LogSetup.initial⟩
    | .ok (settings, logging) =>
      match LogSetup.ofValue w.place logging w.files with
      | .error e files => ⟨{ w with files := files }, some (.config (.logging e)), LogSetup.initial⟩
      | .ok setup files =>
        match documentAll settings o.files { w with files := files } with
        | .ok _ w => ⟨w, none, setup⟩
        | .error e w => ⟨w, some (.site e), setup⟩

end Program

namespace Outcome

/-- What the program prints; all messages have the same time. -/
def printed (time : String) (o : Outcome) : String :=
  String.join (o.world.events.map fun
    | .print text => text
    | .log r => o.logs.textFor time .output r
    | .write _ _ | .report _ => "")

/-- The lines that the program, called by a name, reports. -/
def reported (name time : String) (o : Outcome) : List String :=
  o.world.events.flatMap (fun
    | .report r => [r.render]
    | .log r => (Text.lines (o.logs.textFor time .errors r)).dropLast
    | .print _ | .write _ _ => []) ++
    (match o.error with
      | some (.stop (.usage e)) => [name ++ ": error: " ++ e.message]
      | _ => [])

/-- The file tree with what the messages have added to files. -/
def files (time : String) (o : Outcome) : FileTree :=
  let place := o.world.place
  (o.logs.outlets.map fun kv => kv.2.target).eraseDups.foldl (fun files target =>
    match target with
    | .file path _ =>
      let text := String.join (o.world.logs.map (o.logs.textFor time target))
      (files.save place path ((files.contents place path).toOption.getD "" ++ text)).1
    | _ => files) o.world.files

end Outcome

end CMakeDocs
