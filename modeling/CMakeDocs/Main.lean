import CMakeDocs.Clock
import CMakeDocs.Program

/-!
# The command

Loads the files that a run can see, runs the program on them, and carries out what it has decided:
folders and files are written, then the texts are printed.
-/
namespace CMakeDocs.Shell

/-- The text of some bytes; bytes that are no text stand for themselves. -/
def textOf (bytes : ByteArray) : String :=
  match String.fromUTF8? bytes with
  | some text => text
  | none => String.ofList (bytes.toList.map fun b => Char.ofNat b.toNat)

/-- Loads what stands at an absolute path, and everything below it. A link is loaded with the place
it leads to. -/
partial def load (t : FileTree) (path : String) : IO FileTree := do
  let place := (Path.parts path).filter (· ≠ "")
  if (t.get? place).isSome then return t
  let host := (← IO.currentDir) / path
  let kind : Option IO.FS.FileType ←
    try pure (some (← host.symlinkMetadata).type) catch _ => pure none
  match kind with
  | none => return t
  | some .file => return t.plant place (.file (textOf (← IO.FS.readBinFile host)))
  | some .dir =>
    let mut t := t.plant place .folder
    for entry in ← host.readDir do
      t ← load t (Path.join path entry.fileName)
    return t
  | some .symlink =>
    let target ← try pure (some (← IO.FS.realPath host).toString) catch _ => pure none
    match target with
    | none => return t.plant place (.link "")
    | some target => load (t.plant place (.link target)) target
  | some .other => return t.plant place .special

/-- Loads an absolute path with the folders and files on the way to it. -/
def loadFrom (t : FileTree) (path : String) : IO FileTree := do
  let host := (← IO.currentDir) / path
  if ← host.pathExists then load t path
  else
    let parts := Path.parts path
    let mut t := t
    for n in List.range parts.length do
      let above := "/".intercalate (parts.take n)
      if above ≠ "" then
        let folder := (← IO.currentDir) / above
        if ← folder.isDir then t := t.plant (parts.take n |>.filter (· ≠ "")) .folder
        else if ← folder.pathExists then t ← load t above
    return t

/-- The name that the program goes by. -/
def programName : String := LogSource.site.name

/-- The configuration of the user, if there is one. -/
def userConfig : IO (Option (String × String)) := do
  let folder ← match ← IO.getEnv "XDG_CONFIG_HOME" with
    | some folder => pure folder
    | none => pure (Path.join ((← IO.getEnv "HOME").getD "") ".config")
  let path := Path.join folder (Path.join programName "config.yaml")
  try
    return some (path, textOf (← IO.FS.readBinFile path))
  catch _ => return none

/-- The number in front of a text. -/
def leadingNumber (s : String) : Nat :=
  (String.ofList (s.toList.takeWhile Char.isDigit)).toNat?.getD 0

/-- The time in milliseconds: when the machine was started, and how long it has been up. -/
def milliseconds : IO Nat := do
  try
    let started := (Text.lines (← IO.FS.readFile "/proc/stat")).findSome? fun line =>
      match Text.words line with
      | ["btime", seconds] => some (leadingNumber seconds)
      | _ => none
    match Text.splitDots (((Text.words (← IO.FS.readFile "/proc/uptime")).head?).getD "0.0") with
    | [seconds, hundredths] =>
      return (started.getD 0 + leadingNumber seconds) * 1000 + leadingNumber hundredths * 10
    | _ => return started.getD 0 * 1000
  catch _ => return 0

/-- The world that a command line can see. -/
def worldFor (arguments : List String) : IO World := do
  let current := (← IO.currentDir).toString
  let paths := match CommandLine.parse arguments with
    | .ok o =>
      o.files ++ (o.settings.toList ++ o.output.toList).filterMap CommandLine.Argument.text?
    | .error _ => []
  let mut files := FileTree.empty.plant ((Path.parts current).filter (· ≠ "")) .folder
  for path in paths do
    files ← loadFrom files (Path.absolute current path)
  return ⟨files, current, Text.sort, []⟩

/-- Makes the folders and writes the files by which two trees differ. -/
def carryOut (before after : FileTree) : IO Unit := do
  for (path, text) in before.changes after [] do
    match text with
    | none => IO.FS.createDirAll ("/" ++ path)
    | some text => IO.FS.writeFile ("/" ++ path) text

/-- The status that the command ends with. -/
def statusOf : Option ProgramError → UInt32
  | none => 0
  | some e => ((e.exitStatus?.getD 1) % 256).toNat.toUInt32

end CMakeDocs.Shell

open CMakeDocs CMakeDocs.Shell in
/-- Runs the program on the files of this machine. -/
def main (arguments : List String) : IO UInt32 := do
  let before ← worldFor arguments
  let outcome := Program.run arguments (← userConfig) before
  let time := Clock.render (← milliseconds)
  carryOut before.files (outcome.files time)
  IO.print (outcome.printed time)
  for line in outcome.reported programName time do
    IO.eprintln line
  match outcome.error with
  | some e => if e.exitStatus?.isNone then IO.eprintln e.message
  | none => pure ()
  return statusOf outcome.error
