import CMakeDocs.Collector
import CMakeDocs.Page
import CMakeDocs.Reader.Rules

/-!
# Documenting one file

A file is read, its entries are collected, and they are put on its page. Doing so again finds the
reader at the end of the text, so the same entries are put on the page once more.
-/
namespace CMakeDocs

/-- The first character of a text that is not ASCII: the first byte of its encoding, and how many
characters stand before it. -/
def firstForeign? (text : String) : Option (Nat × Nat) :=
  let before := text.toList.takeWhile fun c => c.toNat < 0x80
  ((text.toList.drop before.length).head?).map fun c =>
    let n := c.toNat
    let byte := if n < 0x800 then 0xC0 + n / 0x40
      else if n < 0x10000 then 0xE0 + n / 0x1000 else 0xF0 + n / 0x40000
    (byte, before.length)

inductive DocumentError where
  /-- A file has to be ASCII. -/
  | foreign (byte position : Nat)
  | fault (f : Fault)
  | collect (e : CollectError) (command : Command)
  | page (e : PageError)
deriving Repr

def DocumentError.message : DocumentError → String
  | foreign byte position =>
    s!"'ascii' codec can't decode byte 0x{String.ofList (Text.hexDigits 2 byte)} in position " ++
      s!"{position}: ordinal not in range(128)"
  | fault (.halt r) => r.message
  | fault _ => ""
  | collect e _ => e.message
  | page e => e.message

structure Document where
  moduleName : String
  page : Page
  reader : Reader
  collector : Collector
deriving Repr

namespace Document

/-- A file that has been opened. Its title is its name unless one is given, and the name of its
module is its title unless one is given. -/
def new (headers : Headers) (file : String) (title moduleName : Option String) (text : String) :
    Except DocumentError Document :=
  let title := title.getD file
  match Page.new headers title with
  | .error e => .error (.page (.rst e))
  | .ok page =>
    match firstForeign? text with
    | some (byte, position) => .error (.foreign byte position)
    | none => .ok ⟨moduleName.getD title, page, Reader.start text, Collector.empty⟩

/-- A document after an attempt to go on with it. -/
structure Progress where
  document : Document
  logs : List LogRecord
  error : Option DocumentError
deriving Repr

/-- Puts the collected entries on the page. -/
def layOut (d : Document) : Except PageError Document := do
  let (page, entries) ← d.page.addEntries d.moduleName d.collector.entries
  .ok { d with page := page, collector := { d.collector with entries := entries } }

/-- Reads the file from where the reader stands and puts all entries on the page. -/
def process (s : Settings) (d : Document) : Progress :=
  let step := Reader.file d.reader
  let d := { d with reader := step.reader }
  match step.fault, step.tree? with
  | some (f, _), _ => ⟨d, [], some (.fault f)⟩
  | none, none => ⟨d, [], none⟩
  | none, some tree =>
    let p := Collector.file s tree d.collector
    let d := { d with collector := p.collector }
    match p.error with
    | some (e, command) => ⟨d, p.logs, some (.collect e command)⟩
    | none =>
      match d.layOut with
      | .ok d => ⟨d, p.logs, none⟩
      | .error e => ⟨d, p.logs, some (.page e)⟩

end Document

end CMakeDocs
