import CMakeDocs.Entry.Block
import CMakeDocs.Rst.Header

/-!
# Pages

A page is a title and the blocks below it. Entries are put on a page in their order, behind an
entry for the file itself: its own module comment, or one with the name that is given to the file.
-/
namespace CMakeDocs

open Rst (Block)

structure Page where
  headers : Headers
  title : String
  /-- The title as it is shown. -/
  heading : String
  blocks : List Block
deriving Repr

inductive PageError where
  | unknownKind (v : Value)
  | rst (e : Rst.Error)
deriving Repr

def PageError.message : PageError → String
  | unknownKind v => "Unknown variable type: " ++ v.shown
  | rst e => e.message

namespace Page

/-- An empty page, if its title can be underlined. -/
def new (headers : Headers) (title : String) : Except Rst.Error Page := do
  .ok ⟨headers, title, ← headers.heading 0 (.text title), []⟩

def text (p : Page) : String := Rst.partText p.heading (Block.textOfAll 0 p.blocks)

def add (p : Page) (b : Block) : Page := { p with blocks := p.blocks ++ [b] }

/-- The name of a module entry. -/
def moduleName? : Entry → Option String
  | .moduleDoc name _ => some name
  | _ => none

/-- Gives a module entry without a name the given one. -/
def nameModule (moduleName : String) : Entry → Entry
  | .moduleDoc name doc => .moduleDoc (if name = "" then moduleName else name) doc
  | e => e

/-- The entries with one for the module among them. -/
def withModule (moduleName : String) (entries : List Entry) : List Entry :=
  if entries.any fun e => (moduleName? e).isSome then entries.map (nameModule moduleName)
  else .moduleDoc moduleName (some "") :: entries

/-- The last name that the module entries give to the file. -/
def titleOf? (entries : List Entry) : Option String :=
  ((entries.filterMap moduleName?).filter (· ≠ "")).getLast?

/-- The page with another title, if there is one. -/
def retitle (p : Page) : Option String → Except PageError Page
  | none => .ok p
  | some title =>
    match p.headers.heading 0 (.text title) with
    | .ok heading => .ok { p with title := title, heading := heading }
    | .error e => .error (.rst e)

/-- Puts an entry at the end of a page. -/
def addEntry (p : Page) (e : Entry) : Except PageError Page :=
  match e.block with
  | .ok b => .ok (p.add b)
  | .error v => .error (.unknownKind v)

/-- Puts entries on a page. The result also has the entries as they are afterwards. -/
def addEntries (moduleName : String) (entries : List Entry) (p : Page) :
    Except PageError (Page × List Entry) := do
  let p ← p.retitle (titleOf? entries)
  let entries := withModule moduleName entries
  let p ← entries.foldlM addEntry p
  .ok (p, entries.map Entry.shown)

end Page

end CMakeDocs
