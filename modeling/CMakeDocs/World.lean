import CMakeDocs.FileTree
import CMakeDocs.Log
import CMakeDocs.Position

/-!
# The surroundings of a run

A run sees a file tree and a current folder in it, and leaves behind what it has written, printed,
told and reported, in the order in which that happened. The order in which a folder lists its
names is up to the surroundings.
-/
namespace CMakeDocs

/-- Something that can be noticed of a run. -/
inductive Event where
  | print (text : String)
  /-- A text goes to the file at a path, whether it arrives there or not. -/
  | write (path text : String)
  | log (r : LogRecord)
  | report (r : Report)
deriving DecidableEq, Repr

structure World where
  files : FileTree
  /-- The current folder. -/
  current : String
  /-- The order in which names are listed. -/
  order : List String → List String
  events : List Event

namespace World

/-- The place of the current folder. -/
def place (w : World) : Address := (Path.parts w.current).filter (· ≠ "")

def absolute (w : World) (path : String) : String := Path.absolute w.current path

/-- The way from a start to a path. -/
def relative (w : World) (path start : String) : String :=
  Path.relative (w.absolute path) (w.absolute start)

def isPresent (w : World) (path : String) : Bool := w.files.isPresent w.place path

def isFolder (w : World) (path : String) : Bool := w.files.isFolder w.place path

def isFile (w : World) (path : String) : Bool := w.files.isFile w.place path

def isLink (w : World) (path : String) : Bool := w.files.isLink w.place path

/-- The names in a folder as they are listed. -/
def names? (w : World) (path : String) : Option (List String) :=
  (w.files.namesAt? w.place path).map w.order

/-- The folders and the other names in a folder. A link to a folder counts as one. -/
def listing? (w : World) (path : String) : Option (List String × List String) :=
  (w.names? path).map fun names => names.partition fun name => w.isFolder (Path.join path name)

def happen (w : World) (events : List Event) : World := { w with events := w.events ++ events }

/-- The text that was printed. -/
def printed (w : World) : String :=
  String.join (w.events.filterMap fun
    | .print text => some text
    | _ => none)

/-- The paths that were written to, each with its text. -/
def written (w : World) : List (String × String) :=
  w.events.filterMap fun
    | .write path text => some (path, text)
    | _ => none

def logs (w : World) : List LogRecord :=
  w.events.filterMap fun
    | .log r => some r
    | _ => none

def reports (w : World) : List Report :=
  w.events.filterMap fun
    | .report r => some r
    | _ => none

end World

end CMakeDocs
