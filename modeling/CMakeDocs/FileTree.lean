import CMakeDocs.Path
import CMakeDocs.Text.Quoted

/-!
# File trees

A file tree is a flat map from places, which are lists of names from the root on, to what stands
there. So writing at one place leaves all other places as they are. A path is located by following
its parts from a starting place, through at most forty links.
-/
namespace CMakeDocs

inductive Node where
  | file (text : String)
  | folder
  | link (target : String)
  /-- Neither file nor folder: a pipe, a socket, a device. -/
  | special
deriving DecidableEq, Repr

abbrev Address := List String

inductive FileFault where
  | notFound
  | notFolder
  | isFolder
  | alreadyExists
  | tooManyLinks
  | nameTooLong
  /-- No name holds the character with the number zero. -/
  | nullByte
  /-- A path or a content that cannot be encoded. -/
  | unencodable (text : String)
deriving DecidableEq, Repr

namespace FileFault

def number : FileFault → Nat
  | notFound => 2
  | notFolder => 20
  | isFolder => 21
  | alreadyExists => 17
  | tooManyLinks => 40
  | nameTooLong => 36
  | nullByte | unencodable _ => 0

def text : FileFault → String
  | notFound => "No such file or directory"
  | notFolder => "Not a directory"
  | isFolder => "Is a directory"
  | alreadyExists => "File exists"
  | tooManyLinks => "Too many levels of symbolic links"
  | nameTooLong => "File name too long"
  | nullByte => "embedded null byte"
  | unencodable text => Text.encodingMessage text

/-- The message about a fault at a path. What does not depend on the files has no number. -/
def message (f : FileFault) (path : String) : String :=
  if f.number = 0 then f.text else s!"[Errno {f.number}] {f.text}: " ++ Text.quote path

end FileFault

/-- Where a path leads. -/
inductive Located where
  | found (place : Address)
  /-- Nothing is there, but it could be made in a folder that exists. -/
  | vacant (parent : Address) (name : String) (slash : Bool)
  | fault (f : FileFault)
deriving DecidableEq, Repr

structure FileTree where
  nodes : List (Address × Node)
deriving Repr

namespace FileTree

def empty : FileTree := ⟨[]⟩

/-- What stands at a place; the root is a folder. -/
def get? (t : FileTree) (place : Address) : Option Node :=
  if place = [] then some .folder else t.nodes.lookup place

/-- Puts something at a place, and leaves all other places as they are. -/
def put (t : FileTree) (place : Address) (node : Node) : FileTree :=
  if (t.nodes.lookup place).isSome then
    ⟨t.nodes.map fun kv => if kv.1 = place then (place, node) else kv⟩
  else ⟨t.nodes ++ [(place, node)]⟩

/-- The name of a place in a folder. -/
def nameIn? (folder place : Address) : Option String :=
  match place.getLast? with
  | some name => if place = folder ++ [name] then some name else none
  | none => none

/-- The names in a folder. -/
def names (t : FileTree) (folder : Address) : List String :=
  t.nodes.filterMap fun kv => nameIn? folder kv.1

/-- How many bytes a name may have. -/
def nameLimit : Nat := 255

/-- How many bytes a path may have. -/
def pathLimit : Nat := 4095

/-- Follows parts from a place. A link is handed on with the parts after it, unless it is the last
part and `last` asks to stay at it. -/
def locateFrom (t : FileTree) (last : Bool) (onLink : Address → List String → Located) :
    Address → List String → Located
  | place, [] => .found place
  | place, part :: rest =>
    if t.get? place ≠ some .folder then .fault .notFolder
    else if part = "" || part = "." then locateFrom t last onLink place rest
    else if part = ".." then locateFrom t last onLink place.dropLast rest
    else if nameLimit < part.utf8ByteSize then .fault .nameTooLong
    else
      let next := place ++ [part]
      match t.get? next with
      | none =>
        if rest.all (· = "") then .vacant place part (!rest.isEmpty) else .fault .notFound
      | some (.link target) =>
        if last && rest.isEmpty then .found next
        else
          let start := if Path.isAbsolute target then [] else place
          onLink start (Path.parts target ++ rest)
      | some _ => locateFrom t last onLink next rest

/-- Follows parts through a number of links at most. -/
def locateThrough (t : FileTree) (last : Bool) : Nat → Address → List String → Located
  | 0 => locateFrom t last fun _ _ => .fault .tooManyLinks
  | n + 1 => locateFrom t last (locateThrough t last n)

/-- How many links a path may lead through. -/
def linkLimit : Nat := 40

/-- What is wrong with a path whatever the files are. -/
def pathFault? (path : String) : Option FileFault :=
  if (Text.unencodable? path).isSome then some (.unencodable path)
  else if path.toList.contains '\x00' then some .nullByte
  else if path = "" then some .notFound
  else if pathLimit < path.utf8ByteSize then some .nameTooLong
  else none

def locateWith (t : FileTree) (last : Bool) (folder : Address) (path : String) : Located :=
  match pathFault? path with
  | some f => .fault f
  | none =>
    let start := if Path.isAbsolute path then [] else folder
    locateThrough t last linkLimit start (Path.parts path)

/-- Where a path leads from a folder, all links followed. -/
def locate (t : FileTree) (folder : Address) (path : String) : Located :=
  t.locateWith false folder path

/-- What a path leads to. -/
def node? (t : FileTree) (folder : Address) (path : String) : Option Node :=
  match t.locate folder path with
  | .found place => t.get? place
  | _ => none

def isPresent (t : FileTree) (folder : Address) (path : String) : Bool :=
  (t.node? folder path).isSome

def isFolder (t : FileTree) (folder : Address) (path : String) : Bool :=
  t.node? folder path = some .folder

def isFile (t : FileTree) (folder : Address) (path : String) : Bool :=
  match t.node? folder path with
  | some (.file _) => true
  | _ => false

/-- Whether a path ends at a link. -/
def isLink (t : FileTree) (folder : Address) (path : String) : Bool :=
  match t.locateWith true folder path with
  | .found place =>
    match t.get? place with
    | some (.link _) => true
    | _ => false
  | _ => false

/-- The text of a file. Nothing comes out of a special file. -/
def contents (t : FileTree) (folder : Address) (path : String) : Except FileFault String :=
  match t.locate folder path with
  | .vacant _ _ _ => .error .notFound
  | .fault f => .error f
  | .found place =>
    match t.get? place with
    | some (.file text) => .ok text
    | some .folder => .error .isFolder
    | _ => .ok ""

/-- The names in the folder that a path leads to. -/
def namesAt? (t : FileTree) (folder : Address) (path : String) : Option (List String) :=
  match t.locate folder path with
  | .found place => if t.get? place = some .folder then some (t.names place) else none
  | _ => none

/-- Writes a file, which is made if nothing is there. -/
def write (t : FileTree) (folder : Address) (path text : String) : Except FileFault FileTree :=
  match t.locate folder path with
  | .vacant parent name slash =>
    if slash then .error .isFolder else .ok (t.put (parent ++ [name]) (.file text))
  | .fault f => .error f
  | .found place =>
    match t.get? place with
    | some .folder => .error .isFolder
    | some .special => .ok t
    | _ => .ok (t.put place (.file text))

/-- Writes a file, which is left empty if the text cannot be encoded. -/
def save (t : FileTree) (folder : Address) (path text : String) : FileTree × Option FileFault :=
  let isEncodable := (Text.unencodable? text).isNone
  match t.write folder path (if isEncodable then text else "") with
  | .error f => (t, some f)
  | .ok t' => (t', if isEncodable then none else some (.unencodable text))

/-- Makes one folder. -/
def makeFolder (t : FileTree) (folder : Address) (path : String) : Except FileFault FileTree :=
  match t.locateWith true folder path with
  | .vacant parent name _ => .ok (t.put (parent ++ [name]) .folder)
  | .fault f => .error f
  | .found _ => .error .alreadyExists

/-- Makes one folder unless there is one already. -/
def ensureFolder (t : FileTree) (folder : Address) (path : String) :
    FileTree × Option (FileFault × String) :=
  match t.makeFolder folder path with
  | .ok t' => (t', none)
  | .error f => if t.isFolder folder path then (t, none) else (t, some (f, path))

/-- The folder that a path stands in, and its last part; slashes at its end do not count. -/
def splitLast (path : String) : String × String :=
  if Path.baseName path = "" then
    let inner := Path.folderName path
    (Path.folderName inner, Path.baseName inner)
  else (Path.folderName path, Path.baseName path)

/-- Makes a folder and all folders above it, as far as they are not there. -/
def makeFoldersIn (t : FileTree) (folder : Address) : Nat → String →
    FileTree × Option (FileFault × String)
  | 0, _ => (t, none)
  | n + 1, path =>
    let (head, tail) := splitLast path
    if head ≠ "" && tail ≠ "" && !t.isPresent folder head then
      match makeFoldersIn t folder n head with
      | (t', some (f, where_)) =>
        if f = .alreadyExists then
          if tail = "." then (t', none) else t'.ensureFolder folder path
        else (t', some (f, where_))
      | (t', none) => if tail = "." then (t', none) else t'.ensureFolder folder path
    else t.ensureFolder folder path

def makeFolders (t : FileTree) (folder : Address) (path : String) :
    FileTree × Option (FileFault × String) :=
  t.makeFoldersIn folder (path.length + 1) path

/-- The path of a place below a folder. -/
def pathBelow? (folder place : Address) : Option String :=
  if folder.isPrefixOf place && folder.length < place.length then
    some ("/".intercalate (place.drop folder.length))
  else none

/-- What is new or changed below a folder, by path: the text of a file, or nothing for a folder. -/
def changes (before after : FileTree) (folder : Address) : List (String × Option String) :=
  after.nodes.filterMap fun (place, node) =>
    match pathBelow? folder place, node with
    | some path, .file text =>
      if before.get? place = some (.file text) then none else some (path, some text)
    | some path, .folder => if (before.get? place).isSome then none else some (path, none)
    | _, _ => none

/-- Puts a node at a path below a folder, with the folders on the way. -/
def plant (t : FileTree) (place : Address) (node : Node) : FileTree :=
  let above := (List.range place.length).map fun n => place.take n
  let t := above.foldl (fun t p => if (t.get? p).isSome then t else t.put p .folder) t
  if (t.get? place).isSome && node = .folder then t else t.put place node

end FileTree

end CMakeDocs
