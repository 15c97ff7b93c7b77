import CMakeDocs.Document
import CMakeDocs.Ignore
import CMakeDocs.Rst.Target
import CMakeDocs.Text.Order
import CMakeDocs.World

/-!
# Documenting files and folders

A file is documented on a page of its own. A folder is walked from the top down: each folder in it
gets an index of what it holds, and each CMake file in it a page. What the exclusion filters match
is taken off the lists of names while they are gone through, so the name after one that is taken
off is not looked at.
-/
namespace CMakeDocs

inductive SiteError where
  | file (f : FileFault) (path : String)
  | document (e : DocumentError)
  | ignore (e : IgnoreError)
  | target (e : Rst.TargetError)
  /-- A path that is no text. -/
  | pathKind (v : Value)
  /-- A part of a name that is no text. -/
  | name (m : Misuse)
  /-- What is to be documented does not exist, which has been said already. -/
  | missing
deriving Repr

def SiteError.message : SiteError → String
  | file f path => f.message path
  | document e => e.message
  | ignore e => e.message
  | target e => e.message
  | pathKind v => "expected str, bytes or os.PathLike object, not " ++ v.kindName
  | name m => m.message
  | missing => "-1"

/-- A step of a run. What has happened before an error stays. -/
abbrev Run := EStateM SiteError World

namespace Site

def happen (events : List Event) : Run Unit := modify (·.happen events)

def say (level : LogLevel) (message : String) : Run Unit := happen [.log ⟨.site, level, message⟩]

def print (text : String) : Run Unit := happen [.print text]

def contents (path : String) : Run String := do
  let w ← get
  match w.files.contents w.place path with
  | .ok text => return text
  | .error f => throw (.file f path)

def makeFolders (path : String) : Run Unit := do
  let w ← get
  let (files, fault) := w.files.makeFolders w.place path
  set { w with files := files }
  match fault with
  | none => return ()
  | some (f, path) => throw (.file f path)

/-- Writes a text to a path. -/
def write (path text : String) : Run Unit := do
  match Rst.targetPath (.text path) with
  | .error e => throw (.target e)
  | .ok target =>
    happen [.write target text]
    let w ← get
    let (files, fault) := w.files.save w.place target text
    set { w with files := files }
    match fault with
    | none => return ()
    | some f => throw (.file f target)

/-- The folder for the pages, if there is one. -/
def outputFolder (s : Settings) : Run (Option String) :=
  match s.outputFolder with
  | .null => return none
  | .text path => return some path
  | v => throw (.pathKind v)

/-- A name behind the name of the root, if there is one. The name of the root stands alone where
the name is just the separator. -/
def qualified (s : Settings) (rootName : Value) (name : String) : Run Value :=
  match rootName with
  | .null => return .text name
  | root =>
    if s.separator.isText name then return root
    else
      match root.join s.separator name with
      | .ok joined => return .text joined
      | .error m => throw (.name m)

/-- A name without the ending `.cmake`, before a line end too. -/
def dropEnding (name : String) : String :=
  let ending := ".cmake".toList
  let cs := name.toList
  if ending.isSuffixOf cs then String.ofList (cs.take (cs.length - ending.length))
  else if (ending ++ ['\n']).isSuffixOf cs then
    String.ofList (cs.take (cs.length - ending.length - 1) ++ ['\n'])
  else name

/-- A name as it is shown, without its ending unless that is to stay. Only a text has an ending. -/
def shownName (keepsEnding : Bool) (name : Value) : Run String :=
  match keepsEnding, name with
  | true, v => return v.shown
  | false, .text s => return dropEnding s
  | false, v => throw (.name (.notSearched v))

/-- Whether a name is that of a CMake file, letter case aside. -/
def isCMakeName (name : String) : Bool := Text.toSmall (Path.extension name) = "cmake"

/-- Whether a name ends in `.cmake`, letter case aside. -/
def endsInCMake (name : String) : Bool :=
  ".cmake".toList.isSuffixOf (Text.toSmall name).toList

/-- Whether a name ends in `.cmake` in small letters. -/
def endsInSmallCMake (name : String) : Bool := ".cmake".toList.isSuffixOf name.toList

/-- The text of the page of a file. -/
def pageText (s : Settings) (file title moduleName : String) : Run String := do
  match Page.new s.headers title with
  | .error e => throw (.document (.page (.rst e)))
  | .ok _ =>
    let text ← contents file
    match Document.new s.headers file (some title) (some moduleName) text with
    | .error e => throw (.document e)
    | .ok d =>
      let p := d.process s
      happen (p.document.reader.reports.map .report ++ p.logs.map .log)
      match p.error with
      | some e => throw (.document e)
      | none => return p.document.page.text

/-- Where the page of a file goes. -/
def pagePath (output file : String) (subfolder : Option String) : String :=
  let name := Path.stem (Path.baseName file) ++ ".rst"
  match subfolder with
  | none => Path.join output name
  | some folder => Path.join output (Path.join folder name)

/-- Documents one file, which is named by its way from the root if that is a folder. -/
def documentFile (s : Settings) (rootName : Value) (root file : String) : Run Unit := do
  let w ← get
  let below := if w.isFolder root then some (w.relative file root) else none
  let name ← qualified s rootName (below.getD file)
  let title ← shownName s.extensionsInTitles name
  let moduleName ← shownName s.extensionsInModules name
  match ← outputFolder s with
  | none =>
    let text ← pageText s file title moduleName
    print (text ++ "\n\n")
  | some output =>
    say .info ("Writing for file " ++ file)
    let text ← pageText s file title moduleName
    makeFolders output
    let w ← get
    if w.isFolder output then
      let path := pagePath output file (below.map Path.folderName)
      say .info ("Writing RST file " ++ path)
      write path text

/-- Takes names off a list while going through it: the name after one that is taken off is kept
without a look. -/
def prune (excluded : String → Bool) : List String → List String
  | [] => []
  | [x] => if excluded x then [] else [x]
  | x :: y :: rest =>
    if excluded x then y :: prune excluded rest else x :: prune excluded (y :: rest)

/-- Whether a folder holds a CMake file itself. -/
def holdsCMake (w : World) (folder : String) : Bool :=
  ((w.names? folder).getD []).any fun name =>
    endsInSmallCMake name && w.isFile (Path.join folder name)

/-- What the index of a folder lists. -/
def indexEntries (s : Settings) (folders files : List String) : List String :=
  (if s.recursive then folders.map (Path.join · "index.rst") else []) ++
    (files.filter endsInCMake).map Path.stem

/-- The text of the index of a folder, below its heading. -/
def indexText (s : Settings) (heading : String) (folders files : List String) : String :=
  let tree : Rst.Block := .directive "toctree" [] [("maxdepth", "2")]
    ((indexEntries s folders files).map .paragraph)
  Rst.partText heading (Rst.Block.textOfAll 0 [tree])

/-- The heading of a title. -/
def headingFor (s : Settings) (title : Value) : Run String :=
  match s.headers.heading 0 title with
  | .ok heading => return heading
  | .error e => throw (.document (.page (.rst e)))

/-- Writes the index of a folder below the root. -/
def writeIndex (s : Settings) (rootName : Value) (root folder output : String)
    (folders files : List String) : Run Unit := do
  let w ← get
  let way := w.relative folder root
  makeFolders (Path.join output way)
  let _ ← headingFor s (.text way)
  let heading ← headingFor s (← qualified s rootName way)
  write (Path.join (Path.join output way) "index.rst") (indexText s heading folders files)

/-- Writes the index of a folder, if there is a folder for the pages. -/
def putIndex (s : Settings) (rootName : Value) (root folder : String)
    (folders files : List String) : Run Unit := do
  match ← outputFolder s with
  | none => return ()
  | some output => writeIndex s rootName root folder output folders files

/-- What comes of a visit to a folder: the folders to go on to, and whether the walk is over. -/
structure Visit where
  folders : List String
  isLast : Bool
deriving Repr

section

variable {m : Type → Type} [Monad m] [MonadStateOf World m]

/-- Visits a folder of a walk. What is done with an index and with a file is up to the walk. -/
def visit (s : Settings) (excluded : String → Bool)
    (index : String → List String → List String → m Unit) (document : String → m Unit)
    (folder : String) (folders files : List String) : m Visit := do
  let folders := prune (fun name => excluded (Path.join folder (Path.join name ""))) folders
  let files := prune (fun name => excluded (Path.join folder name)) files
  let w ← getThe World
  let folders :=
    if s.autoExclude then folders.filter fun name => holdsCMake w (Path.join folder name)
    else folders
  if s.autoExclude && !files.any endsInSmallCMake then return ⟨folders, false⟩
  let sortedFiles := Text.sort files
  index folder (Text.sort folders) sortedFiles
  (sortedFiles.filter isCMakeName).forM fun name => document (Path.join folder name)
  return ⟨folders, !s.recursive⟩

/-- Goes through folders one after the other, until one of them ends the walk. -/
def walkAll (enter : String → m Bool) : List String → m Bool
  | [] => return false
  | folder :: rest => do
    if ← enter folder then return true else walkAll enter rest

/-- Walks a folder from the top down to a depth, and tells whether a visit has ended the walk. -/
def walk (s : Settings) (visitFolder : String → List String → List String → m Visit) :
    Nat → String → m Bool
  | 0, _ => return false
  | depth + 1, folder => do
    match (← getThe World).listing? folder with
    | none => return false
    | some (folders, files) =>
      let v ← visitFolder folder folders files
      if v.isLast then return true
      else
        walkAll (fun name => do
          let path := Path.join folder name
          if !s.followLinks && (← getThe World).isLink path then return false
          else walk s visitFolder depth path) v.folders

/-- How deep a walk can get: between two links it goes down the tree, and there are only so many
links on a path. -/
def walkDepth (w : World) : Nat := (FileTree.linkLimit + 2) * (w.files.nodes.length + 2)

/-- Walks everything in a folder. -/
def walkFolder (s : Settings) (visitFolder : String → List String → List String → m Visit)
    (root : String) : m Unit := do
  let depth := walkDepth (← getThe World)
  let _ ← walk s visitFolder depth root
  return ()

end

/-- The name of the root, which is that of the folder unless another one is given. -/
def rootNameFor (s : Settings) (input : String) : Value :=
  match s.rootName with
  | .null => .text (Path.baseName (Path.normalize input))
  | v => v

/-- Documents everything in a folder. -/
def documentFolder (s : Settings) (excluded : String → Bool)
    (document : Value → String → String → Run Unit) (input root : String) : Run Unit :=
  let rootName := rootNameFor s input
  walkFolder s (visit s excluded (putIndex s rootName root) (document rootName root)) root

/-- Documents a file or a folder. -/
def document (s : Settings) (input : String) : Run Unit := do
  let w ← get
  let path := w.absolute input
  let path := if w.isFolder path then Path.join path "" else path
  match Ignore.rulesOf s.excludeFilters with
  | .error e => throw (.ignore e)
  | .ok rules =>
    let excluded := Ignore.isExcluded rules
    if excluded path then return ()
    if !w.isPresent path then
      say .error ("File or directory \"" ++ path ++ "\" does not exist")
      throw .missing
    else if w.isFile path then
      match ← outputFolder s with
      | none => pure ()
      | some output => makeFolders output
      documentFile s s.rootName path path
    else if w.isFolder path then
      documentFolder s excluded (documentFile s) input path
    else
      say .error "File is a special file (socket, FIFO, device file) and is unsupported"

/-- Documents one thing after the other, until there is an error. -/
def documentAll (s : Settings) (inputs : List String) : Run Unit := inputs.forM (document s)

end Site

end CMakeDocs
