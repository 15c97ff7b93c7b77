import CMakeDocs.Text.Lines

/-!
# Paths

A path is a text with slashes between its parts. Everything here goes by the text alone and asks
no file system.
-/
namespace CMakeDocs.Path

def isAbsolute (path : String) : Bool := path.toList.head? = some '/'

/-- The parts between the slashes. -/
def parts (path : String) : List String := (Text.splitChars '/' path.toList).map String.ofList

/-- One path below another; an absolute path replaces it. -/
def join (first second : String) : String :=
  if isAbsolute second then second
  else if first = "" || first.toList.getLast? = some '/' then first ++ second
  else first ++ "/" ++ second

/-- The part after the last slash. -/
def baseName (path : String) : String := (parts path).getLastD ""

/-- The part up to the last slash, without slashes at its end unless it has nothing else. -/
def folderName (path : String) : String :=
  let cs := path.toList
  let head := cs.take (cs.length - (baseName path).length)
  let trimmed := (head.reverse.dropWhile (· = '/')).reverse
  String.ofList (if trimmed.isEmpty then head else trimmed)

/-- Takes back a part where a path goes up, as far as there is one. -/
def normalizeParts (absolute : Bool) : List String → List String → List String
  | done, [] => done.reverse
  | done, part :: rest =>
    if part = "" || part = "." then normalizeParts absolute done rest
    else if part = ".." then
      match done with
      | [] => normalizeParts absolute (if absolute then [] else [".."]) rest
      | last :: before =>
        if last = ".." then normalizeParts absolute (".." :: done) rest
        else normalizeParts absolute before rest
    else normalizeParts absolute (part :: done) rest

/-- The slashes in front of a path: none, one, or two if there are exactly two. -/
def rootText (path : String) : String :=
  match (path.toList.takeWhile (· = '/')).length with
  | 0 => ""
  | 2 => "//"
  | _ => "/"

/-- The path without needless parts. -/
def normalize (path : String) : String :=
  let text := rootText path ++ "/".intercalate (normalizeParts (isAbsolute path) [] (parts path))
  if text = "" then "." else text

/-- The path from the root, for a path that starts at a folder. -/
def absolute (folder path : String) : String := normalize (join folder path)

/-- What is left of two lists after their common start. -/
def dropCommon : List String → List String → List String × List String
  | x :: xs, y :: ys => if x = y then dropCommon xs ys else (x :: xs, y :: ys)
  | xs, ys => (xs, ys)

/-- The way from a start to a path, both absolute and normal. -/
def relative (path start : String) : String :=
  let named (p : String) := (parts p).filter (· ≠ "")
  let (down, up) := dropCommon (named path) (named start)
  let way := up.map (fun _ => "..") ++ down
  if way.isEmpty then "." else "/".intercalate way

/-- The name of a file without what follows its last dot; nothing if there is no dot. -/
def stem (name : String) : String := ".".intercalate (Text.splitDots name).dropLast

/-- What follows the last dot of a name; the name itself if there is no dot. -/
def extension (name : String) : String := (Text.splitDots name).getLastD ""

end CMakeDocs.Path
