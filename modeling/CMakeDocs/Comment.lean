import CMakeDocs.Text.Blank
import CMakeDocs.Text.Lines

/-!
# Cleaning documentation comments

A comment is written with marks: brackets where it opens and closes, a hash in front of each
line, and the indentation of the command it belongs to. Cleaning removes them. The indentation is
taken from the last line, and at most one space after the marks of a line goes with them.
-/
namespace CMakeDocs.Comment

def isOpeningMark (c : Char) : Bool := c = '#' || c = '[' || c = ']'

def isClosingMark (c : Char) : Bool := c = '#' || c = ']'

/-- How many characters stand before the first hash of a line, or its length if there is none. -/
def indentation (line : List Char) : Nat := (line.takeWhile (· ≠ '#')).length

/-- Drops a character in front. -/
def dropOne (c : Char) : List Char → List Char
  | [] => []
  | x :: xs => if x = c then xs else x :: xs

/-- A line without its indentation, its marks and one space after them. -/
def cleanLine (indent : Nat) (line : List Char) : List Char :=
  dropOne ' ' ((line.drop indent).dropWhile isOpeningMark)

/-- The last line also loses the marks at its end. -/
def cleanLast (indent : Nat) (line : List Char) : List Char :=
  Text.dropEnd isClosingMark (cleanLine indent line)

/-- The documentation in the lines of a comment, of which there is at least one. -/
def cleanLines? (ls : List String) : Option String :=
  ls.getLast?.map fun last =>
    let indent := indentation last.toList
    let cleaned := ls.dropLast.map (fun line => cleanLine indent line.toList) ++
      [cleanLast indent last.toList]
    String.ofList (dropOne '\n' (Text.joinChars '\n' cleaned))

/-- The documentation in a comment. -/
def clean (text : String) : String := (cleanLines? (Text.lines text)).getD ""

/-- The mark of a comment on the file as a whole. -/
def moduleMark : String := "@module"

/-- The name that a module comment gives to the file, and its documentation. -/
def moduleParts (text : String) : String × String :=
  match Text.lines (clean text) with
  | [] => ("", "")
  | first :: rest => (Text.trim (Text.delete moduleMark first), Text.unlines rest)

end CMakeDocs.Comment
