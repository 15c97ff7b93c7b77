import CMakeDocs.Text.Lines

/-!
# The pieces of a document

Each piece is written behind an indentation. A level of indentation is three spaces, so that the
body of a directive stands below the first letter of its name.
-/
namespace CMakeDocs.Rst

/-- The indentation of a level; a level below zero has none. -/
def indentation (level : Int) : String := String.ofList (List.replicate (3 * level.toNat) ' ')

/-- A text in a role. -/
def roleText (role text : String) : String := ":" ++ role ++ ":`" ++ text ++ "`"

/-- Every line of a paragraph is indented. -/
def paragraphText (indent text : String) : String :=
  Text.unlines ((Text.lines text).map (indent ++ ·))

def optionText (indent name value : String) : String := indent ++ ":" ++ name ++ ": " ++ value

def fieldText (indent name value : String) : String := "\n" ++ optionText indent name value

/-- A line that is tried out and what is expected of it. -/
def doctestText (indent line expected : String) : String :=
  "\n" ++ indent ++ ">>> " ++ line ++ "\n" ++ expected ++ "\n"

inductive ListKind where
  | enumerated
  | bulleted
deriving DecidableEq, Repr

/-- The mark in front of the item of a number. -/
def ListKind.mark : ListKind → Nat → String
  | enumerated, n => s!"{n}. "
  | bulleted, _ => "* "

/-- The items from a number on. -/
def itemsText (kind : ListKind) (indent : String) : Nat → List String → String
  | _, [] => ""
  | n, item :: items => indent ++ kind.mark n ++ item ++ "\n" ++ itemsText kind indent (n + 1) items

def listText (kind : ListKind) (indent : String) (items : List String) : String :=
  "\n" ++ itemsText kind indent 1 items

/-- An underline of a number of marks. -/
def underline (header : String) (count : Nat) : String := String.join (List.replicate count header)

/-- A title between two lines of a number of marks. -/
def linedText (header : String) (count : Nat) (title : String) : String :=
  "\n" ++ underline header count ++ "\n" ++ title ++ "\n" ++ underline header count

/-- A title between two lines as long as itself. -/
def headingText (header title : String) : String := linedText header title.length title

def directiveHeadingText (indent name arguments : String) : String :=
  "\n" ++ indent ++ ".. " ++ name ++ ":: " ++ arguments

end CMakeDocs.Rst
