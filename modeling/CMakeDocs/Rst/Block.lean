import CMakeDocs.Rst.Piece
import CMakeDocs.Rst.Table

/-!
# Blocks

A document is a tree of blocks. How a block is written depends on where it stands: a section starts
without indentation, a directive indents its body by one level more.
-/
namespace CMakeDocs.Rst

inductive Block where
  | paragraph (text : String)
  | field (name value : String)
  | doctest (line expected : String)
  | list (kind : ListKind) (items : List String)
  | table (t : Table)
  /-- A section, whose heading is written already. -/
  | part (heading : String) (blocks : List Block)
  | directive (name : String) (arguments : List String) (options : List (String × String))
      (blocks : List Block)
deriving Repr

/-- A section whose blocks are written already. -/
def partText (heading body : String) : String := heading ++ "\n" ++ body

/-- The options of a directive, a line each. -/
def optionsText (indent : String) (options : List (String × String)) : String :=
  String.join (options.map fun o => optionText indent o.1 o.2 ++ "\n")

/-- A directive whose body has the given level and is written already. -/
def directiveText (level : Int) (name : String) (arguments : List String)
    (options : List (String × String)) (body : String) : String :=
  directiveHeadingText (indentation (level - 1)) name (",".intercalate arguments) ++ "\n" ++
    optionsText (indentation level) options ++ (if body = "" then "" else "\n" ++ body)

namespace Block

mutual

/-- A block inside something with an indentation. -/
def text (indent : Int) : Block → String
  | paragraph text => paragraphText (indentation indent) text
  | field name value => fieldText (indentation indent) name value
  | doctest line expected => doctestText (indentation indent) line expected
  | list kind items => listText kind (indentation indent) items
  | table t => t.text
  | part heading blocks => partText heading (textOfAll 0 blocks)
  | directive name arguments options blocks =>
    directiveText (indent + 1) name arguments options (textOfAll (indent + 1) blocks)

/-- Blocks one below the other. -/
def textOfAll (indent : Int) : List Block → String
  | [] => ""
  | b :: bs => b.text indent ++ "\n" ++ textOfAll indent bs

end

end Block

end CMakeDocs.Rst
