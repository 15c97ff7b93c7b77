import CMakeDocs.Text.Blank
import CMakeDocs.Value

/-!
# Where a document is written

A document can be written to a path. Blanks around a path do not count.
-/
namespace CMakeDocs.Rst

inductive TargetError where
  | unset
  | kind (v : Value)
deriving Repr

def TargetError.message : TargetError → String
  | unset => "File not set, cannot write RST document"
  | kind v => "File is neither a string nor a file-like object, type is <class '" ++ v.kindName ++
      "'>, cannot write RST document"

/-- The path that a value stands for. -/
def targetPath : Value → Except TargetError String
  | .null => .error .unset
  | .text s => if s = "" then .error .unset else .ok (Text.trim s)
  | v => .error (.kind v)

end CMakeDocs.Rst
