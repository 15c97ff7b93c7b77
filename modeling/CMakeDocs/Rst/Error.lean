import CMakeDocs.Value.Use

/-!
# What can be wrong with a document
-/
namespace CMakeDocs.Rst

inductive Error where
  /-- A value is used for something that its kind does not allow. -/
  | misuse (m : Misuse)
  | headingCount
  | columnCount
  | unknownList
  /-- Only directives have options. -/
  | noOptions
deriving Repr

namespace Error

def message : Error → String
  | misuse m => m.message
  | headingCount => "Different number of headings than number of columns in table"
  | columnCount => "Number of columns in table is inconsistent"
  | unknownList => "Unknown list type"
  | noOptions => "'RSTWriter' object has no attribute 'option'"

end Error

instance : MonadLift (Except Misuse) (Except Error) where
  monadLift x := x.mapError Error.misuse

end CMakeDocs.Rst
