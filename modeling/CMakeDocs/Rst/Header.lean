import CMakeDocs.Rst.Made
import CMakeDocs.Settings

/-!
# Underlines by depth

A depth counts from the front of the sequence of underlines, or from its end if it is below zero.
-/
namespace CMakeDocs

namespace Headers

/-- The underline of a depth. -/
def at? (h : Headers) (depth : Int) : Except Rst.Error Value :=
  match h with
  | preset =>
    match Value.itemAt? presetChars depth with
    | some s => .ok (.text s)
    | none => .error (.misuse (.noItem "tuple"))
  | given .null => ((Value.list (presetChars.map .text)).item depth).mapError .misuse
  | given v => (v.item depth).mapError .misuse

/-- The heading of a title at a depth. -/
def heading (h : Headers) (depth : Int) (title : Value) : Except Rst.Error String := do
  let header ← h.at? depth
  Rst.headingOf header title

/-- A directive needs an underline although it shows none. -/
def checkDirective (h : Headers) : Except Rst.Error Unit := (h.at? 0).map fun _ => ()

end Headers

end CMakeDocs
