import CMakeDocs.Command
import CMakeDocs.Text.Names
import CMakeDocs.Value

/-!
# Settings

The settings as the rest of the library uses them. Switches are taken for what they count as;
values that have to be of some kind are kept as they are, because a wrong kind shows only when
the value is used.
-/
namespace CMakeDocs

/-- The characters that underline titles, one for each depth. -/
inductive Headers where
  /-- The characters that hold when nothing is set. -/
  | preset
  | given (v : Value)
deriving Repr

namespace Headers

def presetChars : List String := ["#", "*", "=", "-", "_", "~", "!", "&", "@", "^"]

end Headers

structure Settings where
  /-- Whether a command of a kind gets an entry without a comment. -/
  includes : CommandKind → Bool
  /-- The text in a comment that says that a definition takes keyword arguments. -/
  keywordTrigger : Value
  /-- What is deleted from the names of parameters. -/
  functionStrip : Value
  macroStrip : Value
  memberStrip : Value
  /-- The number of the character that a pattern calls by a name. Which names there are is up to the
  surroundings. -/
  characterNamed : String → Option Nat
  /-- Whether folders without CMake files are left out. -/
  autoExclude : Bool
  excludeFilters : Value
  recursive : Bool
  followLinks : Bool
  outputFolder : Value
  extensionsInTitles : Bool
  extensionsInModules : Bool
  /-- The name in front of all module paths. -/
  rootName : Value
  separator : Value
  headers : Headers

namespace Settings

/-- What is deleted from the names of parameters of functions or macros. -/
def definitionStrip (s : Settings) (isMacro : Bool) : Value :=
  if isMacro then s.macroStrip else s.functionStrip

end Settings

instance : Inhabited Settings where
  default :=
    { includes := fun _ => true
      keywordTrigger := .text ":param **kwargs:"
      functionStrip := .text ""
      macroStrip := .text ""
      memberStrip := .text ""
      characterNamed := Text.characterNamed?
      autoExclude := true
      excludeFilters := .list []
      recursive := false
      followLinks := false
      outputFolder := .null
      extensionsInTitles := false
      extensionsInModules := false
      rootName := .null
      separator := .text "."
      headers := .preset }

end CMakeDocs
