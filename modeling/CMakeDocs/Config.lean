import CMakeDocs.CommandLine
import CMakeDocs.FileTree
import CMakeDocs.Log.Setup
import CMakeDocs.Settings.Groups
import CMakeDocs.Value.Reader
import CMakeDocs.Value.Use

/-!
# Layered configuration

The configuration has layers: the command line, a settings file, the file of the user, and the
presets. A setting takes its value from the first layer that has it, and that value has to be of
the right kind. Only the exclusion filters of all layers are put together.
-/
namespace CMakeDocs

structure Layer where
  values : Value
  /-- The file that the layer was read from. -/
  file : Option String
deriving Repr

inductive ConfigError where
  /-- A file that cannot be opened. -/
  | unopened (path : String) (f : FileFault)
  /-- A file that is not written as it should be. -/
  | unreadable (path : String) (f : Value.TextFault)
  /-- A file whose value cannot be gone through. -/
  | noRecord (v : Value)
  /-- An item of a file that is no pair. -/
  | noPair (index : Nat) (count : Nat)
  /-- An item of a file that cannot be gone through. -/
  | noSequence (index : Nat)
  /-- A name that is a list or a record. -/
  | noName (v : Value)
  /-- A group that has no names in it. -/
  | noGroup (view : String) (v : Value)
  | kind (view : String) (wanted : String) (v : Value)
  | notText (view : String)
  | notTexts (view : String)
  | notWords (view : String)
  | notIterable (view : String) (v : Value)
  /-- A settings file whose path is no text. -/
  | noPath (v : Value)
  /-- A configuration of the messages that is not as it should be. -/
  | logging (e : LogConfigError)
deriving Repr

namespace ConfigError

def message : ConfigError → String
  | unopened path f =>
    if f.number = 0 then f.text else path ++ " could not be read: " ++ f.message path
  | unreadable path f => path ++ " could not be read: " ++ f.message path
  | noRecord v => "'" ++ v.kindName ++ "' object is not iterable"
  | noPair index count =>
    s!"dictionary update sequence element #{index} has length {count}; 2 is required"
  | noSequence index => s!"cannot convert dictionary update sequence element #{index} to a sequence"
  | noName v => "unhashable type: '" ++ v.kindName ++ "'"
  | noGroup view v => view ++ " must be a collection, not " ++ v.kindName
  | kind view wanted v => view ++ ": must be a " ++ wanted ++ ", not " ++ v.kindName
  | notText view => view ++ ": must be a string"
  | notTexts view => view ++ ": must be a list of strings"
  | notWords view => view ++ ": must be a whitespace-separated string or a list"
  | notIterable view v => view ++ " must be an iterable, not " ++ v.kindName
  | noPath v => "expected str, bytes or os.PathLike object, not " ++ v.kindName
  | logging e => e.message

end ConfigError

namespace Config

/-- The value of a name in a group of a layer. -/
def valueIn (layer : Layer) (group key : String) : Except ConfigError (Option Value) :=
  match layer.values.get? group with
  | none => .ok none
  | some (.record _ fields) => .ok (fields.lookup key)
  | some v => .error (.noGroup group v)

/-- The first layer that has a name, with its value. -/
def first? (group key : String) : List Layer → Except ConfigError (Option (Value × Layer))
  | [] => .ok none
  | layer :: rest => do
    match ← valueIn layer group key with
    | some v => .ok (some (v, layer))
    | none => first? group key rest

/-- The values of a name in all layers. -/
def all (group key : String) : List Layer → Except ConfigError (List Value)
  | [] => .ok []
  | layer :: rest => do
    let v ← valueIn layer group key
    let vs ← all group key rest
    .ok (v.toList ++ vs)

/-- What the value of a setting has to be. -/
inductive Check where
  | switch
  | text
  /-- A text, or the given one in place of the null value. -/
  | optionalText (preset : Value)
  | filters
  | folder
  /-- Texts, or words in one text. -/
  | texts
deriving Repr

/-- The settings of all groups in the order in which they are checked. -/
def inputChecks : List (String × Check) :=
  [("include_undocumented_function", .switch), ("include_undocumented_macro", .switch),
   ("include_undocumented_cpp_class", .switch), ("include_undocumented_cpp_attr", .switch),
   ("include_undocumented_cpp_constructor", .switch), ("include_undocumented_cpp_member", .switch),
   ("include_undocumented_ct_add_test", .switch), ("include_undocumented_add_test", .switch),
   ("include_undocumented_ct_add_section", .switch), ("include_undocumented_option", .switch),
   ("auto_exclude_directories_without_cmake", .switch),
   ("kwargs_doc_trigger_string", .optionalText (.text ":keyword")), ("exclude_filters", .filters),
   ("function_parameter_name_strip_regex", .optionalText (.text "")),
   ("macro_parameter_name_strip_regex", .optionalText (.text "")),
   ("member_parameter_name_strip_regex", .optionalText (.text "")), ("recursive", .switch),
   ("follow_symlinks", .switch)]

def outputChecks : List (String × Check) :=
  [("directory", .folder), ("relative_to_config", .switch)]

def rstChecks : List (String × Check) :=
  [("file_extensions_in_titles", .switch), ("file_extensions_in_modules", .switch),
   ("module_path_separator", .text), ("headers", .texts), ("prefix", .optionalText .null)]

/-- What holds if no layer has a setting. -/
def Check.preset : Check → Value
  | optionalText v => v
  | filters => .list []
  | texts => .list []
  | switch => .bool false
  | text => .text "."
  | folder => .null

/-- Where paths of a layer start. -/
def startOf (current : String) (relativeToConfig : Bool) (layer : Layer) : String :=
  match relativeToConfig, layer.file with
  | true, some file => Path.folderName file
  | _, _ => current

/-- A list of texts. -/
def textsOf (view : String) (vs : List Value) : Except ConfigError Value :=
  if vs.all fun v => v.kindName = "str" then .ok (.list vs) else .error (.notTexts view)

/-- The value of a setting, if it is of the right kind. -/
def Check.apply (view start : String) : Check → Value → Except ConfigError Value
  | switch, .bool b => .ok (.bool b)
  | switch, v => .error (.kind view "bool" v)
  | text, .text s => .ok (.text s)
  | text, _ => .error (.notText view)
  | optionalText preset, .null => .ok preset
  | optionalText _, .text s => .ok (.text s)
  | optionalText _, _ => .error (.notText view)
  | filters, .null => .ok (.list [])
  | filters, .list vs => .ok (.list vs)
  | filters, .text s => .ok (.text s)
  | filters, v => .error (.kind view "Sequence" v)
  | folder, .null => .ok .null
  | folder, .text s => .ok (.text (Path.absolute start s))
  | folder, v => .error (.kind view "filename" v)
  | texts, .text s => .ok (.list ((Text.words s).map .text))
  | texts, .list vs => textsOf view vs
  | texts, .record _ fields => .ok (.list (fields.map fun kv => .text kv.1))
  | texts, _ => .error (.notWords view)

/-- The checked values of a group. -/
def checkGroup (layers : List Layer) (startOf : Layer → String) (group : String) :
    List (String × Check) → Except ConfigError (List (String × Value))
  | [] => .ok []
  | (key, check) :: rest => do
    let v ← match ← first? group key layers with
      | none => .ok check.preset
      | some (v, layer) => check.apply (group ++ "." ++ key) (startOf layer) v
    let more ← checkGroup layers startOf group rest
    .ok ((key, v) :: more)

/-- The configuration of the messages, which is a record. -/
def checkLogging (layers : List Layer) : Except ConfigError Value :=
  let logging : Option Value := layers.findSome? fun layer => layer.values.get? "logging"
  match logging with
  | some (.record isOrdered fields) => .ok (.record isOrdered fields)
  | some v => .error (.kind "logging" "dict" v)
  | none => .ok (.record false [])

/-- The items of a value that can be gone through. -/
def iterate (view : String) (v : Value) : Except ConfigError (List Value) :=
  v.iterate.mapError fun _ => .notIterable view v

/-- The exclusion filters of all layers. -/
def allFilters (layers : List Layer) : Except ConfigError (List Value) := do
  let vs ← all "input" "exclude_filters" layers
  let lists ← vs.mapM (iterate "input.exclude_filters")
  .ok lists.flatten

/-- How messages are told unless something else is set: lines with time, teller and level. -/
def presetLogging : Value :=
  let format := "%(asctime)s - %(name)s - %(levelname)s - %(message)s"
  let outlet : Value := .record true [("class", .text "logging.StreamHandler"),
    ("level", .text "INFO"), ("formatter", .text "simple"), ("stream", .text "ext://sys.stdout")]
  let teller (more : List (String × Value)) : Value :=
    .record true ([("level", .text "DEBUG"), ("handlers", .list [.text "console"])] ++ more)
  .record true [("version", .int 1),
    ("formatters", .record true [("simple", .record true [("format", .text format)])]),
    ("handlers", .record true [("console", outlet)]),
    ("loggers", .record true [(LogSource.site.name, teller [("propagate", .bool false)])]),
    ("root", teller [])]

/-- What holds without any configuration. -/
def presets : Layer :=
  let input := (SettingGroup.presets .input).filterMap fun kv =>
    if kv.1 = "exclude_filters" then none
    else if kv.1 = "kwargs_doc_trigger_string" then some (kv.1, .text ":keyword")
    else some kv
  let rst := (SettingGroup.presets .rst).filter fun kv => kv.1 ≠ "prefix"
  ⟨.record true [("input", .record true input),
    ("output", .record true [("relative_to_config", .bool false)]), ("logging", presetLogging),
    ("rst", .record true rst)], none⟩

/-- The name that a value stands for; what is neither a text nor a collection is a name that
nothing asks for. -/
def nameOf : Value → Except ConfigError (Option String)
  | .text s => .ok (some s)
  | .list vs => .error (.noName (.list vs))
  | .record isOrdered fields => .error (.noName (.record isOrdered fields))
  | _ => .ok none

/-- Adds the pairs of a sequence to fields, from an index on. -/
def addPairs : Nat → List (String × Value) → List Value →
    Except ConfigError (List (String × Value))
  | _, fields, [] => .ok fields
  | index, fields, item :: rest =>
    match item.sequence? with
    | none => .error (.noSequence index)
    | some [key, v] => do
      match ← nameOf key with
      | some name => addPairs (index + 1) (Value.setField fields name v) rest
      | none => addPairs (index + 1) fields rest
    | some items => .error (.noPair index items.length)

/-- The fields of the value of a file: those of a record, or pairs of names and values. A value that
counts as false has none. -/
def fieldsOf (v : Value) : Except ConfigError (List (String × Value)) :=
  match v with
  | .record _ fields => .ok fields
  | v =>
    if !v.isTrue then .ok []
    else
      match v.sequence? with
      | some items => addPairs 0 [] items
      | none => .error (.noRecord v)

/-- The layer of a text. -/
def layerOf (path text : String) : Except ConfigError Layer :=
  match Value.ofText text with
  | .error f => .error (.unreadable path f)
  | .ok v => (fieldsOf v).map fun fields => ⟨.record false fields, some path⟩

/-- The groups that have something in them. -/
def nonEmptyGroups (groups : List (String × List (String × Value))) : List (String × Value) :=
  (groups.filter fun g => !g.2.isEmpty).map fun g => (g.1, .record false g.2)

/-- The argument of an option as a value. -/
def argumentValue : CommandLine.Argument → Value
  | .text s => .text s
  | .dropped => .list []

/-- The layer of a command line. -/
def commandLayer (o : CommandLine.Options) : Layer :=
  let texts (key : String) (a : Option CommandLine.Argument) :=
    a.toList.map fun a => (key, argumentValue a)
  let filters := if o.excludes.isEmpty then [] else
    [("exclude_filters", Value.list (o.excludes.map argumentValue))]
  let recursive := if o.recursive then [("recursive", Value.bool true)] else []
  ⟨.record false (nonEmptyGroups [("input", filters ++ recursive),
    ("output", texts "directory" o.output), ("rst", texts "prefix" o.rootName)]), none⟩

/-- The settings of layers, and the configuration of the messages. -/
def settingsOf (current : String) (layers : List Layer) :
    Except ConfigError (Settings × Value) := do
  let relative ← first? "output" "relative_to_config" layers
  let start := startOf current (relative.any fun v => v.1.isTrue)
  let input ← checkGroup layers start "input" inputChecks
  let output ← checkGroup layers start "output" outputChecks
  let logging ← checkLogging layers
  let rst ← checkGroup layers start "rst" rstChecks
  let filters ← allFilters layers
  let groups : SettingGroups := ⟨input, output, logging.fields, rst⟩
  .ok ({ groups.toSettings with excludeFilters := .list filters }, logging)

end Config

end CMakeDocs
