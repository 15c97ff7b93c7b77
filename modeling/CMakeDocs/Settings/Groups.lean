import CMakeDocs.Settings

/-!
# Groups of settings

Settings are written in four groups of named values. A name that is not given takes its preset
value, and a name that no preset knows is a fault. The group for logging is free.
-/
namespace CMakeDocs

/-- The groups that know their names. -/
inductive SettingGroup where
  | input
  | output
  | rst
deriving DecidableEq, Repr

namespace SettingGroup

/-- The name of a group in messages. -/
def title : SettingGroup → String
  | input => "InputSettings"
  | output => "OutputSettings"
  | rst => "RSTSettings"

/-- The names of a group with their preset values. -/
def presets : SettingGroup → List (String × Value)
  | input =>
    [("include_undocumented_function", .bool true), ("include_undocumented_macro", .bool true),
     ("include_undocumented_cpp_class", .bool true), ("include_undocumented_cpp_attr", .bool true),
     ("include_undocumented_cpp_constructor", .bool true),
     ("include_undocumented_cpp_member", .bool true),
     ("include_undocumented_ct_add_test", .bool true),
     ("include_undocumented_ct_add_section", .bool true),
     ("include_undocumented_add_test", .bool true), ("include_undocumented_option", .bool true),
     ("auto_exclude_directories_without_cmake", .bool true),
     ("kwargs_doc_trigger_string", .text ":param **kwargs:"), ("exclude_filters", .list []),
     ("function_parameter_name_strip_regex", .text ""),
     ("macro_parameter_name_strip_regex", .text ""),
     ("member_parameter_name_strip_regex", .text ""), ("recursive", .bool false),
     ("follow_symlinks", .bool false)]
  | output => [("directory", .null), ("relative_to_config", .bool false)]
  | rst =>
    [("file_extensions_in_titles", .bool false), ("file_extensions_in_modules", .bool false),
     ("prefix", .null), ("module_path_separator", .text "."),
     ("headers", .list (Headers.presetChars.map .text))]

end SettingGroup

/-- A name that a group does not know. -/
structure UnknownSetting where
  group : SettingGroup
  key : String
deriving DecidableEq, Repr

namespace UnknownSetting

/-- The one name that cannot be given because it stands for the group itself. -/
def groupKey : String := "self"

def message (e : UnknownSetting) : String :=
  let problem := if e.key = groupKey then "multiple values for argument"
    else "an unexpected keyword argument"
  e.group.title ++ ".__init__() got " ++ problem ++ " '" ++ e.key ++ "'"

end UnknownSetting

/-- The values that were given, group by group. -/
structure SettingGroups where
  input : List (String × Value)
  output : List (String × Value)
  logging : List (String × Value)
  rst : List (String × Value)
deriving Repr

namespace SettingGroups

def group (g : SettingGroups) : SettingGroup → List (String × Value)
  | .input => g.input
  | .output => g.output
  | .rst => g.rst

/-- The first name of a group that has no preset. -/
def unknownIn (g : SettingGroups) (which : SettingGroup) : Option UnknownSetting :=
  ((g.group which).find? fun kv => (which.presets.lookup kv.1).isNone).map fun kv =>
    ⟨which, kv.1⟩

/-- The first unknown name of all groups. -/
def unknown? (g : SettingGroups) : Option UnknownSetting :=
  [SettingGroup.input, .output, .rst].findSome? g.unknownIn

/-- The value of a name: the one that was given, or the preset. -/
def value (g : SettingGroups) (which : SettingGroup) (key : String) : Value :=
  match (g.group which).lookup key with
  | some v => v
  | none => (which.presets.lookup key).getD .null

/-- All names of a group with their values. -/
def filled (g : SettingGroups) (which : SettingGroup) : List (String × Value) :=
  which.presets.map fun kv => (kv.1, g.value which kv.1)

/-- The switch that lets a command of a kind have an entry without a comment. -/
def inclusionKey : CommandKind → String
  | .definition isMacro =>
    if isMacro then "include_undocumented_macro" else "include_undocumented_function"
  | .option => "include_undocumented_option"
  | .test => "include_undocumented_add_test"
  | .unitTest isSection =>
    if isSection then "include_undocumented_ct_add_section"
    else "include_undocumented_ct_add_test"
  | .classStart => "include_undocumented_cpp_class"
  | .member isConstructor =>
    if isConstructor then "include_undocumented_cpp_constructor"
    else "include_undocumented_cpp_member"
  | .classAttribute => "include_undocumented_cpp_attr"
  | _ => ""

def headers (g : SettingGroups) : Headers :=
  match g.rst.lookup "headers" with
  | some v => .given v
  | none => .preset

def toSettings (g : SettingGroups) : Settings :=
  { includes := fun kind => (g.value .input (inclusionKey kind)).isTrue
    keywordTrigger := g.value .input "kwargs_doc_trigger_string"
    functionStrip := g.value .input "function_parameter_name_strip_regex"
    macroStrip := g.value .input "macro_parameter_name_strip_regex"
    memberStrip := g.value .input "member_parameter_name_strip_regex"
    characterNamed := Text.characterNamed?
    autoExclude := (g.value .input "auto_exclude_directories_without_cmake").isTrue
    excludeFilters := g.value .input "exclude_filters"
    recursive := (g.value .input "recursive").isTrue
    followLinks := (g.value .input "follow_symlinks").isTrue
    outputFolder := g.value .output "directory"
    extensionsInTitles := (g.value .rst "file_extensions_in_titles").isTrue
    extensionsInModules := (g.value .rst "file_extensions_in_modules").isTrue
    rootName := g.value .rst "prefix"
    separator := g.value .rst "module_path_separator"
    headers := g.headers }

/-- The settings of groups without an unknown name. -/
def toSettings? (g : SettingGroups) : Except UnknownSetting Settings :=
  match g.unknown? with
  | some e => .error e
  | none => .ok g.toSettings

end SettingGroups

end CMakeDocs
