import CMakeDocs.Entry.Block
import CMakeDocs.Proofs.Documenting.Indented

/-!
# Entries that keep to themselves

An entry stands on the page as a directive: a heading on one line, and below it lines that are blank
or indented. The documentation is written so whatever it says. What a command is called with is
written as it is, in the heading and in fields, so a line feed in there can end the directive.
-/
namespace CMakeDocs

open Rst (Block Steady IndentedBy headingLine belowHeading optionText)

namespace Text

/-- A text without a line feed. -/
def OneLine (s : String) : Prop := '\n' ∉ s.toList

instance (s : String) : Decidable (OneLine s) := inferInstanceAs (Decidable ('\n' ∉ s.toList))

variable {first second mark : String}

theorem oneLine_ofList {cs : List Char} (h : '\n' ∉ cs) : OneLine (String.ofList cs) := by
  rwa [OneLine, String.toList_ofList]

theorem oneLine_append : OneLine (first ++ second) ↔ OneLine first ∧ OneLine second := by
  simp [OneLine]

theorem oneLine_intercalate (hmark : OneLine mark) (ls : List String) :
    OneLine (mark.intercalate ls) ↔ ∀ l ∈ ls, OneLine l := by
  induction ls with
  | nil => simp [OneLine]
  | cons l ls ih =>
    cases ls with
    | nil => simp
    | cons l' ls =>
      rw [String.intercalate_cons_cons, oneLine_append, oneLine_append, and_iff_left hmark, ih]
      exact List.forall_mem_cons.symm

end Text

open Text (OneLine oneLine_ofList oneLine_append oneLine_intercalate)

namespace Rst.Block

variable {name argument value : String} {arguments : List String}
  {options : List (String × String)} {blocks : List Block} {b : Block}

/-- The heading of a block, if it is a directive. -/
def headingLine? : Block → Option String
  | directive name arguments _ _ => some (headingLine name arguments)
  | _ => none

/-- A directive whose heading is one line, with blank or indented lines below it. -/
def Contained (b : Block) : Prop :=
  ∃ heading rest, b.headingLine? = some heading ∧ b.text 0 = "\n" ++ (heading ++ "\n" ++ rest) ∧
    OneLine heading ∧ IndentedBy 1 rest

theorem text_directive_zero (name : String) (arguments : List String)
    (options : List (String × String)) (blocks : List Block) :
    (directive name arguments options blocks).text 0 =
      "\n" ++ (headingLine name arguments ++ "\n" ++
        belowHeading 1 options (textOfAll 1 blocks)) := by
  have hindent : indentation (0 + 1 - 1) = "" := by decide
  rw [text, directiveText_eq, hindent, String.empty_append, Int.zero_add]

theorem contained_directive_iff : (directive name arguments options blocks).Contained ↔
    OneLine (headingLine name arguments) ∧
      IndentedBy 1 (belowHeading 1 options (textOfAll 1 blocks)) := by
  constructor
  · rintro ⟨heading, rest, hheading, htext, hline, hrest⟩
    obtain rfl : headingLine name arguments = heading := Option.some.inj hheading
    have hsame : belowHeading 1 options (textOfAll 1 blocks) = rest := by
      rw [text_directive_zero] at htext
      have hlists := congrArg String.toList htext
      simp only [String.toList_append] at hlists
      exact String.toList_injective (List.append_cancel_left (List.append_cancel_left hlists))
    rw [hsame]
    exact ⟨hline, hrest⟩
  · rintro ⟨hline, hrest⟩
    exact ⟨_, _, rfl, text_directive_zero name arguments options blocks, hline, hrest⟩

theorem not_contained (h : b.headingLine? = none) : ¬ b.Contained := by
  rintro ⟨heading, rest, hheading, -⟩
  rw [h] at hheading
  cases hheading

instance (b : Block) : Decidable b.Contained :=
  match b with
  | directive _ _ _ _ => decidable_of_iff _ contained_directive_iff.symm
  | paragraph _ | field _ _ | doctest _ _ | list _ _ | table _ | part _ _ =>
    .isFalse (not_contained rfl)

theorem oneLine_headingLine (h : OneLine name) :
    OneLine (headingLine name [argument]) ↔ OneLine argument := by
  have hmarks : OneLine ".. " ∧ OneLine ":: " := by decide
  rw [headingLine, String.intercalate_singleton, oneLine_append, oneLine_append, oneLine_append,
    and_iff_right hmarks.1, and_iff_left hmarks.2, and_iff_right h]

theorem steady_headingLine (h : OneLine name) :
    Steady (headingLine name [argument]) ↔ Steady argument := by
  have hmarks : OneLine ".. " ∧ OneLine ":: " := by decide
  rw [headingLine, String.intercalate_singleton]
  exact steady_append (oneLine_append.mpr ⟨oneLine_append.mpr ⟨hmarks.1, h⟩, hmarks.2⟩)

theorem contained_iff (h : OneLine name) :
    (directive name [argument] options blocks).Contained ↔
      OneLine argument ∧ (∀ o ∈ options, Steady (optionText "" o.1 o.2)) ∧
        ∀ b ∈ blocks, b.Keeps := by
  rw [contained_directive_iff, oneLine_headingLine h, indented_belowHeading (Int.le_refl 1),
    indented_textOfAll_iff (Int.le_refl 1), keepsAll_iff]

theorem keeps_directive (h : OneLine name) :
    (directive name [argument] options blocks).Keeps ↔
      Steady argument ∧ (∀ o ∈ options, Steady (optionText "" o.1 o.2)) ∧
        ∀ b ∈ blocks, b.Keeps := by
  rw [Keeps, steady_headingLine h, keepsAll_iff]

theorem keeps_paragraph (text : String) : (paragraph text).Keeps := by
  rw [Keeps]
  trivial

theorem keeps_hint (hname : OneLine name) (htext : OneLine argument) :
    (hint name argument).Keeps := by
  rw [hint, CMakeDocs.directive, keeps_directive hname]
  exact ⟨steady_of_not_mem htext, by simp, by simp⟩

theorem steady_optionText (h : OneLine name) :
    Steady (optionText "" name value) ↔ Steady value := by
  have hmarks : OneLine ("" ++ ":") ∧ OneLine ": " := by decide
  rw [optionText]
  exact steady_append (oneLine_append.mpr ⟨oneLine_append.mpr ⟨hmarks.1, h⟩, hmarks.2⟩)

theorem keeps_field (h : OneLine name) : (field name value).Keeps ↔ Steady value := by
  rw [Keeps, steady_optionText h]

end Rst.Block

open Rst.Block (contained_iff keeps_directive keeps_paragraph keeps_hint keeps_field)

theorem oneLine_callText {name arguments : String} :
    OneLine (callText name arguments) ↔ OneLine name ∧ OneLine arguments := by
  have hmarks : OneLine "(" ∧ OneLine ")" := by decide
  rw [callText, oneLine_append, oneLine_append, oneLine_append, and_iff_left hmarks.1,
    and_iff_left hmarks.2]

/-- A call is written on one line just if its name and its arguments are. -/
theorem oneLine_call {name : String} (arguments : List String) :
    OneLine (callText name (" ".intercalate arguments)) ↔
      ∀ text ∈ name :: arguments, OneLine text := by
  rw [oneLine_callText, oneLine_intercalate (by decide), List.forall_mem_cons]

namespace Method

/-- The fields of the parameters of a method, as far as it has them, are steady. -/
def FieldsSteady (m : Method) : Prop :=
  ∀ p ∈ m.params.zip m.paramTypes,
    (Text.contains (":param " ++ p.1 ++ ":") m.doc = false → Steady (p.1 ++ ": ")) ∧
      (Text.contains (":type " ++ p.1 ++ ":") m.doc = false → Steady (p.1 ++ ": " ++ p.2))

/-- What a method is called with keeps to its class. -/
def Tame (m : Method) : Prop := Steady (callText m.name m.shownParams) ∧ m.FieldsSteady

theorem keeps_paramBlocks (doc param type : String) :
    (∀ b ∈ paramBlocks doc param type, b.Keeps) ↔
      (Text.contains (":param " ++ param ++ ":") doc = false → Steady (param ++ ": ")) ∧
        (Text.contains (":type " ++ param ++ ":") doc = false →
          Steady (param ++ ": " ++ type)) := by
  have hparam : (Block.field ("param " ++ param) "").Keeps ↔ Steady (param ++ ": ") := by
    have hsplit : optionText "" ("param " ++ param) "" = ":param " ++ (param ++ ": ") := by
      have hmark : ":param " = ":" ++ "param " := by decide
      simp only [optionText, hmark, String.append_assoc, String.empty_append, String.append_empty]
    rw [Block.Keeps, hsplit, Rst.steady_append (by decide)]
  have htype : (Block.field ("type " ++ param) type).Keeps ↔ Steady (param ++ ": " ++ type) := by
    have hsplit : optionText "" ("type " ++ param) type = ":type " ++ (param ++ ": " ++ type) := by
      have hmark : ":type " = ":" ++ "type " := by decide
      simp only [optionText, hmark, String.append_assoc, String.empty_append]
    rw [Block.Keeps, hsplit, Rst.steady_append (by decide)]
  rw [paramBlocks, List.forall_mem_append]
  refine and_congr ?_ ?_
  · cases Text.contains (":param " ++ param ++ ":") doc <;> simp [hparam]
  · cases Text.contains (":type " ++ param ++ ":") doc <;> simp [htype]

/-- The blocks of a method keep to it just if its fields are steady. -/
theorem keeps_body (m : Method) :
    (∀ b ∈ (if m.isMacro then
        [hint "note" "This member is a macro and so does not introduce a new scope"] else []) ++
      .paragraph m.doc :: (m.params.zip m.paramTypes).flatMap (fun p => paramBlocks m.doc p.1 p.2),
      b.Keeps) ↔ m.FieldsSteady := by
  have hnote : ∀ b ∈ (if m.isMacro then
      [hint "note" "This member is a macro and so does not introduce a new scope"] else []),
      b.Keeps := by
    cases m.isMacro with
    | true => simpa using keeps_hint (by decide) (oneLine_ofList (by decide))
    | false => simp
  rw [List.forall_mem_append, and_iff_right hnote, List.forall_mem_cons,
    and_iff_right (keeps_paragraph m.doc), List.forall_mem_flatMap]
  exact forall₂_congr fun p _ => keeps_paramBlocks m.doc p.1 p.2

theorem keeps_block (m : Method) : m.block.Keeps ↔ m.Tame := by
  rw [block, directive, keeps_directive (by decide), m.keeps_body, Tame]
  simp

end Method

namespace Attribute

/-- What an attribute is declared with keeps to its class. -/
def Tame (a : Attribute) : Prop := Steady a.name ∧ ∀ value, a.default = some value → Steady value

theorem steady_options (a : Attribute) :
    (∀ o ∈ a.default.toList.map (fun v => ("value", v)), Steady (optionText "" o.1 o.2)) ↔
      ∀ value, a.default = some value → Steady value := by
  cases a.default with
  | none => simp
  | some value => simp [Rst.Block.steady_optionText (by decide : OneLine "value")]

theorem keeps_block (a : Attribute) : a.block.Keeps ↔ a.Tame := by
  rw [block, keeps_directive (by decide), a.steady_options, Tame]
  simp [keeps_paragraph]

end Attribute

namespace Class

/-- What a class and its members are declared with keeps to the class. -/
structure Tame (c : Class) : Prop where
  name : OneLine c.name
  constructors : ∀ m ∈ c.constructors, m.Tame
  members : ∀ m ∈ c.members, m.Tame
  attributes : ∀ a ∈ c.attributes, a.Tame
  innerClasses : ∀ name ∈ c.innerClasses, Steady (name ++ "`")

theorem keeps_titled (title : String) (blocks : List Block) :
    (∀ b ∈ titled title blocks, b.Keeps) ↔ ∀ b ∈ blocks, b.Keeps := by
  cases blocks with
  | nil => simp [titled]
  | cons b blocks =>
    rw [titled, if_neg (by simp), List.forall_mem_cons, and_iff_right (keeps_paragraph title)]

theorem keeps_innerClasses (names : List String) :
    (Block.list .bulleted (names.map (Rst.roleText "class"))).Keeps ↔
      ∀ name ∈ names, Steady (name ++ "`") := by
  have hitem : ∀ name, Steady ("* " ++ Rst.roleText "class" name) ↔ Steady (name ++ "`") := by
    intro name
    have hsplit : "* " ++ Rst.roleText "class" name = "* :class:`" ++ (name ++ "`") := by
      have hmark : "* :class:`" = "* " ++ ":" ++ "class" ++ ":`" := by decide
      simp only [Rst.roleText, hmark, String.append_assoc]
    rw [hsplit, Rst.steady_append (by decide)]
  have hmarked : (∀ p ∈ (names.map (Rst.roleText "class")).zipIdx 1, Steady ("* " ++ p.1)) ↔
      ∀ text ∈ names.map (Rst.roleText "class"), Steady ("* " ++ text) := by
    rw [← List.forall_mem_map (f := Prod.fst) (P := fun text => Steady ("* " ++ text)),
      List.zipIdx_map_fst]
  rw [Block.Keeps]
  refine hmarked.trans ?_
  rw [List.forall_mem_map]
  exact forall₂_congr fun name _ => hitem name

theorem contained_block (c : Class) : c.block.Contained ↔ c.Tame := by
  have hbases : ∀ b ∈ (if c.superclasses.isEmpty then []
      else [Block.paragraph (basesText c.superclasses)]), b.Keeps := by
    cases c.superclasses.isEmpty <;> simp [keeps_paragraph]
  have hinner : (∀ b ∈ (if c.innerClasses.isEmpty then [] else
      [Block.list .bulleted (c.innerClasses.map (Rst.roleText "class"))]), b.Keeps) ↔
      ∀ name ∈ c.innerClasses, Steady (name ++ "`") := by
    rw [← keeps_innerClasses]
    cases hempty : c.innerClasses with
    | nil => simp [Block.Keeps]
    | cons name names => simp
  rw [block, directive, contained_iff (by decide)]
  simp only [List.forall_mem_append, List.forall_mem_cons, keeps_titled, List.forall_mem_map,
    Method.keeps_block, Attribute.keeps_block, hinner, and_iff_right hbases,
    and_iff_right (keeps_paragraph c.doc)]
  constructor
  · rintro ⟨hname, -, ⟨⟨hconstructors, hmembers⟩, hattributes⟩, hinner⟩
    exact ⟨hname, hconstructors, hmembers, hattributes, hinner⟩
  · intro h
    exact ⟨h.name, by simp, ⟨⟨h.constructors, h.members⟩, h.attributes⟩, h.innerClasses⟩

end Class

namespace Entry

/-- What the command of an entry is called with keeps to its directive. The documentation of the
entry does not matter. -/
def Tame : Entry → Prop
  | definition _ d => ∀ text ∈ d.name :: d.params, OneLine text
  | variableDoc v => OneLine v.name ∧ Steady (v.value.getD "None")
  | option v help =>
    OneLine v.name ∧ Steady help ∧ Steady (v.value.getD "OFF") ∧ Steady v.kind.shown
  | generic i | test i => ∀ text ∈ i.name :: i.params, OneLine text
  | unitTest _ t => OneLine t.name
  | classDoc c => c.Tame
  | methodDoc m => OneLine (callText m.name m.shownParams) ∧ m.FieldsSteady
  | attributeDoc a => OneLine a.name ∧ ∀ value, a.default = some value → Steady value
  | moduleDoc name _ => OneLine name
  | strayComment _ _ => False

theorem contained_definition (isMacro : Bool) (d : Definition) :
    (d.block isMacro).Contained ↔ ∀ text ∈ d.name :: d.params, OneLine text := by
  have hnote : ∀ b ∈ (if isMacro then
      [hint "note" "This is a macro, and so does not introduce a new scope."] else []) ++
      [Block.paragraph d.doc], b.Keeps := by
    cases isMacro with
    | true => simpa [keeps_paragraph] using keeps_hint (by decide) (oneLine_ofList (by decide))
    | false => simp [keeps_paragraph]
  have hparams : (∀ text ∈ d.name :: d.shownParams, OneLine text) ↔
      ∀ text ∈ d.name :: d.params, OneLine text := by
    have hkeywords : ∀ text ∈ ["**kwargs"], OneLine text := by decide
    unfold Definition.shownParams
    cases d.hasKeywords with
    | true =>
      rw [if_pos rfl, List.forall_mem_cons, List.forall_mem_cons, List.forall_mem_append,
        and_iff_left hkeywords]
    | false => rfl
  rw [Definition.block, directive, contained_iff (by decide), oneLine_call, hparams]
  exact and_iff_left ⟨by simp, hnote⟩

theorem contained_variable (v : Variable) (typeName : String) (h : OneLine typeName) :
    (v.block typeName).Contained ↔ OneLine v.name ∧ Steady (v.value.getD "None") := by
  rw [Variable.block, directive, contained_iff (by decide)]
  simp [keeps_paragraph, keeps_field (by decide : OneLine "Default value"),
    keeps_field (by decide : OneLine "type"), Rst.steady_of_not_mem h]

theorem contained_option (v : Variable) (help : String) :
    (v.optionBlock help).Contained ↔
      OneLine v.name ∧ Steady help ∧ Steady (v.value.getD "OFF") ∧ Steady v.kind.shown := by
  have hnote : (Block.directive "note" [] [] [.paragraph Variable.optionNote]).Keeps := by
    rw [Block.Keeps, Block.keepsAll_iff]
    exact ⟨by decide, by simp, by simpa using keeps_paragraph _⟩
  rw [Variable.optionBlock, directive, contained_iff (by decide)]
  simp [hnote, keeps_paragraph, keeps_field (by decide : OneLine "Default value"),
    keeps_field (by decide : OneLine "type"), keeps_field (by decide : OneLine "Help text")]

theorem contained_invocation (i : Invocation) (warning : String) (h : OneLine warning) :
    (i.block warning).Contained ↔ ∀ text ∈ i.name :: i.params, OneLine text := by
  rw [Invocation.block, directive, contained_iff (by decide), oneLine_call]
  refine and_iff_left ⟨by simp, ?_⟩
  simpa [keeps_paragraph] using keeps_hint (by decide) h

theorem contained_unitTest (isSection : Bool) (t : UnitTest) :
    (t.block isSection).Contained ↔ OneLine t.name := by
  have hwhat : OneLine (if isSection then "section" else "test") := by
    cases isSection <;> decide
  have hwarning : OneLine ("This is a CMakeTest " ++ (if isSection then "section" else "test") ++
      " definition, do not call this manually.") := by
    rw [oneLine_append, oneLine_append]
    exact ⟨⟨oneLine_ofList (by decide), hwhat⟩, oneLine_ofList (by decide)⟩
  have harguments : OneLine (if t.expectFail then "EXPECTFAIL" else "") := by
    cases t.expectFail <;> decide
  rw [UnitTest.block, directive, contained_iff (by decide), oneLine_callText,
    and_iff_left harguments]
  refine and_iff_left ⟨by simp, ?_⟩
  simpa [keeps_paragraph] using keeps_hint (by decide) hwarning

/-- An entry keeps to itself just if what its command is called with does. -/
theorem contained_block_iff {e : Entry} {b : Block} (h : e.block = .ok b) :
    b.Contained ↔ e.Tame := by
  cases e with
  | definition isMacro d =>
    cases h
    exact contained_definition isMacro d
  | variableDoc v =>
    obtain ⟨name, doc, kind, value⟩ := v
    cases kind with
    | string | list | unset =>
      cases h
      exact contained_variable _ _ (by decide)
    | other v => cases h
  | option v help =>
    cases h
    exact contained_option v help
  | generic i =>
    cases h
    exact contained_invocation i _ (oneLine_ofList (by decide))
  | test i =>
    cases h
    refine contained_invocation i _ (oneLine_append.mpr ⟨?_, ?_⟩)
    · exact oneLine_ofList (by decide)
    · exact oneLine_ofList (by decide)
  | unitTest isSection t =>
    cases h
    exact contained_unitTest isSection t
  | classDoc c =>
    cases h
    exact c.contained_block
  | methodDoc m =>
    cases h
    rw [Method.block, directive, contained_iff (by decide), m.keeps_body, Tame]
    simp
  | attributeDoc a =>
    cases h
    rw [Attribute.block, contained_iff (by decide), a.steady_options, Tame]
    simp [keeps_paragraph]
  | moduleDoc name doc =>
    cases h
    rw [directive, contained_iff (by decide), Tame]
    refine and_iff_left ⟨by simp, ?_⟩
    intro b hb
    split at hb
    · simp at hb
    · simp at hb
    · rw [List.mem_singleton.mp hb]
      exact keeps_paragraph _
  | strayComment name doc =>
    cases h
    exact iff_of_false (Rst.Block.not_contained rfl) id

end Entry

end CMakeDocs
