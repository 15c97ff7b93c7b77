import CMakeDocs.Page
import CMakeDocs.Proofs.Documenting.Tame
import CMakeDocs.Rst.Store

/-!
# Documentation as it was written

The documentation of an entry stands below its heading line by line. Every entry with a heading has
its documentation as a paragraph, a paragraph has all its lines indented, and blocks are written one
below the other, so that the lines of one block are never torn apart. This holds at any level: what
a class holds is shown in the same way one level deeper.
-/
namespace CMakeDocs

namespace Rst

/-- The lines of a text stand in another one, one after the other. -/
def Within (part text : String) : Prop := Text.lines part <:+: Text.lines text

/-- A text shows a documentation at a level: the lines of the documentation stand in it one after
the other, each behind three spaces for every level, and without these spaces they make up the
documentation again. -/
def ShowsAt (level : Int) (doc text : String) : Prop :=
  ∃ shown : List String, shown <:+: Text.lines text ∧
    shown = (Text.lines doc).map (String.ofList (List.replicate (3 * level.toNat) ' ') ++ ·) ∧
    Text.unlines (shown.map fun line => String.ofList (line.toList.drop (3 * level.toNat))) = doc

variable {part text doc : String} {level : Int}

theorem within_below (before text : String) : Within text (before ++ "\n" ++ text) := by
  rw [Within, Text.lines_newline]
  exact (List.suffix_append _ _).isInfix

theorem within_above (text after : String) : Within text (text ++ "\n" ++ after) := by
  rw [Within, Text.lines_newline]
  exact (List.prefix_append _ _).isInfix

theorem Within.trans {whole : String} (h : Within part text) (hw : Within text whole) :
    Within part whole := List.IsInfix.trans h hw

theorem ShowsAt.within (h : ShowsAt level doc part) (hp : Within part text) :
    ShowsAt level doc text := by
  obtain ⟨shown, hshown, hlines, hdoc⟩ := h
  exact ⟨shown, hshown.trans hp, hlines, hdoc⟩

/-- A paragraph shows what it is made of. -/
theorem showsAt_paragraphText (level : Int) (doc : String) :
    ShowsAt level doc (paragraphText (indentation level) doc) := by
  refine ⟨_, (lines_paragraphText level doc).symm ▸ List.infix_rfl, rfl, ?_⟩
  rw [List.map_map]
  simpa [Function.comp_def, indentation] using Text.unlines_lines doc

/-- Each of the texts that stand one below the other keeps its lines. -/
theorem within_endedLines {texts : List String} (h : part ∈ texts) :
    Within part (Text.endedLines texts) := by
  induction texts with
  | nil => cases h
  | cons first rest ih =>
    rw [Text.endedLines_cons]
    rcases List.mem_cons.mp h with rfl | h
    · exact within_above _ _
    · exact (ih h).trans (within_below _ _)

/-- The options of a directive stand above its body and leave its lines alone. -/
theorem within_belowHeading (level : Int) (options : List (String × String)) (body : String) :
    Within body (belowHeading level options body) := by
  induction options with
  | nil =>
    rw [belowHeading_nil]
    split
    · next hempty => rw [hempty]; exact List.infix_rfl
    · simpa using within_below "" body
  | cons o options ih =>
    rw [belowHeading_cons]
    exact ih.trans (within_below _ _)

theorem within_directiveText (level : Int) (name : String) (arguments : List String)
    (options : List (String × String)) (body : String) :
    Within body (directiveText level name arguments options body) := by
  rw [directiveText_eq]
  have hbelow := (within_belowHeading level options body).trans
    (within_below (indentation (level - 1) ++ headingLine name arguments) _)
  simpa using hbelow.trans (within_below "" _)

namespace Block

variable {b : Block} {blocks : List Block}

theorem textOfAll_eq (indent : Int) (blocks : List Block) :
    textOfAll indent blocks = Text.endedLines (blocks.map (Block.text indent)) := by
  induction blocks with
  | nil => rfl
  | cons b blocks ih => rw [textOfAll, ih, List.map_cons, Text.endedLines_cons]

/-- Each of the blocks that stand one below the other keeps its lines. -/
theorem within_textOfAll (h : b ∈ blocks) (indent : Int) :
    Within (b.text indent) (textOfAll indent blocks) := by
  rw [textOfAll_eq]
  exact within_endedLines (List.mem_map_of_mem h)

theorem within_directive (h : b ∈ blocks) (indent : Int) (name : String)
    (arguments : List String) (options : List (String × String)) :
    Within (b.text (indent + 1)) ((directive name arguments options blocks).text indent) := by
  rw [text]
  exact (within_textOfAll h _).trans (within_directiveText _ _ _ _ _)

/-- A directive with a paragraph in it shows that paragraph one level deeper. -/
theorem showsAt_directive {doc : String} (h : paragraph doc ∈ blocks) (indent : Int)
    (name : String) (arguments : List String) (options : List (String × String)) :
    ShowsAt (indent + 1) doc ((directive name arguments options blocks).text indent) := by
  refine ShowsAt.within ?_ (within_directive h indent name arguments options)
  rw [text]
  exact showsAt_paragraphText _ _

end Block

/-- What is added to a writer stands in its text, whatever else it holds. -/
theorem Writer.within_add (w : Writer) (b : Block) (handle : Nat) (later : List Block) :
    Within (b.text w.indent) ((w.add (.piece b)).text handle later) := by
  have hblocks : b ∈ (w.add (.piece b)).blocks handle later := by
    simp [blocks, add, elementBlock]
  have hbody := Block.within_textOfAll hblocks w.indent
  unfold text
  cases hform : (w.add (.piece b)).form with
  | part heading => exact hbody.trans (within_below heading _)
  | directive arguments options => exact hbody.trans (within_directiveText _ _ _ _ _)

end Rst

open Rst (Block Within ShowsAt)

theorem Class.mem_titled {b : Block} {blocks : List Block} (h : b ∈ blocks) (title : String) :
    b ∈ titled title blocks := by
  rw [titled, if_neg (by simpa using List.ne_nil_of_mem h)]
  exact List.mem_cons_of_mem _ h

namespace Entry

/-- The documentation that an entry shows below its heading. The kind of a variable has to be known,
and a module without documentation shows just its name. -/
def shownDoc? : Entry → Option String
  | definition _ d => some d.doc
  | variableDoc v => v.kind.typeName?.map fun _ => v.doc
  | option v _ => some v.doc
  | generic i => some i.doc
  | test i => some i.doc
  | unitTest _ t => some t.doc
  | classDoc c => some c.doc
  | methodDoc m => some m.doc
  | attributeDoc a => some a.doc
  | moduleDoc _ doc => doc.filter (· ≠ "")
  | strayComment _ _ => none

/-- What is described inside of an entry: the constructors, methods and attributes of a class. -/
def parts : Entry → List Entry
  | classDoc c =>
    (c.constructors ++ c.members).map methodDoc ++ c.attributes.map attributeDoc
  | _ => []

theorem block_moduleDoc (name : String) (doc : Option String) :
    (moduleDoc name doc).block =
      .ok (directive "module" name ((doc.filter (· ≠ "")).toList.map .paragraph)) := by
  unfold block
  dsimp only
  split
  · rfl
  · rfl
  · next text hne =>
    have hkept : (some text).filter (fun doc => decide (doc ≠ "")) = some text :=
      Option.filter_eq_some_iff.mpr ⟨rfl, decide_eq_true hne⟩
    rw [hkept]
    rfl

/-- Every entry with documentation is a directive with the documentation as a paragraph and a block
for each of its parts. -/
theorem exists_directive {e : Entry} {doc : String} (h : e.shownDoc? = some doc) :
    ∃ name arguments options blocks, e.block = .ok (.directive name arguments options blocks) ∧
      .paragraph doc ∈ blocks ∧
      ∀ part ∈ e.parts, ∃ inner, part.block = .ok inner ∧ inner ∈ blocks := by
  cases e with
  | definition isMacro d =>
    cases h
    exact ⟨_, _, _, _, rfl, by simp, by simp [parts]⟩
  | variableDoc v =>
    obtain ⟨name, doc, kind, value⟩ := v
    cases kind with
    | string | list | unset =>
      cases h
      exact ⟨_, _, _, _, rfl, by simp, by simp [parts]⟩
    | other v => cases h
  | option v help =>
    cases h
    exact ⟨_, _, _, _, rfl, by simp, by simp [parts]⟩
  | generic i | test i =>
    cases h
    exact ⟨_, _, _, _, rfl, by simp, by simp [parts]⟩
  | unitTest isSection t =>
    cases h
    exact ⟨_, _, _, _, rfl, by simp, by simp [parts]⟩
  | classDoc c =>
    cases h
    refine ⟨_, _, _, _, rfl, by simp, ?_⟩
    intro part hpart
    simp only [parts, List.map_append, List.mem_append, List.mem_map] at hpart
    rcases hpart with (⟨m, hm, rfl⟩ | ⟨m, hm, rfl⟩) | ⟨a, ha, rfl⟩
    · have hblock := Class.mem_titled (List.mem_map_of_mem (f := Method.block) hm)
      exact ⟨_, rfl, by simp [hblock]⟩
    · have hblock := Class.mem_titled (List.mem_map_of_mem (f := Method.block) hm)
      exact ⟨_, rfl, by simp [hblock]⟩
    · have hblock := Class.mem_titled (List.mem_map_of_mem (f := Attribute.block) ha)
      exact ⟨_, rfl, by simp [hblock]⟩
  | methodDoc m =>
    cases h
    exact ⟨_, _, _, _, rfl, by simp, by simp [parts]⟩
  | attributeDoc a =>
    cases h
    exact ⟨_, _, _, _, rfl, by simp, by simp [parts]⟩
  | moduleDoc name given =>
    exact ⟨_, _, _, _, block_moduleDoc name given, by simpa [shownDoc?] using h, by simp [parts]⟩
  | strayComment name doc => cases h

theorem shownDoc?_of_mem_parts {e part : Entry} (h : part ∈ e.parts) :
    ∃ doc, part.shownDoc? = some doc := by
  cases e with
  | classDoc c =>
    simp only [parts, List.mem_append, List.mem_map] at h
    rcases h with ⟨m, -, rfl⟩ | ⟨a, -, rfl⟩
    · exact ⟨_, rfl⟩
    · exact ⟨_, rfl⟩
  | _ => cases h

/-- What putting an entry into a writer makes of its documentation: one directive, whose lines stand
together in the text of the writer. It shows the documentation one level below the writer. Each part
of the entry is a directive inside of it, and shows its own documentation one level deeper. -/
structure Verbatim (e : Entry) (doc : String) (w : Rst.Writer) (b : Block) : Prop where
  isDirective : ∃ name arguments options blocks, b = .directive name arguments options blocks
  added : ∀ (handle : Nat) (later : List Block),
    Within (b.text w.indent) ((w.add (.piece b)).text handle later)
  shows : ShowsAt (w.indent + 1) doc (b.text w.indent)
  parts : ∀ part ∈ e.parts, ∃ partDoc inner, part.shownDoc? = some partDoc ∧
    part.block = .ok inner ∧ Within (inner.text (w.indent + 1)) (b.text w.indent) ∧
      ShowsAt (w.indent + 2) partDoc (inner.text (w.indent + 1))

/-- Documentation is shown as it was written, whatever it says and whatever else an entry holds. -/
theorem block_verbatim (e : Entry) (doc : String) (h : e.shownDoc? = some doc) :
    ∃ b, e.block = .ok b ∧ (∀ p : Page, p.addEntry e = .ok (p.add b)) ∧
      ∀ w : Rst.Writer, e.Verbatim doc w b := by
  obtain ⟨name, arguments, options, blocks, hblock, hdoc, hparts⟩ := exists_directive h
  refine ⟨_, hblock, fun p => by rw [Page.addEntry, hblock], fun w => ?_⟩
  refine ⟨⟨_, _, _, _, rfl⟩, w.within_add _, Block.showsAt_directive hdoc _ _ _ _, ?_⟩
  intro part hpart
  obtain ⟨inner, hinner, hmem⟩ := hparts part hpart
  obtain ⟨partDoc, hpartDoc⟩ := shownDoc?_of_mem_parts hpart
  refine ⟨partDoc, inner, hpartDoc, hinner, Block.within_directive hmem _ _ _ _, ?_⟩
  obtain ⟨partName, partArguments, partOptions, partBlocks, hpartBlock, hpartMem, -⟩ :=
    exists_directive hpartDoc
  rw [hinner] at hpartBlock
  cases hpartBlock
  have hlevel : w.indent + 2 = w.indent + 1 + 1 := by omega
  rw [hlevel]
  exact Block.showsAt_directive hpartMem _ _ _ _

/-- A class whose documentation looks like a directive, with a method and an attribute. -/
def classWithParts : Entry :=
  .classDoc ⟨"C", "First.\n\n.. second", ["B"], [], [],
    [⟨"m", "Does\n  m.", "C", ["int"], ["x"], false, true⟩], [⟨"a", "Some a.\n", "C", some "1"⟩]⟩

theorem classWithParts_verbatim :
    classWithParts.shownDoc? = some "First.\n\n.. second" ∧ classWithParts.parts.length = 2 ∧
      ∃ b, classWithParts.block = .ok b ∧ (∀ p : Page, p.addEntry classWithParts = .ok (p.add b)) ∧
        ∀ w : Rst.Writer, classWithParts.Verbatim "First.\n\n.. second" w b :=
  ⟨rfl, rfl, block_verbatim classWithParts _ rfl⟩

end Entry

end CMakeDocs
