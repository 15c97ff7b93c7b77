import CMakeDocs.Proofs.Collecting.Origins
import CMakeDocs.Proofs.Documenting.Page
import CMakeDocs.Proofs.Documenting.Tame
import CMakeDocs.Proofs.Reading.Front
import Mathlib.Data.List.Forall2

/-!
# Containment of entries

What a document puts on its page are the blocks of its entries, each of them a directive by itself.
Which of them keep to themselves can be told from what the commands of the document are called with.
-/
namespace CMakeDocs

/-- Methods and attributes stand in classes, and comments that belong to nothing stand nowhere. -/
def EntryKind.standsAlone : EntryKind → Bool
  | methodDoc | attributeDoc | strayComment => false
  | _ => true

/-- The entries of commands. All of them stand alone, and none is about the module. -/
def EntryKind.isOfCommand (kind : EntryKind) : Bool := kind.standsAlone && kind ≠ .moduleDoc

namespace Collector

variable {s : Settings} {doc : String} {command : Command} {c : Collector} {logs : List LogRecord}
  {is : List Item} {l : EntryKind × String}

theorem isOfCommand_of_recordedLabels (h : l ∈ recordedLabels s doc command) :
    l.1.isOfCommand = true := by
  have hkind := entryKind_of_mem_recordedLabels h
  cases hk : command.kind with
  | definition _ | setVariable | option | test | unitTest _ | classStart | endDefinition | classEnd
    | other =>
    rw [hk] at hkind
    rw [← Option.some.inj hkind]
    rfl
  | parseArguments | member _ | classAttribute | generic =>
    rw [hk] at hkind
    cases hkind

/-- Without module comments all entries are those of commands. -/
theorem isOfCommand_of_made {isAwaited : Bool} {it : Item} (hit : it.moduleText? = none)
    (h : l ∈ made s isAwaited it) : l.1.isOfCommand = true := by
  cases it with
  | moduleComment text => cases hit
  | documented comment command => exact isOfCommand_of_recordedLabels h
  | plain command =>
    rw [made] at h
    split at h
    · exact isOfCommand_of_recordedLabels h
    · cases h
  | strayComment => cases h

theorem standsAlone_of_made {isAwaited : Bool} {it : Item} (h : l ∈ made s isAwaited it) :
    l.1.standsAlone = true := by
  cases hit : it.moduleText? with
  | none => exact (Bool.and_eq_true_iff.mp (isOfCommand_of_made hit h)).1
  | some text =>
    cases it with
    | moduleComment text =>
      rw [made] at h
      rw [List.mem_singleton.mp h]
      rfl
    | _ => cases hit

/-- All entries of a run stand alone. -/
theorem standsAlone_of_mem_entries (h : (items s is empty).error = none) {e : Entry}
    (he : e ∈ (items s is empty).collector.entries) : e.kind.standsAlone = true := by
  obtain ⟨added, hlabels, hmade⟩ := labels_items [] h
  rw [List.nil_append] at hlabels
  have hlabel : e.label ∈ (items s is empty).collector.labels := List.mem_map_of_mem he
  rw [hlabels] at hlabel
  obtain ⟨it, -, isAwaited, hl⟩ := hmade e.label hlabel
  exact standsAlone_of_made hl

end Collector

open Rst (Block)

namespace Page

variable {p p' : Page} {entries shownEntries : List Entry} {moduleName : String}

theorem foldlM_addEntry_iff :
    entries.foldlM addEntry p = .ok p' ↔
      ∃ blocks, List.Forall₂ (fun e b => e.block = .ok b) entries blocks ∧
        p' = { p with blocks := p.blocks ++ blocks } := by
  induction entries generalizing p with
  | nil => simp [pure, Except.pure, eq_comm]
  | cons e entries ih =>
    rw [List.foldlM_cons]
    cases hb : e.block with
    | error v =>
      have hadd : addEntry p e = .error (.unknownKind v) := by rw [addEntry, hb]
      rw [hadd]
      constructor
      · intro h
        cases h
      · rintro ⟨blocks, hall, -⟩
        cases hall with
        | cons hb' _ =>
          rw [hb] at hb'
          cases hb'
    | ok b =>
      have hadd : addEntry p e = .ok (p.add b) := by rw [addEntry, hb]
      rw [hadd]
      refine ih.trans ?_
      constructor
      · rintro ⟨blocks, hall, rfl⟩
        exact ⟨b :: blocks, .cons hb hall, p.add_blocks_append b blocks⟩
      · rintro ⟨blocks, hall, rfl⟩
        cases hall with
        | cons hb' hall =>
          rw [hb] at hb'
          cases hb'
          exact ⟨_, hall, (p.add_blocks_append b _).symm⟩

/-- Entries are put on a page by their blocks, in their order, with one for the module and below the
title that they give. -/
theorem addEntries_iff :
    p.addEntries moduleName entries = .ok (p', shownEntries) ↔
      shownEntries = (withModule moduleName entries).map Entry.shown ∧
        ∃ p₁ blocks, p.retitle (titleOf? entries) = .ok p₁ ∧
          List.Forall₂ (fun e b => e.block = .ok b) (withModule moduleName entries) blocks ∧
          p' = { p₁ with blocks := p₁.blocks ++ blocks } := by
  unfold addEntries
  cases hretitle : p.retitle (titleOf? entries) with
  | error e =>
    constructor
    · intro h
      cases h
    · rintro ⟨-, p₁, blocks, h, -⟩
      cases h
  | ok p₁ =>
    dsimp only [bind, Except.bind]
    constructor
    · intro h
      cases hfold : (withModule moduleName entries).foldlM addEntry p₁ with
      | error e =>
        rw [hfold] at h
        cases h
      | ok p₂ =>
        rw [hfold] at h
        cases h
        obtain ⟨blocks, hall, hsame⟩ := foldlM_addEntry_iff.mp hfold
        exact ⟨rfl, p₁, blocks, rfl, hall, hsame⟩
    · rintro ⟨rfl, p₁', blocks, h, hall, rfl⟩
      cases h
      rw [foldlM_addEntry_iff.mpr ⟨blocks, hall, rfl⟩]

theorem retitle_ok {title : Option String} (h : p.retitle title = .ok p') :
    p'.headers = p.headers ∧ p'.title = title.getD p.title ∧ p'.blocks = p.blocks := by
  unfold retitle at h
  split at h
  · cases h
    exact ⟨rfl, rfl, rfl⟩
  · split at h
    · cases h
      exact ⟨rfl, rfl, rfl⟩
    · cases h

theorem addEntries_ok (h : p.addEntries moduleName entries = .ok (p', shownEntries)) :
    shownEntries = (withModule moduleName entries).map Entry.shown ∧
      ∃ blocks, List.Forall₂ (fun e b => e.block = .ok b) (withModule moduleName entries) blocks ∧
        p'.blocks = p.blocks ++ blocks := by
  obtain ⟨hshown, p₁, blocks, hretitle, hall, rfl⟩ := addEntries_iff.mp h
  exact ⟨hshown, blocks, hall, by rw [(retitle_ok hretitle).2.2]⟩

theorem standsAlone_of_mem_withModule
    (h : ∀ e ∈ entries, e.kind.standsAlone = true) {e : Entry}
    (he : e ∈ withModule moduleName entries) : e.kind.standsAlone = true := by
  unfold withModule at he
  split at he
  · obtain ⟨e', he', rfl⟩ := List.mem_map.mp he
    have hkind : (nameModule moduleName e').kind = e'.kind := by
      cases e' <;> rfl
    rw [hkind]
    exact h e' he'
  · rcases List.mem_cons.mp he with rfl | he
    · rfl
    · exact h e he

end Page

namespace Document

variable {s : Settings} {d : Document}

/-- An opened document begins with a page that has just its title. -/
theorem new_eq_ok {headers : Headers} {file text : String} {title moduleName : Option String}
    (h : Document.new headers file title moduleName text = .ok d) :
    ∃ heading, headers.heading 0 (.text (title.getD file)) = .ok heading ∧
      d = ⟨moduleName.getD (title.getD file), ⟨headers, title.getD file, heading, []⟩,
        Reader.start text, .empty⟩ := by
  unfold Document.new Page.new at h
  dsimp only at h
  cases hheading : headers.heading 0 (.text (title.getD file)) with
  | error e =>
    rw [hheading] at h
    cases h
  | ok heading =>
    rw [hheading] at h
    dsimp only [bind, Except.bind] at h
    split at h
    · cases h
    · cases h
      exact ⟨heading, rfl, rfl⟩

theorem new_ok {headers : Headers} {file text : String} {title moduleName : Option String}
    (h : Document.new headers file title moduleName text = .ok d) :
    d.page.blocks = [] ∧ d.collector = .empty := by
  obtain ⟨heading, -, rfl⟩ := new_eq_ok h
  exact ⟨rfl, rfl⟩

/-- A document that was read to its end has the entries of its tree on its page. -/
theorem process_ok_of_tree {tree : Tree} (htree : (Reader.file d.reader).tree? = some tree)
    (h : (d.process s).error = none) :
    (Collector.file s tree d.collector).error = none ∧
      d.page.addEntries d.moduleName (Collector.file s tree d.collector).collector.entries =
        .ok ((d.process s).document.page, (d.process s).document.collector.entries) := by
  unfold process at h ⊢
  dsimp only at h ⊢
  cases hfault : (Reader.file d.reader).fault with
  | some fault =>
    rw [hfault] at h
    cases h
  | none =>
    rw [hfault, htree] at h
    rw [htree]
    dsimp only at h ⊢
    cases herror : (Collector.file s tree d.collector).error with
    | some e =>
      rw [herror] at h
      cases h
    | none =>
      rw [herror] at h
      dsimp only at h ⊢
      refine ⟨rfl, ?_⟩
      unfold layOut at h ⊢
      dsimp only at h ⊢
      cases hadd : d.page.addEntries d.moduleName
          (Collector.file s tree d.collector).collector.entries with
      | error e =>
        rw [hadd] at h
        cases h
      | ok laid => rfl

/-- A document that could be opened and read to its end has one block for each of its entries on
its page. An entry keeps to itself just if what its command is called with does; its documentation
has no part in it. -/
theorem process_contained_iff (s : Settings) (headers : Headers) (file text : String)
    (title moduleName : Option String) (d : Document)
    (hnew : Document.new headers file title moduleName text = .ok d)
    (hok : (d.process s).error = none) :
    ∃ entries, (d.process s).document.collector.entries = entries.map Entry.shown ∧
      List.Forall₂ (fun e b => e.block = .ok b) entries (d.process s).document.page.blocks ∧
      ∀ e ∈ entries, e.kind.standsAlone = true ∧
        ∀ b, e.block = .ok b → (b.Contained ↔ e.Tame) := by
  obtain ⟨hblocks, hcollector⟩ := new_ok hnew
  obtain ⟨tree, others, htree, -⟩ := Reader.file_items d.reader
  obtain ⟨herror, hadd⟩ := process_ok_of_tree htree hok
  obtain ⟨hshown, blocks, hall, hon⟩ := Page.addEntries_ok hadd
  rw [hblocks, List.nil_append] at hon
  refine ⟨_, hshown, hon ▸ hall, fun e he => ⟨?_, fun b hb => Entry.contained_block_iff hb⟩⟩
  rw [hcollector] at herror he
  exact Page.standsAlone_of_mem_withModule
    (fun e he => Collector.standsAlone_of_mem_entries herror he) he

/-- A documented function whose comment has a line that looks like a directive. -/
def directiveInComment : String :=
  "#[[[\n# Doc.\n# .. function:: g()\n#]]\nfunction(f x)\nendfunction()\n"

theorem directiveInComment_tame : ∃ (d : Document) (entries : List Entry),
    Document.new .preset "f.cmake" (some "f") (some "f") directiveInComment = .ok d ∧
      (d.process presetSettings).error = none ∧
      (d.process presetSettings).document.collector.entries = entries.map Entry.shown ∧
      entries.length = 2 ∧ ∀ e ∈ entries, e.Tame := by
  have hnew : Document.new .preset "f.cmake" (some "f") (some "f") directiveInComment =
      .ok ⟨"f", .blank "f", Reader.start directiveInComment, .empty⟩ :=
    new_of_isAscii "f.cmake" "f" "f" (by decide)
  generalize hd :
    (⟨"f", .blank "f", Reader.start directiveInComment, .empty⟩ : Document) = d at hnew
  have hrun : (d.process presetSettings).error.isNone = true ∧
      (d.process presetSettings).document.page.blocks.length = 2 ∧
      ∀ b ∈ (d.process presetSettings).document.page.blocks, b.Contained := by
    rw [← hd]
    decide
  obtain ⟨hok, hlength, hblocks⟩ := hrun
  rw [Option.isNone_iff_eq_none] at hok
  obtain ⟨entries, hentries, hall, hiff⟩ :=
    process_contained_iff presetSettings .preset "f.cmake" directiveInComment (some "f") (some "f")
      d hnew hok
  refine ⟨d, entries, hnew, hok, hentries, hall.length_eq.trans hlength, fun e he => ?_⟩
  obtain ⟨i, rfl⟩ := List.mem_iff_get.mp he
  have hi : i < (d.process presetSettings).document.page.blocks.length := hall.length_eq ▸ i.isLt
  have hcontained := hblocks _ (List.get_mem _ ⟨i, hi⟩)
  exact ((hiff _ he).2 _ (hall.get i.isLt hi)).mp hcontained

/-- A variable whose value has a second line. -/
def valueOfTwoLines : String := "#[[[\n# Doc.\n#]]\nset(v \"a\nb\")\n"

/-- The second line of the value stands at the margin, and ends the directive. -/
theorem valueOfTwoLines_not_contained : ∃ d,
    Document.new .preset "f.cmake" (some "f") (some "f") valueOfTwoLines = .ok d ∧
      (d.process presetSettings).error = none ∧
      (d.process presetSettings).document.page.text =
        "\n#\nf\n#\n\n.. module:: f\n\n\n.. data:: v\n\n   Doc.\n   \n\n" ++
          "   :Default value: a\nb\n\n   :type: str\n\n" ∧
      ∃ b ∈ (d.process presetSettings).document.page.blocks,
        b.headingLine? = some ".. data:: v" ∧ ¬ b.Contained := by
  refine ⟨_, new_of_isAscii "f.cmake" "f" "f" (by decide), ?_⟩
  rw [← Option.isNone_iff_eq_none]
  decide +kernel

end Document

end CMakeDocs
