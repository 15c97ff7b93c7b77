import CMakeDocs.Proofs.Documenting.Containment

/-!
# The module of a page

Whatever a file says, its page begins with a directive for the module, and no other directive on it
is one. A file that begins with a module comment can name itself there: that name is then the name
of the module and the title of the page. A module comment anywhere else in a file has no effect.
-/
namespace CMakeDocs

open Rst (Block)

/-- The module comment of a text stands in front of everything else. -/
def Token.moduleComment? (text : String) : Option Token :=
  (Token.ofText text).head?.filter (·.kind = .moduleComment)

/-- The name that a text gives to itself in its module comment. -/
def Document.ownName? (text : String) : Option String :=
  ((Token.moduleComment? text).map fun t => (Comment.moduleParts t.text).1).filter (· ≠ "")

theorem Reader.start_moduleText? (text : String) :
    (Reader.start text).moduleText? = (Token.moduleComment? text).map Token.text := by
  obtain ⟨last, htokens, hlast⟩ := Cell.ofText_tokens text
  have hstart : (Reader.start text).tokens = Token.ofText text ++ [last] := by
    rw [start_eq_ofCells, ofCells_tokens, htokens]
  rw [moduleText?, Token.moduleComment?]
  cases htext : Token.ofText text with
  | nil =>
    rw [htext] at hstart
    rw [kind_eq hstart, hlast]
    rfl
  | cons t ts =>
    rw [htext] at hstart
    rw [kind_eq hstart, current_eq hstart]
    by_cases hk : t.kind = .moduleComment <;> simp [Option.filter, hk]

/-- The name of a directive. -/
def Rst.Block.directiveName? : Block → Option String
  | .directive name _ _ _ => some name
  | _ => none

/-- The directive that an entry of a kind is shown by. -/
def EntryKind.directiveName? : EntryKind → Option String
  | definition _ | generic | test | unitTest _ => some "function"
  | variableDoc | option => some "data"
  | classDoc => some "py:class"
  | methodDoc => some "py:method"
  | attributeDoc => some "py:attribute"
  | moduleDoc => some "module"
  | strayComment => none

theorem EntryKind.directiveName?_ne_module {kind : EntryKind} (h : kind ≠ .moduleDoc) :
    kind.directiveName? ≠ some "module" := by
  cases kind with
  | moduleDoc => exact absurd rfl h
  | _ => simp [directiveName?]

theorem Entry.directiveName?_block {e : Entry} {b : Block} (h : e.block = .ok b) :
    b.directiveName? = e.kind.directiveName? := by
  cases e with
  | variableDoc v =>
    obtain ⟨name, doc, kind, value⟩ := v
    cases kind with
    | string | list | unset =>
      cases h
      rfl
    | other v => cases h
  | _ =>
    cases h
    rfl

theorem Entry.exists_of_mem_blocks {entries : List Entry} {blocks : List Block}
    (h : List.Forall₂ (fun e b => e.block = .ok b) entries blocks) {b : Block} (hb : b ∈ blocks) :
    ∃ e ∈ entries, e.block = .ok b := by
  induction h with
  | nil => cases hb
  | cons hblock _ ih =>
    rcases List.mem_cons.mp hb with rfl | hb
    · exact ⟨_, List.mem_cons_self, hblock⟩
    · obtain ⟨e, he, hblock⟩ := ih hb
      exact ⟨e, List.mem_cons_of_mem _ he, hblock⟩

/-- Only the first entry is about the module, if the text has a module comment. -/
theorem Collector.labels_front {s : Settings} {text? : Option String} {others : List Item}
    (hothers : ∀ it ∈ others, it.moduleText? = none)
    (h : (items s (text?.toList.map .moduleComment ++ others) empty).error = none) :
    ∃ rest, (items s (text?.toList.map .moduleComment ++ others) empty).collector.labels =
        text?.toList.map (fun text => (.moduleDoc, (Comment.moduleParts text).1)) ++ rest ∧
      ∀ l ∈ rest, l.1 ≠ .moduleDoc := by
  obtain ⟨rest, hlabels, hmade⟩ := labels_items _ h
  refine ⟨rest, ?_, ?_⟩
  · rw [hlabels]
    cases text? with
    | none => rfl
    | some text => simp [items, item, Progress.start, Progress.append, append, labels, empty,
        Entry.label, Entry.kind, Entry.name]
  · intro l hl
    obtain ⟨it, hit, isAwaited, hl⟩ := hmade l hl
    have hkind := isOfCommand_of_made (hothers it hit) hl
    simpa using (Bool.and_eq_true_iff.mp hkind).2

namespace Page

variable {p p' : Page} {entries : List Entry} {moduleName : String}

theorem moduleName?_eq_none {e : Entry} (h : e.kind ≠ .moduleDoc) : moduleName? e = none := by
  cases e with
  | moduleDoc name doc => exact absurd rfl h
  | _ => rfl

theorem nameModule_eq_self {e : Entry} (h : e.kind ≠ .moduleDoc) (moduleName : String) :
    nameModule moduleName e = e := by
  cases e with
  | moduleDoc name doc => exact absurd rfl h
  | _ => rfl

/-- Where at most the first entry is about the module, it is the only one that is so on the page,
and its name is the title. -/
theorem withModule_front {name? : Option String} {rest : List (EntryKind × String)}
    (h : entries.map Entry.label = name?.toList.map (fun name => (.moduleDoc, name)) ++ rest)
    (hrest : ∀ l ∈ rest, l.1 ≠ .moduleDoc) (moduleName : String) :
    titleOf? entries = name?.filter (· ≠ "") ∧
      ∃ doc others,
        withModule moduleName entries =
          .moduleDoc ((name?.filter (· ≠ "")).getD moduleName) doc :: others ∧
        ∀ e ∈ others, e.kind ≠ .moduleDoc := by
  have hkinds {others : List Entry} (hothers : others.map Entry.label = rest) :
      ∀ e ∈ others, e.kind ≠ .moduleDoc := by
    intro e he
    exact hrest e.label (hothers ▸ List.mem_map_of_mem he)
  have hnames {others : List Entry} (hothers : ∀ e ∈ others, e.kind ≠ .moduleDoc) :
      others.filterMap moduleName? = [] := by
    rw [List.filterMap_eq_nil_iff]
    exact fun e he => moduleName?_eq_none (hothers e he)
  cases name? with
  | none =>
    have hothers := hkinds h
    refine ⟨by rw [titleOf?, hnames hothers]; rfl, some "", entries, ?_, hothers⟩
    rw [withModule, if_neg]
    · rfl
    · rw [List.any_eq_true]
      rintro ⟨e, he, hname⟩
      rw [moduleName?_eq_none (hothers e he)] at hname
      cases hname
  | some name =>
    obtain ⟨e, others, rfl, hlabel, hlabels⟩ := List.map_eq_cons_iff.mp h
    obtain ⟨doc, rfl⟩ : ∃ doc, e = .moduleDoc name doc := by
      cases e with
      | moduleDoc name' doc =>
        cases hlabel
        exact ⟨doc, rfl⟩
      | _ => cases hlabel
    have hothers := hkinds hlabels
    refine ⟨?_, doc, others, ?_, hothers⟩
    · rw [titleOf?, List.filterMap_cons, moduleName?, hnames hothers]
      by_cases hname : name = "" <;> simp [Option.filter, hname]
    · have hsame : others.map (nameModule moduleName) = others :=
        (List.map_congr_left fun e he => nameModule_eq_self (hothers e he) moduleName).trans
          (List.map_id _)
      rw [withModule, if_pos (by simp [moduleName?]), List.map_cons, hsame, nameModule]
      by_cases hname : name = "" <;> simp [Option.filter, hname]

/-- The heading of a page is the one of its title. -/
def IsTitled (p : Page) : Prop := p.headers.heading 0 (.text p.title) = .ok p.heading

theorem IsTitled.retitle {title : Option String} (hp : p.IsTitled)
    (h : p.retitle title = .ok p') : p'.IsTitled := by
  unfold Page.retitle at h
  split at h
  · cases h
    exact hp
  · split at h
    · next heading hheading =>
      cases h
      exact hheading
    · cases h

/-- Of the blocks that are put on a page only the first is about the module. -/
theorem addEntries_front {name? : Option String} {rest : List (EntryKind × String)}
    {shownEntries : List Entry}
    (hlabels : entries.map Entry.label = name?.toList.map (fun name => (.moduleDoc, name)) ++ rest)
    (hrest : ∀ l ∈ rest, l.1 ≠ .moduleDoc) (hp : p.IsTitled)
    (h : p.addEntries moduleName entries = .ok (p', shownEntries)) :
    p'.title = (name?.filter (· ≠ "")).getD p.title ∧
      p.headers.heading 0 (.text p'.title) = .ok p'.heading ∧
      ∃ body blocks,
        p'.blocks = p.blocks ++
          directive "module" ((name?.filter (· ≠ "")).getD moduleName) body :: blocks ∧
        ∀ b ∈ blocks, b.directiveName? ≠ some "module" := by
  obtain ⟨htitle, doc, others, hentries, hkinds⟩ := withModule_front hlabels hrest moduleName
  obtain ⟨-, p₁, blocks, hretitle, hall, rfl⟩ := addEntries_iff.mp h
  rw [htitle] at hretitle
  obtain ⟨hheaders, htitled, hblocks⟩ := retitle_ok hretitle
  have hshown : p₁.IsTitled := hp.retitle hretitle
  rw [IsTitled, hheaders] at hshown
  refine ⟨htitled, hshown, ?_⟩
  rw [hentries] at hall
  cases hall with
  | @cons _ _ _ blocks hb hall =>
    cases hb
    refine ⟨_, blocks, by rw [hblocks], ?_⟩
    intro b hb
    obtain ⟨e, he, hblock⟩ := Entry.exists_of_mem_blocks hall hb
    rw [Entry.directiveName?_block hblock]
    exact EntryKind.directiveName?_ne_module (hkinds e he)

end Page

namespace Document

/-- The first time a file is put on its page, the page begins with a directive for the module, and
no other directive on it is one. The module has the name that the file gives to itself, or else the
given one; and a name that the file gives to itself is its title. -/
theorem process_module_first (s : Settings) (headers : Headers) (file text : String)
    (title moduleName : Option String) (d : Document)
    (hnew : Document.new headers file title moduleName text = .ok d)
    (hok : (d.process s).error = none) :
    (d.process s).document.page.title = (ownName? text).getD (title.getD file) ∧
      headers.heading 0 (.text ((ownName? text).getD (title.getD file))) =
        .ok (d.process s).document.page.heading ∧
      ∃ body rest,
        (d.process s).document.page.blocks =
          directive "module" ((ownName? text).getD (moduleName.getD (title.getD file))) body ::
            rest ∧
        ∀ b ∈ rest, b.directiveName? ≠ some "module" := by
  obtain ⟨heading, hheading, hd⟩ := new_eq_ok hnew
  have hreader : d.reader = Reader.start text := by rw [hd]
  have hcollector : d.collector = .empty := by rw [hd]
  have hmodule : d.moduleName = moduleName.getD (title.getD file) := by rw [hd]
  have hpage : d.page = ⟨headers, title.getD file, heading, []⟩ := by rw [hd]
  clear hd
  obtain ⟨tree, others, htree, hitems, hothers⟩ := Reader.file_items d.reader
  obtain ⟨herror, hadd⟩ := process_ok_of_tree htree hok
  generalize (d.process s).document.page = page at hadd ⊢
  rw [Collector.file, hitems, hcollector, hreader] at herror hadd
  obtain ⟨rest, hlabels, hrest⟩ := Collector.labels_front hothers herror
  have hnames : (Reader.start text).moduleText?.toList.map
      (fun text => (EntryKind.moduleDoc, (Comment.moduleParts text).1)) =
        ((Token.moduleComment? text).map fun t => (Comment.moduleParts t.text).1).toList.map
          fun name => (.moduleDoc, name) := by
    rw [Reader.start_moduleText?]
    cases Token.moduleComment? text <;> simp
  rw [hnames] at hlabels
  have htitled : d.page.IsTitled := by rw [hpage]; exact hheading
  have hfront := Page.addEntries_front hlabels hrest htitled hadd
  rw [hpage, hmodule] at hfront
  obtain ⟨htitle, hshown, hblocks⟩ := hfront
  exact ⟨htitle, htitle ▸ hshown, hblocks⟩

/-- A file that names itself, with a fault behind which another module comment is skipped. -/
def namedWithFault : String :=
  "#[[[ @module my.mod\n# Doc.\n#]]\nfoo #[[[ @module other\n#]]\nbar()\n"

theorem namedWithFault_module_first : ∃ d,
    Document.new .preset "f.cmake" (some "t") (some "m") namedWithFault = .ok d ∧
      (d.process presetSettings).error = none ∧
      (d.process presetSettings).document.page.title = "my.mod" ∧
      ∃ body rest,
        (d.process presetSettings).document.page.blocks = directive "module" "my.mod" body :: rest ∧
        ∀ b ∈ rest, b.directiveName? ≠ some "module" := by
  have hnew : Document.new .preset "f.cmake" (some "t") (some "m") namedWithFault =
      .ok ⟨"m", .blank "t", Reader.start namedWithFault, .empty⟩ :=
    new_of_isAscii "f.cmake" "t" "m" (by decide)
  generalize hd :
    (⟨"m", .blank "t", Reader.start namedWithFault, .empty⟩ : Document) = d at hnew
  have hok : (d.process presetSettings).error = none := by
    rw [← Option.isNone_iff_eq_none, ← hd]
    decide
  have hname : ownName? namedWithFault = some "my.mod" := by decide
  obtain ⟨htitle, -, hblocks⟩ := process_module_first presetSettings .preset "f.cmake"
    namedWithFault (some "t") (some "m") d hnew hok
  rw [hname] at htitle hblocks
  exact ⟨d, hnew, hok, htitle, hblocks⟩

end Document

end CMakeDocs
