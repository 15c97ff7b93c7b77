import CMakeDocs.Proofs.Documenting.Containment

/-!
# Entries that are put on a page again

Putting entries on a page changes them: one for the module is among them afterwards, a module
without a name has got one, and a definition that takes keyword arguments has got one more
parameter. Here is what a second time makes of it, told by what the entries were before the first.
-/
namespace CMakeDocs

open Rst (Block)

namespace Headers

/-- Every title can be underlined. -/
def Underlines (h : Headers) : Prop :=
  ∀ title, ∃ heading, h.heading 0 (.text title) = .ok heading

theorem preset_underlines : preset.Underlines := fun _ => ⟨_, rfl⟩

end Headers

namespace Definition

/-- A definition with its parameters as they are shown is called in another way than before, if it
takes keyword arguments. -/
theorem shownParams_twice_ne {d : Definition} (h : d.hasKeywords = true) :
    " ".intercalate { d with params := d.shownParams }.shownParams ≠
      " ".intercalate d.shownParams := by
  intro hsame
  have hlength := congrArg (fun s => s.toList.length) hsame
  have hspace : " ".toList = [' '] := rfl
  simp only [shownParams, h, if_pos, Text.toList_intercalate hspace, List.map_append,
    List.map_cons, List.map_nil, Text.joinChars_concat, List.flatMap_append, List.length_append]
    at hlength
  simp at hlength

theorem text_block_shown_ne {d : Definition} (h : d.hasKeywords = true) (isMacro : Bool) :
    ({ d with params := d.shownParams }.block isMacro).text 0 ≠ (d.block isMacro).text 0 := by
  intro hsame
  refine shownParams_twice_ne h ?_
  unfold block at hsame
  rw [text_directive, text_directive] at hsame
  simpa [callText, String.append_assoc] using hsame

end Definition

namespace Entry

variable {e : Entry} {b b' : Block}

/-- Keyword arguments are shown behind the parameters of a definition. -/
def takesKeywords : Entry → Bool
  | definition _ d => d.hasKeywords
  | _ => false

/-- Of the variables only those of a known kind can be shown. -/
def hasKnownKind : Entry → Bool
  | variableDoc v => v.kind.typeName?.isSome
  | _ => true

theorem exists_block (h : e.hasKnownKind = true) : ∃ b, e.block = .ok b := by
  cases e with
  | variableDoc v =>
    obtain ⟨name, doc, kind, value⟩ := v
    cases kind with
    | string | list | unset => exact ⟨_, rfl⟩
    | other v => cases h
  | _ => exact ⟨_, rfl⟩

theorem exists_blocks {entries : List Entry} (h : ∀ e ∈ entries, e.hasKnownKind = true) :
    ∃ blocks, List.Forall₂ (fun e b => e.block = .ok b) entries blocks := by
  induction entries with
  | nil => exact ⟨[], .nil⟩
  | cons e entries ih =>
    rw [List.forall_mem_cons] at h
    obtain ⟨b, hb⟩ := exists_block h.1
    obtain ⟨blocks, hblocks⟩ := ih h.2
    exact ⟨b :: blocks, .cons hb hblocks⟩

theorem hasKnownKind_shown (e : Entry) : e.shown.hasKnownKind = e.hasKnownKind := by
  cases e <;> rfl

/-- An entry is changed on its way to a page just if it takes keyword arguments. -/
theorem shown_eq_self_iff (e : Entry) : e.shown = e ↔ e.takesKeywords = false := by
  cases e with
  | definition isMacro d =>
    obtain ⟨name, doc, params, hasKeywords⟩ := d
    cases hasKeywords <;> simp [shown, takesKeywords, Definition.shownParams]
  | _ => exact ⟨fun _ => rfl, fun _ => rfl⟩

/-- What an entry has become is shown as the entry was just if it takes no keyword arguments. -/
theorem text_shown_eq_iff (h : e.block = .ok b) (h' : e.shown.block = .ok b') :
    b'.text 0 = b.text 0 ↔ e.takesKeywords = false := by
  constructor
  · intro hsame
    cases e with
    | definition isMacro d =>
      cases h
      cases h'
      rw [takesKeywords, ← Bool.not_eq_true]
      intro hkeywords
      exact Definition.text_block_shown_ne hkeywords isMacro hsame
    | _ => rfl
  · intro hnone
    rw [(shown_eq_self_iff e).mpr hnone, h] at h'
    cases h'
    rfl

theorem texts_shown_eq_iff {entries : List Entry} {blocks blocks' : List Block}
    (h : List.Forall₂ (fun e b => e.block = .ok b) entries blocks)
    (h' : List.Forall₂ (fun e b => e.block = .ok b) (entries.map shown) blocks') :
    blocks'.map (·.text 0) = blocks.map (·.text 0) ↔ ∀ e ∈ entries, e.takesKeywords = false := by
  induction h generalizing blocks' with
  | nil =>
    cases h'
    simp
  | cons hb hrest ih =>
    cases h' with
    | cons hb' hrest' =>
      rw [List.map_cons, List.map_cons, List.cons.injEq, text_shown_eq_iff hb hb', ih hrest',
        List.forall_mem_cons]

end Entry

namespace Page

variable {p : Page} {entries : List Entry} {moduleName : String}

theorem moduleName?_shown (e : Entry) : moduleName? e.shown = moduleName? e := by
  cases e <;> rfl

theorem nameModule_shown (moduleName : String) (e : Entry) :
    nameModule moduleName e.shown = (nameModule moduleName e).shown := by
  cases e <;> rfl

theorem nameModule_nameModule (moduleName : String) (e : Entry) :
    nameModule moduleName (nameModule moduleName e) = nameModule moduleName e := by
  cases e with
  | moduleDoc name doc => by_cases h : name = "" <;> simp [nameModule, h]
  | _ => rfl

theorem takesKeywords_nameModule (moduleName : String) (e : Entry) :
    (nameModule moduleName e).takesKeywords = e.takesKeywords := by
  cases e <;> rfl

theorem hasKnownKind_nameModule (moduleName : String) (e : Entry) :
    (nameModule moduleName e).hasKnownKind = e.hasKnownKind := by
  cases e <;> rfl

/-- What does not depend on the name of a module can be told of the entries before one for the
module is among them. -/
theorem forall_mem_withModule_iff {f : Entry → Bool} {value : Bool}
    (hmodule : f (.moduleDoc moduleName (some "")) = value)
    (hname : ∀ e, f (nameModule moduleName e) = f e) :
    (∀ e ∈ withModule moduleName entries, f e = value) ↔ ∀ e ∈ entries, f e = value := by
  unfold withModule
  split
  · rw [List.forall_mem_map]
    simp only [hname]
  · rw [List.forall_mem_cons]
    exact and_iff_right hmodule

theorem hasKnownKind_of_mem_withModule (h : ∀ e ∈ entries, e.hasKnownKind = true)
    (moduleName : String) : ∀ e ∈ withModule moduleName entries, e.hasKnownKind = true :=
  (forall_mem_withModule_iff rfl (hasKnownKind_nameModule moduleName)).mpr h

/-- There is an entry for the module after the first time, so none is put in front any more. -/
theorem withModule_shown (moduleName : String) (entries : List Entry) :
    withModule moduleName ((withModule moduleName entries).map Entry.shown) =
      (withModule moduleName entries).map Entry.shown := by
  have hfixed : ∀ e ∈ withModule moduleName entries, nameModule moduleName e = e := by
    unfold withModule
    split
    · rw [List.forall_mem_map]
      exact fun e _ => nameModule_nameModule moduleName e
    · next hnone =>
      rw [List.forall_mem_cons]
      refine ⟨by simp [nameModule], fun e he => ?_⟩
      cases e with
      | moduleDoc name doc => exact absurd (List.any_eq_true.mpr ⟨_, he, rfl⟩) hnone
      | _ => rfl
  have hmodule : ((withModule moduleName entries).map Entry.shown).any
      (fun e => (moduleName? e).isSome) = true := by
    rw [List.any_map]
    unfold withModule
    split
    · next hsome =>
      obtain ⟨e, he, hname⟩ := List.any_eq_true.mp hsome
      refine List.any_eq_true.mpr ⟨_, List.mem_map_of_mem he, ?_⟩
      cases e with
      | moduleDoc name doc => rfl
      | _ => cases hname
    · rfl
  rw [withModule, if_pos hmodule, List.map_map]
  refine List.map_congr_left fun e he => ?_
  rw [Function.comp_apply, nameModule_shown, hfixed e he]

/-- The name that the last of the module entries gives to the file. -/
def lastName? (entries : List Entry) : Option String :=
  (entries.filterMap moduleName?).getLast?.filter (· ≠ "")

/-- A file that is not named by its last module entry has the name of the module as its title
already, or the module has none. -/
def KeepsTitle (p : Page) (moduleName : String) (entries : List Entry) : Prop :=
  moduleName = "" ∨ (lastName? entries).isSome ∨ (titleOf? entries).getD p.title = moduleName

theorem moduleNames_withModule (moduleName : String) (entries : List Entry) :
    (withModule moduleName entries).filterMap moduleName? =
      if entries.filterMap moduleName? = [] then [moduleName]
      else (entries.filterMap moduleName?).map fun name =>
        if name = "" then moduleName else name := by
  have hsome : entries.any (fun e => (moduleName? e).isSome) = true ↔
      entries.filterMap moduleName? ≠ [] := by
    rw [List.any_eq_true, ne_eq, List.filterMap_eq_nil_iff]
    simp [Option.ne_none_iff_isSome]
  unfold withModule
  split
  · next hany =>
    rw [if_neg (hsome.mp hany), List.filterMap_map, List.map_filterMap]
    congr 1
    funext e
    cases e <;> rfl
  · next hnone =>
    rw [hsome, not_not] at hnone
    rw [if_pos hnone, List.filterMap_cons, hnone]
    rfl

/-- Once the module has a name, all its entries have one, and the last of them is the title. -/
theorem titleOf?_withModule (h : moduleName ≠ "") :
    titleOf? (withModule moduleName entries) = some ((lastName? entries).getD moduleName) := by
  rw [titleOf?, moduleNames_withModule, lastName?]
  generalize entries.filterMap moduleName? = names
  rcases List.eq_nil_or_concat names with rfl | ⟨before, last, rfl⟩
  · simp [h]
  · by_cases hlast : last = "" <;> simp [Option.filter, hlast, h]

theorem titleOf?_withModule_empty : titleOf? (withModule "" entries) = titleOf? entries := by
  have hsame : (fun name : String => if name = "" then "" else name) = id := by
    funext name
    by_cases h : name = "" <;> simp [h]
  rw [titleOf?, moduleNames_withModule, titleOf?, hsame, List.map_id]
  split
  · next hnone => simp [hnone]
  · rfl

theorem titleOf?_of_lastName? {name : String} (h : lastName? entries = some name) :
    titleOf? entries = some name := by
  obtain ⟨hlast, hne⟩ := Option.filter_eq_some_iff.mp h
  obtain ⟨before, hnames⟩ := List.getLast?_eq_some_iff.mp hlast
  rw [titleOf?, hnames, List.filter_append, List.filter_singleton, hne, cond_true,
    List.getLast?_concat]

/-- The title of the second time is the one of the first. -/
theorem title_again_iff (p : Page) (moduleName : String) (entries : List Entry) :
    (titleOf? (withModule moduleName entries)).getD ((titleOf? entries).getD p.title) =
      (titleOf? entries).getD p.title ↔ p.KeepsTitle moduleName entries := by
  unfold KeepsTitle
  by_cases hname : moduleName = ""
  · rw [hname, titleOf?_withModule_empty]
    cases titleOf? entries <;> simp
  · rw [titleOf?_withModule hname, Option.getD_some]
    -- With a name for the module, the title of the second time is the last name there is then.
    cases hlast : lastName? entries with
    | some name =>
      rw [titleOf?_of_lastName? hlast]
      simp
    | none => simp [hname, eq_comm]

theorem titleOf?_shown (entries : List Entry) :
    titleOf? (entries.map Entry.shown) = titleOf? entries := by
  rw [titleOf?, List.filterMap_map, titleOf?]
  congr 3
  funext e
  exact moduleName?_shown e

/-- Entries that can be shown are put on a page that can be underlined. -/
theorem addEntries_of_hasKnownKind (hmarks : p.headers.Underlines)
    (hkinds : ∀ e ∈ entries, e.hasKnownKind = true) (moduleName : String) :
    ∃ p' blocks,
      p.addEntries moduleName entries = .ok (p', (withModule moduleName entries).map Entry.shown) ∧
      p'.headers = p.headers ∧ p'.title = (titleOf? entries).getD p.title ∧
      p'.blocks = p.blocks ++ blocks ∧
      List.Forall₂ (fun e b => e.block = .ok b) (withModule moduleName entries) blocks := by
  have hretitle : ∃ p₁, p.retitle (titleOf? entries) = .ok p₁ := by
    cases titleOf? entries with
    | none => exact ⟨p, rfl⟩
    | some title =>
      obtain ⟨heading, hheading⟩ := hmarks title
      exact ⟨{ p with title := title, heading := heading }, by rw [retitle, hheading]⟩
  obtain ⟨p₁, hretitle⟩ := hretitle
  obtain ⟨blocks, hall⟩ :=
    Entry.exists_blocks (hasKnownKind_of_mem_withModule hkinds moduleName)
  obtain ⟨hheaders, htitle, hblocks⟩ := retitle_ok hretitle
  exact ⟨_, blocks, addEntries_iff.mpr ⟨rfl, p₁, blocks, hretitle, hall, rfl⟩, hheaders, htitle,
    by rw [hblocks], hall⟩

/-- Entries of known kinds can be put on a page twice. The second time keeps the title of the first
just if the last entry for the module has a name, or the name of the module is the title already.
It shows the same just if no definition takes keyword arguments, which are the entries that are
changed by being shown. -/
theorem addEntries_again (p : Page) (moduleName : String) (entries : List Entry)
    (hmarks : p.headers.Underlines) (hkinds : ∀ e ∈ entries, e.hasKnownKind = true) :
    ∃ p₁ entries₁ blocks₁ p₂ entries₂ blocks₂,
      p.addEntries moduleName entries = .ok (p₁, entries₁) ∧ p₁.blocks = p.blocks ++ blocks₁ ∧
      p₁.addEntries moduleName entries₁ = .ok (p₂, entries₂) ∧ p₂.blocks = p₁.blocks ++ blocks₂ ∧
      (p₂.title = p₁.title ↔ p.KeepsTitle moduleName entries) ∧
      (blocks₂.map (·.text 0) = blocks₁.map (·.text 0) ↔
        ∀ e ∈ entries, e.takesKeywords = false) ∧
      ((∀ e ∈ entries, e.shown = e) ↔ ∀ e ∈ entries, e.takesKeywords = false) := by
  obtain ⟨p₁, blocks₁, hfirst, hheaders, htitle₁, hblocks₁, hall₁⟩ :=
    addEntries_of_hasKnownKind hmarks hkinds moduleName
  have hkinds₁ : ∀ e ∈ (withModule moduleName entries).map Entry.shown,
      e.hasKnownKind = true := by
    rw [List.forall_mem_map]
    simp only [Entry.hasKnownKind_shown]
    exact hasKnownKind_of_mem_withModule hkinds moduleName
  obtain ⟨p₂, blocks₂, hsecond, -, htitle₂, hblocks₂, hall₂⟩ :=
    addEntries_of_hasKnownKind (hheaders ▸ hmarks) hkinds₁ moduleName
  refine ⟨p₁, _, blocks₁, p₂, _, blocks₂, hfirst, hblocks₁, hsecond, hblocks₂, ?_, ?_, ?_⟩
  · rw [htitle₂, titleOf?_shown, htitle₁]
    exact title_again_iff p moduleName entries
  · rw [withModule_shown] at hall₂
    rw [Entry.texts_shown_eq_iff hall₁ hall₂]
    exact forall_mem_withModule_iff rfl (takesKeywords_nameModule moduleName)
  · exact forall₂_congr fun e _ => Entry.shown_eq_self_iff e

/-- A module without a name and one with a name, and between them what takes no keywords. -/
def namedAtTheEnd : List Entry :=
  [.moduleDoc "" (some "Opens."), .definition true ⟨"f", "Shows f.", ["x"], false⟩,
    .variableDoc ⟨"v", "Some v.", .list, some "a;b"⟩, .moduleDoc "n" none]

theorem namedAtTheEnd_again :
    ∃ p₁ entries₁ blocks₁ p₂ entries₂ blocks₂,
      (blank "t").addEntries "m" namedAtTheEnd = .ok (p₁, entries₁) ∧
      p₁.blocks = (blank "t").blocks ++ blocks₁ ∧
      p₁.addEntries "m" entries₁ = .ok (p₂, entries₂) ∧ p₂.blocks = p₁.blocks ++ blocks₂ ∧
      p₂.title = p₁.title ∧ blocks₂.map (·.text 0) = blocks₁.map (·.text 0) ∧
      ∀ e ∈ namedAtTheEnd, e.shown = e := by
  have hkeywords : ∀ e ∈ namedAtTheEnd, e.takesKeywords = false := by
    simp [namedAtTheEnd, Entry.takesKeywords]
  obtain ⟨p₁, entries₁, blocks₁, p₂, entries₂, blocks₂, hfirst, hblocks₁, hsecond, hblocks₂,
    htitle, htexts, hshown⟩ :=
    addEntries_again (blank "t") "m" namedAtTheEnd Headers.preset_underlines
      (List.all_eq_true.mp rfl)
  exact ⟨p₁, entries₁, blocks₁, p₂, entries₂, blocks₂, hfirst, hblocks₁, hsecond, hblocks₂,
    htitle.mpr (.inr (.inl rfl)), htexts.mpr hkeywords, hshown.mpr hkeywords⟩

/-- A function that takes keyword arguments shows them once more the second time. -/
theorem keywords_again :
    ∃ p₁ entries₁ p₂ entries₂,
      (blank "input.cmake").addEntries "input.cmake"
        [.definition false ⟨"f", "Doc.", [], true⟩] = .ok (p₁, entries₁) ∧
      p₁.addEntries "input.cmake" entries₁ = .ok (p₂, entries₂) ∧
      p₁.blocks.map (·.text 0) =
        ["\n.. module:: input.cmake\n", "\n.. function:: f(**kwargs)\n\n   Doc.\n"] ∧
      p₂.blocks.map (·.text 0) = p₁.blocks.map (·.text 0) ++
        ["\n.. module:: input.cmake\n", "\n.. function:: f(**kwargs **kwargs)\n\n   Doc.\n"] :=
  ⟨_, _, _, _, rfl, rfl, by decide, by decide⟩

end Page

end CMakeDocs
