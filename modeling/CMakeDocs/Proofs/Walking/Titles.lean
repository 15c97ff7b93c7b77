import CMakeDocs.Proofs.Documenting.Module
import CMakeDocs.Proofs.Naming
import CMakeDocs.Proofs.Walking.Distinct
import CMakeDocs.Proofs.Walking.Lasting
import CMakeDocs.Proofs.Walking.Undisturbed

/-!
# What walks title their pages

What can be read of a walk afterwards are the texts that it has written or printed. Each of them
belongs to a deed of the walk: the index of a folder has the title of the folder as its heading, and
the page of a file is opened with the title of the file, which also stands for the name of its
module as long as the file does not give itself another one.
-/
namespace CMakeDocs

/-- Whether something that happens leaves a text to read. -/
def Event.isShown : Event → Bool
  | .print _ => true
  | .write _ _ => true
  | .log _ => false
  | .report _ => false

/-- What there is to read of a text: it has been written to some path, or printed. -/
inductive Event.Bears (text : String) : Event → Prop where
  | write (path : String) : Bears text (.write path text)
  | print : Bears text (.print (text ++ "\n\n"))

def World.shown (w : World) : List Event := w.events.filter Event.isShown

/-- What is written is shown. -/
theorem World.written_eq (w : World) :
    w.written = w.shown.filterMap fun
      | .write path text => some (path, text)
      | _ => none := by
  rw [World.written, World.shown, List.filterMap_filter]
  refine congrArg (w.events.filterMap ·) (funext fun event => ?_)
  cases event <;> rfl

theorem FileTree.contents_of_node? {t t' : FileTree} {here : Address} {path text : String}
    (ht : t.Orderly here) (h : t.contents here path = .ok text)
    (hnode : t.node? here path = t'.node? here path) : t'.contents here path = .ok text := by
  unfold contents at h
  split at h
  · cases h
  · cases h
  · next place hplace =>
    obtain ⟨node, hget, -⟩ := locate_settled ht hplace
    have hsame : t'.node? here path = some node := by
      rw [← hnode, node?, hplace]
      exact hget
    unfold node? at hsame
    split at hsame
    · next place' hplace' =>
      rw [contents, hplace']
      simp only [hsame]
      rwa [hget] at h
    · cases hsame

/-- A page that was opened with a title, for itself and for its module. The entries on it may give
it another title, and the module another name. -/
def Page.OpenedAs (headers : Headers) (title : String) (entries : List Entry) (p : Page) : Prop :=
  p.title = (titleOf? entries).getD title ∧ headers.heading 0 (.text p.title) = .ok p.heading ∧
    List.Forall₂ (fun e b => e.block = .ok b) (withModule title entries) p.blocks

namespace Document

variable {s : Settings} {d : Document}

/-- The entries of a text. -/
def entriesOf? (s : Settings) (text : String) : Option (List Entry) :=
  (Reader.file (Reader.start text)).tree?.map fun tree =>
    (Collector.file s tree .empty).collector.entries

theorem openedAs_process {headers : Headers} {file title text : String}
    (hnew : Document.new headers file (some title) (some title) text = .ok d)
    (hok : (d.process s).error = none) :
    ∃ entries, entriesOf? s text = some entries ∧
      (d.process s).document.page.OpenedAs headers title entries := by
  obtain ⟨heading, hheading, hd⟩ := new_eq_ok hnew
  obtain ⟨tree, -, htree, -⟩ := Reader.file_items d.reader
  obtain ⟨-, hadd⟩ := process_ok_of_tree htree hok
  generalize (d.process s).document.page = page at hadd ⊢
  subst hd
  obtain ⟨-, p₁, blocks, hretitle, hall, rfl⟩ := Page.addEntries_iff.mp hadd
  have hopened : (⟨headers, title, heading, []⟩ : Page).IsTitled := hheading
  have htitled : p₁.IsTitled := hopened.retitle hretitle
  obtain ⟨hheaders, htitle, hblocks⟩ := Page.retitle_ok hretitle
  refine ⟨_, by rw [entriesOf?, htree]; rfl, htitle, ?_, ?_⟩
  · rw [Page.IsTitled, hheaders] at htitled
    exact htitled
  · rw [hblocks]
    exact hall

end Document

namespace Site

variable {s : Settings} {excluded : String → Bool} {w w' w'' : World}
  {output root folder path top sep title : String} {ns : List String}

section Steps

variable {α : Type}

theorem shown_happen (w : World) (events : List Event) :
    (w.happen events).shown = w.shown ++ events.filter Event.isShown :=
  List.filter_append ..

/-- A step that shows nothing. -/
def Silent (r : Run α) : Prop :=
  ∀ w, Ends (fun _ w' => w'.shown = w.shown) (fun w' => w'.shown = w.shown) (r w)

theorem Quiet.silent {r : Run α} (h : Quiet r) : Silent r :=
  fun w => (h w).mono (fun _ _ hsame => by rw [hsame]) fun _ hsame => by rw [hsame]

theorem silent_happen {events : List Event} (h : ∀ event ∈ events, event.isShown = false) :
    Silent (happen events) := by
  intro w
  refine .ok ?_
  rw [shown_happen, List.filter_eq_nil_iff.mpr (by simpa using h), List.append_nil]

theorem silent_say (level : LogLevel) (message : String) : Silent (say level message) :=
  silent_happen (by simp [Event.isShown])

theorem silent_makeFolders (path : String) : Silent (makeFolders path) :=
  fun w => (ends_makeFolders path w).mono (fun _ _ h => by rw [h]; rfl) fun _ h => by rw [h]; rfl

theorem Silent.bind {β : Type} {r : Run α} {f : α → Run β} {post : β → World → Prop}
    {err : World → Prop} (hr : Silent r) (h : w'.shown = w.shown)
    (herr : ∀ w'', w''.shown = w.shown → err w'')
    (hf : ∀ a w'', w''.shown = w.shown → Ends post err (f a w'')) :
    Ends post err ((r >>= f) w') :=
  Ends.bind ((hr w').mono (fun _ _ hw'' => hw''.trans h) fun w'' hw'' => herr w'' (hw''.trans h)) hf

theorem ends_write_shown {target : String} (htarget : Rst.targetPath (.text path) = .ok target)
    (text : String) (w : World) :
    Ends (fun _ w' => w'.shown = w.shown ++ [.write target text])
      (fun w' => w'.shown = w.shown ++ [.write target text]) (write path text w) := by
  have hshown := shown_happen w [.write target text]
  refine (ends_save htarget text w).mono ?_ ?_
  · rintro _ _ ⟨rfl, -⟩
    exact hshown
  · rintro _ rfl
    exact hshown

/-- The text of a page that was opened with a title, for itself and for its module. -/
def IsPageText (s : Settings) (title source text : String) : Prop :=
  ∃ entries page, Document.entriesOf? s source = some entries ∧
    Page.OpenedAs s.headers title entries page ∧ text = page.text

theorem ends_pageText (s : Settings) (path title : String) (w : World) :
    Ends
      (fun text w' => w'.shown = w.shown ∧
        ∃ source, w.files.contents w.place path = .ok source ∧ IsPageText s title source text)
      (fun w' => w'.shown = w.shown) (pageText s path title title w) := by
  unfold pageText
  cases Page.new s.headers title with
  | error e => exact .error rfl
  | ok page =>
    refine Ends.bind ((ends_contents path w).mono (fun _ _ => id) fun w₁ h => by rw [h])
      fun source w₁ hread => ?_
    obtain ⟨hsame, hsource⟩ := hread
    rw [hsame]
    cases hnew : Document.new s.headers path (some title) (some title) source with
    | error e => exact .error rfl
    | ok d =>
      have hsilent : ∀ event ∈ (d.process s).document.reader.reports.map Event.report ++
          (d.process s).logs.map Event.log, event.isShown = false := by
        intro event hevent
        rcases List.mem_append.mp hevent with hmem | hmem
        · obtain ⟨report, -, rfl⟩ := List.mem_map.mp hmem
          rfl
        · obtain ⟨log, -, rfl⟩ := List.mem_map.mp hmem
          rfl
      refine Ends.bind (silent_happen hsilent w) fun _ w₂ hshown => ?_
      cases hok : (d.process s).error with
      | some e => exact .error hshown
      | none =>
        obtain ⟨entries, hentries, hopened⟩ := Document.openedAs_process hnew hok
        exact .ok ⟨hshown, source, hsource, entries, _, hentries, hopened, rfl⟩

end Steps

/-- Settings that leave endings out of titles and have a text for a separator. -/
structure WithoutEndings (s : Settings) (sep : String) : Prop where
  separator : s.separator = .text sep
  titles : s.extensionsInTitles = false
  modules : s.extensionsInModules = false

theorem qualified_way (hsep : s.separator = .text sep) (top : String) (ns : List String) :
    qualified s (.text top) (Path.way ns) = pure (.text (pathTitle top sep ns)) := by
  unfold qualified pathTitle
  dsimp only
  rw [hsep]
  by_cases hway : Path.way ns = sep
  · rw [if_pos hway, if_pos (by simp [Value.isText, hway])]
  · rw [if_neg hway, if_neg (by simpa [Value.isText] using Ne.symm hway)]
    rfl

theorem ends_headingFor (s : Settings) (title : Value) (w : World) :
    Ends (fun heading w' => w'.shown = w.shown ∧ s.headers.heading 0 title = .ok heading)
      (fun w' => w'.shown = w.shown) (headingFor s title w) := by
  unfold headingFor
  cases s.headers.heading 0 title with
  | ok heading => exact .ok ⟨rfl, rfl⟩
  | error e => exact .error rfl

theorem shownName_text (name : String) : shownName false (.text name) = pure (dropEnding name) :=
  rfl

/-- A text with the title of a deed: an index below a heading, or the page of a file. -/
inductive Deed.Titled (s : Settings) (w : World) (root top sep : String) :
    Deed → String → Prop where
  | index {ns : List String} (hns : ∀ part ∈ ns, Path.IsName part) {heading : String}
      (hheading : s.headers.heading 0 (.text (pathTitle top sep ns)) = .ok heading)
      (folders files : List String) :
      Titled s w root top sep ⟨Path.below root ns, .index folders files⟩
        (indexText s heading folders files)
  | document {ns : List String} {name : String} (hns : ∀ part ∈ ns ++ [name], Path.IsName part)
      {source text : String}
      (hsource : w.files.contents w.place (Path.below root (ns ++ [name])) = .ok source)
      (htext : IsPageText s (pageTitle top sep ns name) source text) :
      Titled s w root top sep ⟨Path.below root ns, .document (Path.below root (ns ++ [name]))⟩ text

/-- What there is to read of a deed. Where the pages are printed there are no indexes. -/
inductive Deed.Shows (s : Settings) (w : World) (root top sep : String) (deed : Deed) :
    Event → Prop where
  | write {output text : String} (hs : s.outputFolder = .text output)
      (htext : deed.Titled s w root top sep text) :
      Shows s w root top sep deed (.write (deed.target w output root) text)
  | print {path text : String} (hs : s.outputFolder = .null) (hpath : deed.act = .document path)
      (htext : deed.Titled s w root top sep text) :
      Shows s w root top sep deed (.print (text ++ "\n\n"))

/-- There is at most one more text to read after a deed, and it is the one of the deed. -/
def Deed.AtMostShows (s : Settings) (w : World) (root top sep : String) (deed : Deed)
    (w' w'' : World) : Prop :=
  w''.shown = w'.shown ∨
    ∃ event, deed.Shows s w root top sep event ∧ w''.shown = w'.shown ++ [event]

/-- After a deed there is at most one more text to read, wherever it is, and it has the title of the
deed. -/
def Deed.AtMostTitled (s : Settings) (root top sep : String) (deed : Deed) (w w' : World) : Prop :=
  w'.shown = w.shown ∨ ∃ text event, deed.Titled s w root top sep text ∧ event.Bears text ∧
    w'.shown = w.shown ++ [event]

theorem Deed.Shows.titled {deed : Deed} {event : Event} (h : deed.Shows s w root top sep event) :
    ∃ text, deed.Titled s w root top sep text ∧ event.Bears text := by
  cases h with
  | write hs htext => exact ⟨_, htext, .write _⟩
  | print hs hpath htext => exact ⟨_, htext, .print⟩

/-- Surroundings in which the files below a root can be read as in others. -/
structure SameSources (root : String) (w w' : World) : Prop where
  current : w'.current = w.current
  folder : w'.isFolder root = w.isFolder root
  contents : ∀ ns source, (∀ part ∈ ns, Path.IsName part) →
    w'.files.contents w'.place (Path.below root ns) = .ok source →
    w.files.contents w.place (Path.below root ns) = .ok source

theorem Told.sameSources (h : Told w w') (root : String) : SameSources root w w' := by
  obtain ⟨events, -, rfl⟩ := h
  exact ⟨rfl, rfl, fun _ _ _ h => h⟩

theorem Puts.sameSources {pages : List (String × String)} (h : Puts output w pages w')
    (hw : w.Sound) (hout : w.OutputOutside output root) : SameSources root w w' where
  current := h.current
  folder := by
    have hseen : w'.files.node? w.place root = w.files.node? w.place root :=
      (hout _ h.tree).node [] (by simp)
    rw [World.isFolder, World.isFolder, FileTree.isFolder, FileTree.isFolder, h.place, hseen]
  contents ns source hns hsource := by
    have horderly := h.orderly hw.orderly
    rw [h.place] at horderly hsource
    exact FileTree.contents_of_node? horderly hsource ((hout _ h.tree).node ns hns)

/-- The text of a deed is written in its place. -/
theorem ends_write_titled (hw : w.Sound) (hroot : Path.isAbsolute root = true)
    (hstart : Path.StartsVisibly output) (hs : s.outputFolder = .text output)
    (hns : ∀ part ∈ ns, Path.IsName part) {deed : Deed} (hat : deed.At root ns) {text : String}
    (htext : deed.Titled s w root top sep text) (h : w''.shown = w'.shown) :
    Ends (fun _ => deed.AtMostShows s w root top sep w') (deed.AtMostShows s w root top sep w')
      (write (deed.target w output root) text w'') := by
  have hne := (hat.downward_target hw hroot hns output).ne_empty hstart.ne_empty
  have htrim := hat.trim_target hw hroot hns hstart
  have hall (w₁ : World)
      (h₁ : w₁.shown = w''.shown ++ [.write (deed.target w output root) text]) :
      deed.AtMostShows s w root top sep w' w₁ := .inr ⟨_, .write hs htext, h ▸ h₁⟩
  exact (ends_write_shown (targetPath_of_trim hne htrim) text w'').mono (fun _ => hall) hall

section Deeds

variable {post : World → Prop}

/-- An index comes to what writing a text with its title comes to, if it comes to that. -/
theorem ends_putIndex_titled (hw : w.Sound) (hroot : Path.isAbsolute root = true)
    (hs : s.outputFolder = .text output) (hsep : s.separator = .text sep)
    (hns : ∀ part ∈ ns, Path.IsName part) (hcurrent : w'.current = w.current)
    {folders files : List String} (hsilent : ∀ w₁, w₁.shown = w'.shown → post w₁)
    (hwrite : ∀ text w₁,
      Deed.Titled s w root top sep ⟨Path.below root ns, .index folders files⟩ text →
      w₁.shown = w'.shown → Ends (fun _ => post) post (write (Deed.target w output root
        ⟨Path.below root ns, .index folders files⟩) text w₁)) :
    Ends (fun _ => post) post
      (putIndex s (.text top) root (Path.below root ns) folders files w') := by
  have hway := World.relative_below hw.current_absolute hroot hns
  unfold putIndex
  rw [outputFolder_eq hs, pure_bind]
  unfold writeIndex
  refine Ends.get ?_
  rw [relative_congr hcurrent]
  refine (silent_makeFolders _).bind rfl hsilent fun _ w₁ h₁ => ?_
  refine (quiet_headingFor s _).silent.bind h₁ hsilent fun _ w₂ h₂ => ?_
  have hqualified := qualified_way hsep top ns
  rw [← hway] at hqualified
  rw [hqualified, pure_bind]
  refine Ends.bind ((ends_headingFor s _ w₂).mono (fun _ _ => id)
    fun w₃ h₃ => hsilent w₃ (h₃.trans h₂)) fun heading w₃ h₃ => ?_
  exact hwrite _ w₃ (.index hns h₃.2 folders files) (h₃.1.trans h₂)

variable {name : String}

/-- Where pages are printed, so is that of a file. -/
theorem ends_documentFile_printed (hw : w.Sound) (hroot : Path.isAbsolute root = true)
    (hs : s.outputFolder = .null) (hnames : WithoutEndings s sep) (hsame : SameSources root w w')
    (hfolder : w'.isFolder root = true) (hns : ∀ part ∈ ns ++ [name], Path.IsName part) :
    Ends
      (fun _ w'' => ∃ event, Deed.Shows s w root top sep
          ⟨Path.below root ns, .document (Path.below root (ns ++ [name]))⟩ event ∧
        w''.shown = w'.shown ++ [event])
      (fun w'' => w''.shown = w'.shown)
      (documentFile s (.text top) root (Path.below root (ns ++ [name])) w') := by
  have hway := World.relative_below hw.current_absolute hroot hns
  unfold documentFile
  refine Ends.get ?_
  dsimp only
  rw [if_pos hfolder, relative_congr hsame.current, hway, Option.getD_some,
    qualified_way hnames.separator, pure_bind, hnames.titles, hnames.modules, shownName_text,
    pure_bind, pure_bind, outputFolder_null hs, pure_bind]
  refine Ends.bind (ends_pageText s _ (pageTitle top sep ns name) w') fun text w₁ h₁ => ?_
  obtain ⟨hshown, source, hsource, htext⟩ := h₁
  have htitled := Deed.Titled.document hns (hsame.contents _ _ hns hsource) htext
  refine .ok ⟨_, .print hs rfl htitled, ?_⟩
  rw [← hshown]
  exact shown_happen w₁ _

/-- Where there is a folder for the pages, the page of a file comes to what writing a text with its
title comes to, if it comes to that. -/
theorem ends_documentFile_titled (hw : w.Sound) (hroot : Path.isAbsolute root = true)
    (hs : s.outputFolder = .text output) (hnames : WithoutEndings s sep)
    (hsame : SameSources root w w') (hfolder : w'.isFolder root = true)
    (hns : ∀ part ∈ ns ++ [name], Path.IsName part)
    (hsilent : ∀ w₁, w₁.shown = w'.shown → post w₁)
    (hwrite : ∀ text w₁, Deed.Titled s w root top sep
      ⟨Path.below root ns, .document (Path.below root (ns ++ [name]))⟩ text →
      w₁.shown = w'.shown → Ends (fun _ => post) post (write (Deed.target w output root
        ⟨Path.below root ns, .document (Path.below root (ns ++ [name]))⟩) text w₁)) :
    Ends (fun _ => post) post
      (documentFile s (.text top) root (Path.below root (ns ++ [name])) w') := by
  have hway := World.relative_below hw.current_absolute hroot hns
  have hqualified := qualified_way hnames.separator top (ns ++ [name])
  rw [← hway] at hqualified
  unfold documentFile
  refine Ends.get ?_
  dsimp only
  rw [if_pos hfolder, Option.getD_some, Option.map_some, relative_congr hsame.current,
    hqualified, pure_bind, hnames.titles, hnames.modules, shownName_text,
    pure_bind, pure_bind, outputFolder_eq hs, pure_bind]
  dsimp only
  -- What is said first changes nothing that the file is read from.
  refine Ends.happen ?_
  have h₁ := (shown_happen w' [.log ⟨.site, .info, "Writing for file " ++
    Path.below root (ns ++ [name])⟩]).trans (List.append_nil _)
  refine Ends.bind ((ends_pageText s _ (pageTitle top sep ns name) _).mono (fun _ _ => id)
    fun w₂ h₂ => hsilent w₂ (h₂.trans h₁)) fun text w₂ h₂ => ?_
  obtain ⟨hshown, source, hsource, htext⟩ := h₂
  refine (silent_makeFolders output).bind (hshown.trans h₁) hsilent fun _ w₃ h₃ => ?_
  refine Ends.get ?_
  split
  · refine (silent_say _ _).bind h₃ hsilent fun _ w₄ h₄ => ?_
    exact hwrite text w₄ (.document hns (hsame.contents _ _ hns hsource) htext) h₄
  · exact .ok (hsilent w₃ h₃)

end Deeds

/-- A text with the title of a deed is written to a path, or it is not. -/
theorem ends_write_anywhere {deed : Deed} {text : String}
    (htext : deed.Titled s w root top sep text) (path : String) (h : w'.shown = w.shown) :
    Ends (fun _ => deed.AtMostTitled s root top sep w) (deed.AtMostTitled s root top sep w)
      (write path text w') := by
  cases htarget : Rst.targetPath (.text path) with
  | error e =>
    unfold write
    rw [htarget]
    exact .error (.inl h)
  | ok target =>
    have hall (w₁ : World) (h₁ : w₁.shown = w'.shown ++ [.write target text]) :
        deed.AtMostTitled s root top sep w w₁ :=
      .inr ⟨text, _, htext, .write target, h ▸ h₁⟩
    exact (ends_write_shown htarget text w').mono (fun _ => hall) hall

/-- There is no folder for the pages, there is one, or the settings name something else. -/
theorem outputFolder_cases (s : Settings) : s.outputFolder = .null ∨
    (∃ output, s.outputFolder = .text output) ∨ ∃ e, outputFolder s = throw e := by
  unfold outputFolder
  cases s.outputFolder with
  | null => exact .inl rfl
  | text output => exact .inr (.inl ⟨output, rfl⟩)
  | _ => exact .inr (.inr ⟨_, rfl⟩)

/-- Nothing is shown where the folder for the pages is not a path. -/
theorem silent_of_refused {e : SiteError} (h : outputFolder s = throw e) (rootName : Value)
    (root : String) (deed : Deed) :
    Silent (deed.run (putIndex s rootName root) (documentFile s rootName root)) := by
  have hrefused (w₀ w₁ : World) (h₁ : w₁.shown = w₀.shown) :
      Ends (fun _ _ => False) (fun w₂ => w₂.shown = w₀.shown) (outputFolder s w₁) := by
    rw [h]
    exact .error h₁
  intro w
  obtain ⟨folder, act⟩ := deed
  cases act with
  | index folders files => exact Ends.bind (hrefused w w rfl) fun _ _ hfalse => hfalse.elim
  | document path =>
    have hdocument : Ends (fun _ w' => w'.shown = w.shown) (fun w' => w'.shown = w.shown)
        (documentFile s rootName root path w) := by
      unfold documentFile
      refine Ends.get ?_
      refine (quiet_qualified s _ _).silent.bind rfl (fun _ => id) fun name w₁ h₁ => ?_
      refine (quiet_shownName _ _).silent.bind h₁ (fun _ => id) fun title w₂ h₂ => ?_
      refine (quiet_shownName _ _).silent.bind h₂ (fun _ => id) fun moduleName w₃ h₃ => ?_
      exact Ends.bind (hrefused w w₃ h₃) fun _ _ hfalse => hfalse.elim
    exact hdocument

/-- A deed in any surroundings shows at most one text, with the title that its way gives. -/
theorem ends_deed_titled (hw : w.Sound) (hroot : Path.isAbsolute root = true)
    (hfolder : w.isFolder root = true) (hnames : WithoutEndings s sep) (top : String)
    (hns : ∀ part ∈ ns, Path.IsName part) {deed : Deed} (hat : deed.At root ns) :
    Ends (fun _ => deed.AtMostTitled s root top sep w) (deed.AtMostTitled s root top sep w)
      (deed.run (putIndex s (.text top) root) (documentFile s (.text top) root) w) := by
  have hsame : SameSources root w w := (Told.refl w).sameSources root
  rcases outputFolder_cases s with hs | ⟨output, hs⟩ | ⟨e, hs⟩
  · obtain ⟨folder, act⟩ := deed
    obtain rfl : folder = Path.below root ns := hat.1
    cases act with
    | index folders files =>
      exact ends_putIndex_null hs (.inl rfl) (.text top) root (Path.below root ns) folders files
    | document path =>
      obtain ⟨name, hname, rfl⟩ := hat.2 path rfl
      refine (ends_documentFile_printed hw hroot hs hnames hsame hfolder
        (Path.isName_concat hns hname)).mono ?_ fun _ => .inl
      rintro _ w' ⟨event, hevent, hshown⟩
      obtain ⟨text, htext, hbears⟩ := hevent.titled
      exact .inr ⟨text, event, htext, hbears, hshown⟩
  · obtain ⟨folder, act⟩ := deed
    obtain rfl : folder = Path.below root ns := hat.1
    cases act with
    | index folders files =>
      exact ends_putIndex_titled hw hroot hs hnames.separator hns rfl (fun _ => .inl)
        fun text w₁ htext h => ends_write_anywhere htext _ h
    | document path =>
      obtain ⟨name, hname, rfl⟩ := hat.2 path rfl
      exact ends_documentFile_titled hw hroot hs hnames hsame hfolder
        (Path.isName_concat hns hname) (fun _ => .inl)
        fun text w₁ htext h => ends_write_anywhere htext _ h
  · exact (silent_of_refused hs (.text top) root deed w).mono (fun _ _ => .inl) fun _ => .inl

/-- Whether there is something to read of a deed. -/
def Deed.isShown (s : Settings) (deed : Deed) : Bool :=
  match deed.act, s.outputFolder with
  | .index _ _, .null => false
  | _, _ => true

/-- What there is to read are the texts of some deeds, with their titles. -/
def ShownFor (s : Settings) (w : World) (root top sep : String) (deeds : List Deed) (w' : World) :
    Prop :=
  ∃ events, w'.shown = w.shown ++ events ∧
    List.Forall₂ (Deed.Shows s w root top sep) deeds events

/-- The same for some of the deeds. -/
def ShownPart (s : Settings) (w : World) (root top sep : String) (past : List Deed) (w' : World) :
    Prop :=
  ∃ done, done.Sublist past ∧ ShownFor s w root top sep done w'

variable {past : List Deed} {deed : Deed}

theorem shownFor_nil (s : Settings) (w : World) (root top sep : String) :
    ShownFor s w root top sep [] w := ⟨[], (List.append_nil _).symm, .nil⟩

theorem ShownFor.concat (h : ShownFor s w root top sep past w') {event : Event}
    (hevent : deed.Shows s w root top sep event) (hshown : w''.shown = w'.shown ++ [event]) :
    ShownFor s w root top sep (past ++ [deed]) w'' := by
  obtain ⟨events, hevents, hall⟩ := h
  refine ⟨events ++ [event], ?_, List.rel_append hall (.cons hevent .nil)⟩
  rw [hshown, hevents, List.append_assoc]

theorem ShownPart.concat (h : ShownPart s w root top sep past w')
    (hdeed : deed.AtMostShows s w root top sep w' w'') :
    ShownPart s w root top sep (past ++ [deed]) w'' := by
  obtain ⟨done, hdone, hfor⟩ := h
  rcases hdeed with hsame | ⟨event, hevent, hshown⟩
  · exact ⟨done, hdone.trans (List.sublist_append_left past [deed]), by rwa [ShownFor, hsame]⟩
  · exact ⟨done ++ [deed], hdone.append (List.Sublist.refl _), hfor.concat hevent hshown⟩

/-- Each deed of a walk that writes pages shows at most its own text. -/
theorem carries_written_titles (excluded : String → Bool) (hw : w.Sound)
    (hroot : Path.isAbsolute root = true) (hfolder : w.isFolder root = true)
    (hout : w.OutputOutside output root) (hstart : Path.StartsVisibly output)
    (hs : s.outputFolder = .text output) (hnames : WithoutEndings s sep) (top : String) :
    Carries s excluded w root (putIndex s (.text top) root) (documentFile s (.text top) root)
      (fun past w' => Wrote s w output root past w' ∧ ShownPart s w root top sep past w')
      (fun past w' => WrotePart s w output root past w' ∧ ShownPart s w root top sep past w') := by
  refine (carries_writing excluded hw hroot hfolder hout hstart hs (.text top)).and
    ⟨[], .refl _, shownFor_nil s w root top sep⟩ ?_
  intro ns folders files hreached hlisting deed hdeed past w' hwrote hpart
  obtain ⟨⟨pages, hputs, -⟩, -⟩ := hwrote
  have hns := hreached.isName hw
  have hsame := hputs.sameSources hw hout
  have hat := at_of_mem_visitDeeds hw hlisting hdeed
  suffices hends : Ends (fun _ => deed.AtMostShows s w root top sep w')
      (deed.AtMostShows s w root top sep w')
      (deed.run (putIndex s (.text top) root) (documentFile s (.text top) root) w') from
    hends.mono (fun _ _ => hpart.concat) fun _ => hpart.concat
  obtain ⟨folder, act⟩ := deed
  obtain rfl : folder = Path.below root ns := hat.1
  cases act with
  | index shownFolders shownFiles =>
    exact ends_putIndex_titled hw hroot hs hnames.separator hns hsame.current (fun _ => .inl)
      fun text w₁ htext h => ends_write_titled hw hroot hstart hs hns hat htext h
  | document path =>
    obtain ⟨name, hname, rfl⟩ := hat.2 path rfl
    exact ends_documentFile_titled hw hroot hs hnames hsame (hsame.folder.trans hfolder)
      (Path.isName_concat hns hname) (fun _ => .inl)
      fun text w₁ htext h => ends_write_titled hw hroot hstart hs hns hat htext h

/-- Each file that a walk documents without a folder for the pages is printed. -/
theorem carries_printed_titles (excluded : String → Bool) (hw : w.Sound)
    (hroot : Path.isAbsolute root = true) (hfolder : w.isFolder root = true)
    (hs : s.outputFolder = .null) (hnames : WithoutEndings s sep) (top : String) :
    Carries s excluded w root (putIndex s (.text top) root) (documentFile s (.text top) root)
      (fun past w' => Told w w' ∧ ShownFor s w root top sep (past.filter (Deed.isShown s)) w')
      (fun past w' => Told w w' ∧ ShownPart s w root top sep past w') := by
  refine (carries_printing excluded w root hs (.text top)).and (shownFor_nil s w root top sep) ?_
  intro ns folders files hreached hlisting deed hdeed past w' htold hfor
  have hns := hreached.isName hw
  have hsame := htold.sameSources root
  obtain ⟨hplace, hdocument⟩ := at_of_mem_visitDeeds hw hlisting hdeed
  obtain ⟨folder, act⟩ := deed
  obtain rfl : folder = Path.below root ns := hplace
  rw [List.filter_append]
  cases act with
  | index shownFolders shownFiles =>
    have hnone : [(⟨Path.below root ns, .index shownFolders shownFiles⟩ : Deed)].filter
        (Deed.isShown s) = [] := by simp [Deed.isShown, hs]
    rw [hnone, List.append_nil]
    exact ends_putIndex_null hs hfor (.text top) root (Path.below root ns) shownFolders shownFiles
  | document path =>
    obtain ⟨name, hname, rfl⟩ := hdocument path rfl
    refine (ends_documentFile_printed hw hroot hs hnames hsame (hsame.folder.trans hfolder)
      (Path.isName_concat hns hname)).mono ?_ ?_
    · rintro _ w'' ⟨event, hevent, hshown⟩
      exact hfor.concat hevent hshown
    · intro w'' hshown
      exact ⟨past.filter (Deed.isShown s),
        List.filter_sublist.trans (List.sublist_append_left past _), by rwa [ShownFor, hshown]⟩

/-- Where there is a page for each deed, none of them is missing. -/
theorem ShownPart.all_of_written {pages : List (String × String)}
    (h : ShownPart s w root top sep past w') (hwritten : w'.written = w.written ++ pages)
    (hlength : past.length = pages.length) : ShownFor s w root top sep past w' := by
  obtain ⟨done, hdone, events, hshown, hall⟩ := h
  rw [World.written_eq, World.written_eq, hshown, List.filterMap_append] at hwritten
  have hpages := List.append_cancel_left hwritten
  have hle : pages.length ≤ events.length := hpages ▸ List.length_filterMap_le _ _
  obtain rfl := hdone.eq_of_length_le (by rw [hall.length_eq]; omega)
  exact ⟨events, hshown, hall⟩

theorem filter_isShown (hs : s.outputFolder = .text output) (deeds : List Deed) :
    deeds.filter (Deed.isShown s) = deeds := by
  refine List.filter_eq_self.mpr fun deed _ => ?_
  unfold Deed.isShown
  rw [hs]
  split
  · next h => cases h
  · rfl

/-- A walk is its deeds in turn, and each of them leaves at most one text to read, with the title
that its way gives, wherever the pages go. Where they leave the tree alone, there is such a text for
each deed of the course, unless an error cuts that short. Such a title is a module path only on the
first level, or where the separator is that of paths, and for the root only where the separator is a
dot. -/
theorem titles_of_walk (s : Settings) (excluded : String → Bool) (input root top sep : String)
    (w : World) (hw : w.Sound) (hroot : Path.isAbsolute root = true)
    (hfolder : w.isFolder root = true) (htop : rootNameFor s input = .text top)
    (hnames : WithoutEndings s sep) :
    Ends
      (fun _ => InTurn (Deed.AtMostTitled s root top sep) w
        ((stepsIn s excluded (documentFile s) input root w).map Step.deed))
      (InTurn (Deed.AtMostTitled s root top sep) w
        ((stepsIn s excluded (documentFile s) input root w).map Step.deed))
      (documentFolder s excluded (documentFile s) input root w) ∧
    (LeavesAlone s w root → OutputVisible s →
      Ends
        (fun _ w' =>
          (stepsIn s excluded (documentFile s) input root w).map Step.deed =
              fullCourse s excluded w root ∧
            ShownFor s w root top sep ((fullCourse s excluded w root).filter (Deed.isShown s)) w')
        (fun w' => ShownPart s w root top sep
          ((stepsIn s excluded (documentFile s) input root w).map Step.deed) w')
        (documentFolder s excluded (documentFile s) input root w)) ∧
    TitleRules top sep := by
  refine ⟨inTurn_of_folder hw hfolder excluded input ?_, fun hs hstart => ?_, titleRules top sep⟩
  · rw [htop]
    exact fun ns deed hns hat w' hw' hfolder' =>
      ends_deed_titled hw' hroot hfolder' hnames top hns hat
  rcases hs with hnull | ⟨output, htext, hout⟩
  · have hcarries := carries_printed_titles excluded hw hroot hfolder hnull hnames top
    rw [← htop] at hcarries
    refine (stepsIn_of_carries hw (documentFile s) input hcarries).mono ?_ ?_
    · exact fun _ _ h => ⟨h.1, h.2.2⟩
    · exact fun _ h => h.2.2
  · have hcarries := carries_written_titles excluded hw hroot hfolder hout (hstart output htext)
      htext hnames top
    rw [← htop] at hcarries
    refine (stepsIn_of_carries hw (documentFile s) input hcarries).mono ?_ ?_
    · rintro _ w' ⟨hcourse, ⟨⟨pages, hputs, hpages⟩, -⟩, hpart⟩
      rw [filter_isShown htext]
      exact ⟨hcourse, hpart.all_of_written hputs.written hpages.length_eq⟩
    · exact fun _ h => h.2.2

/-- In a small tree there is a text for each of four deeds, and that of the subfolder has the title
that it should have. -/
theorem fileAndSubfolder_titles : ∃ w',
    documentFolder toPages (fun _ => false) (documentFile toPages) "d" "/d/" fileAndSubfolder =
        .ok () w' ∧
      InTurn (Deed.AtMostTitled toPages "/d/" "d" ".") fileAndSubfolder
        [⟨"/d/", .index ["sub"] ["a.cmake"]⟩, ⟨"/d/", .document "/d/a.cmake"⟩,
          ⟨"/d/sub", .index [] ["b.cmake"]⟩, ⟨"/d/sub", .document "/d/sub/b.cmake"⟩] w' ∧
      ShownFor toPages fileAndSubfolder "/d/" "d" "."
        [⟨"/d/", .index ["sub"] ["a.cmake"]⟩, ⟨"/d/", .document "/d/a.cmake"⟩,
          ⟨"/d/sub", .index [] ["b.cmake"]⟩, ⟨"/d/sub", .document "/d/sub/b.cmake"⟩] w' ∧
      pathTitle "d" "." ["sub"] = modulePath "d" "." ["sub"] := by
  obtain ⟨hturns, hends, hrules⟩ := titles_of_walk toPages (fun _ => false) "d" "/d/" "d" "."
    fileAndSubfolder sound_fileAndSubfolder (by decide) (by decide)
    (congrArg Value.text (by decide)) ⟨rfl, rfl, rfl⟩
  have hends := hends (.inr ⟨"/out", rfl, fileAndSubfolder_outside⟩) outputVisible_toPages
  obtain ⟨w', hrun, hdeeds⟩ := fileAndSubfolder_run
  rw [hrun] at hturns hends
  cases hturns with
  | ok hturn =>
    cases hends with
    | ok h =>
      obtain ⟨hcourse, hshown⟩ := h
      rw [← hcourse, hdeeds, filter_isShown rfl] at hshown
      rw [hdeeds] at hturn
      exact ⟨w', hrun, hturn, hshown, (hrules.folder ["sub"] (by simp) (by decide)).mpr (by decide)⟩

/-- The settings for pages with another separator in their titles. -/
def toColonPages : Settings := { toPages with separator := .text "::" }

/-- Two runs with titles that are no module paths. In a subfolder there is a slash in the title of a
page, and with another separator there is more in the title of the root than its name. -/
theorem fileAndSubfolder_titles_differ :
    (∃ w', documentFolder toPages (fun _ => false) (documentFile toPages) "d" "/d/"
          fileAndSubfolder = .ok () w' ∧
        w'.written =
          [("/out/./index.rst",
              "\n#\nd\n#\n\n.. toctree:: \n   :maxdepth: 2\n\n   sub/index.rst\n   a\n\n"),
            ("/out/a.rst", "\n###\nd.a\n###\n\n.. module:: d.a\n\n"),
            ("/out/sub/index.rst",
              "\n#####\nd.sub\n#####\n\n.. toctree:: \n   :maxdepth: 2\n\n   b\n\n"),
            ("/out/sub/b.rst", "\n#######\nd.sub/b\n#######\n\n.. module:: d.sub/b\n\n")]) ∧
      modulePath "d" "." ["sub", "b"] = "d.sub.b" ∧
      (∃ w', documentFolder toColonPages (fun _ => false) (documentFile toColonPages) "d" "/d/"
          fileAndSubfolder = .ok () w' ∧
        w'.written =
          [("/out/./index.rst",
              "\n####\nd::.\n####\n\n.. toctree:: \n   :maxdepth: 2\n\n   sub/index.rst\n   a\n\n"),
            ("/out/a.rst", "\n####\nd::a\n####\n\n.. module:: d::a\n\n"),
            ("/out/sub/index.rst",
              "\n######\nd::sub\n######\n\n.. toctree:: \n   :maxdepth: 2\n\n   b\n\n"),
            ("/out/sub/b.rst", "\n########\nd::sub/b\n########\n\n.. module:: d::sub/b\n\n")]) ∧
      modulePath "d" "::" [] = "d" :=
  ⟨exists_written_of_run (by decide +kernel), by decide,
    exists_written_of_run (by decide +kernel), by decide⟩

end Site

end CMakeDocs
