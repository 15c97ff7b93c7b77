import CMakeDocs.Proofs.LinkFree
import CMakeDocs.Proofs.Stems
import CMakeDocs.Proofs.Walking.Following
import Mathlib.Data.List.Forall2

/-!
# What a walk writes

Where the folder for the pages lies outside the tree, nothing that is written there changes what the
walk sees. So it follows its course, and each deed writes one page: an index in the folder of its
own, and the page of a file beside it.
-/
namespace CMakeDocs

namespace Site

variable {s : Settings} {excluded : String → Bool} {w w' w'' : World}
  {output root folder path text : String} {folders files ns ms : List String}
  {pages more : List (String × String)}

theorem sees_of_sameBelow (hw : w.Sound) (hcurrent : w'.current = w.current)
    (horder : w'.order = w.order) (h : FileTree.SameBelow w.place root w.files w'.files) :
    Sees root w w' := by
  have hplace : w'.place = w.place := by rw [World.place, World.place, hcurrent]
  have hnames : ∀ ns, (∀ name ∈ ns, Path.IsName name) →
      w'.names? (Path.below root ns) = w.names? (Path.below root ns) := by
    intro ns hns
    rw [World.names?, World.names?, hplace, horder, h.names ns hns]
  have hnode : ∀ ns names name, (∀ name ∈ ns, Path.IsName name) →
      w.names? (Path.below root ns) = some names → name ∈ names →
      w'.files.node? w'.place (Path.join (Path.below root ns) name) =
        w.files.node? w.place (Path.join (Path.below root ns) name) := by
    intro ns names name hns hlisted hname
    rw [hplace, ← Path.below_concat]
    exact h.node (ns ++ [name]) (Path.isName_concat hns ((hw.names? hlisted).2 name hname))
  refine ⟨fun ns hns => ?_, fun ns hns => ?_, fun ns hns => ?_⟩
  · rw [World.listing?, World.listing?, hnames ns hns]
    cases hlisted : w.names? (Path.below root ns) with
    | none => rw [Option.map_none, Option.map_none]
    | some names =>
      have hfolder : ∀ name ∈ names, w'.isFolder (Path.join (Path.below root ns) name) =
          w.isFolder (Path.join (Path.below root ns) name) := by
        intro name hname
        rw [World.isFolder, World.isFolder, FileTree.isFolder, FileTree.isFolder,
          hnode ns names name hns hlisted hname]
      have hother : ∀ name ∈ names, (!w'.isFolder (Path.join (Path.below root ns) name)) =
          !w.isFolder (Path.join (Path.below root ns) name) := by
        intro name hname
        rw [hfolder name hname]
      rw [Option.map_some, Option.map_some, List.partition_eq_filter_filter,
        List.partition_eq_filter_filter, List.filter_congr hfolder]
      refine congrArg some (congrArg (Prod.mk _) ?_)
      exact List.filter_congr hother
  · rw [World.isLink, World.isLink, hplace]
    exact h.link ns hns
  · rw [holdsCMake, holdsCMake, hnames ns hns]
    cases hlisted : w.names? (Path.below root ns) with
    | none => rw [Option.getD_none, List.any_nil, List.any_nil]
    | some names =>
      rw [Option.getD_some, Bool.eq_iff_iff, List.any_eq_true, List.any_eq_true]
      refine exists_congr fun name => and_congr_right fun hname => ?_
      rw [World.isFile, World.isFile, FileTree.isFile, FileTree.isFile,
        hnode ns names name hns hlisted hname]

/-- Surroundings after some pages have been written below a folder. -/
structure Puts (output : String) (w : World) (pages : List (String × String)) (w' : World) :
    Prop where
  current : w'.current = w.current
  order : w'.order = w.order
  tree : FileTree.WrittenBelow w.place output w.files w'.files
  written : w'.written = w.written ++ pages

namespace Puts

theorem place (h : Puts output w pages w') : w'.place = w.place := by
  rw [World.place, World.place, h.current]

theorem refl (output : String) (w : World) : Puts output w [] w :=
  ⟨rfl, rfl, .refl, (List.append_nil _).symm⟩

theorem trans (h : Puts output w pages w') (h' : Puts output w' more w'') :
    Puts output w (pages ++ more) w'' where
  current := h'.current.trans h.current
  order := h'.order.trans h.order
  tree := by
    have htree := h'.tree
    rw [h.place] at htree
    exact h.tree.trans htree
  written := by rw [h'.written, h.written, List.append_assoc]

theorem orderly (h : Puts output w pages w') (hw : w.files.Orderly w.place) :
    w'.files.Orderly w'.place := by
  rw [h.place]
  exact (h.tree.grown hw).orderly

/-- A folder stays a folder. -/
theorem isFolder (h : Puts output w pages w') (hw : w.files.Orderly w.place)
    (hfolder : w.isFolder path = true) : w'.isFolder path = true := by
  rw [World.isFolder, h.place]
  exact FileTree.isFolder_extends (h.tree.grown hw).extends' hfolder

/-- What happens besides writing leaves no page. -/
theorem happen (output : String) (w : World) {events : List Event}
    (h : ∀ path text, .write path text ∉ events) : Puts output w [] (w.happen events) where
  current := rfl
  order := rfl
  tree := .refl
  written := by
    unfold World.happen World.written
    rw [List.filterMap_append]
    refine congrArg _ (List.filterMap_eq_nil_iff.mpr fun event hevent => ?_)
    split
    · next path text => exact absurd hevent (h path text)
    · rfl

end Puts

section Steps

variable {α : Type} {post : α → World → Prop} {err : World → Prop}

theorem Ends.get {f : World → Run α} (h : Ends post err (f w w)) :
    Ends post err ((get >>= f) w) := h

theorem Ends.set {f : PUnit → Run α} (h : Ends post err (f ⟨⟩ w')) :
    Ends post err ((set w' >>= f) w) := h

theorem Ends.happen {f : Unit → Run α} {events : List Event}
    (h : Ends post err (f () (w.happen events))) : Ends post err ((happen events >>= f) w) := h

theorem ends_contents (file : String) (w : World) :
    Ends (fun text w' => w' = w ∧ w.files.contents w.place file = .ok text) (fun w' => w' = w)
      (contents file w) := by
  unfold contents
  refine Ends.get ?_
  cases w.files.contents w.place file with
  | ok text => exact .ok ⟨rfl, rfl⟩
  | error f => exact .error rfl

theorem ends_makeFolders (path : String) (w : World) :
    Ends (fun _ w' => w' = { w with files := (w.files.makeFolders w.place path).1 })
      (fun w' => w' = { w with files := (w.files.makeFolders w.place path).1 })
      (makeFolders path w) := by
  unfold makeFolders
  refine Ends.get ?_
  obtain ⟨files, fault⟩ := w.files.makeFolders w.place path
  refine Ends.set ?_
  cases fault with
  | none => exact .ok rfl
  | some fault => exact .error rfl

theorem targetPath_of_trim (hne : path ≠ "") (htrim : Text.trim path = path) :
    Rst.targetPath (.text path) = .ok path := by
  rw [Rst.targetPath, if_neg hne, htrim]

/-- What is written is noted first, whether it arrives or not. -/
theorem ends_save {target : String} (htarget : Rst.targetPath (.text path) = .ok target)
    (text : String) (w : World) :
    Ends
      (fun _ w' => w' = { w.happen [.write target text] with
          files := (w.files.save w.place target text).1 } ∧
        (w.files.save w.place target text).2 = none)
      (fun w' => w' = { w.happen [.write target text] with
        files := (w.files.save w.place target text).1 })
      (write path text w) := by
  have hsame : (w.happen [.write target text]).files.save (w.happen [.write target text]).place
      target text = w.files.save w.place target text := rfl
  unfold write
  rw [htarget]
  refine Ends.happen (Ends.get ?_)
  rw [hsame]
  obtain ⟨files, fault⟩ := w.files.save w.place target text
  refine Ends.set ?_
  cases fault with
  | none => exact .ok ⟨rfl, rfl⟩
  | some f => exact .error rfl

/-- A step that leaves the surroundings as they are. -/
def Quiet (r : Run α) : Prop := ∀ w, Ends (fun _ w' => w' = w) (fun w' => w' = w) (r w)

theorem quiet_qualified (s : Settings) (rootName : Value) (name : String) :
    Quiet (qualified s rootName name) := by
  intro w
  unfold qualified
  split
  · exact .ok rfl
  · split
    · exact .ok rfl
    · cases rootName.join s.separator name with
      | ok joined => exact .ok rfl
      | error m => exact .error rfl

theorem quiet_shownName (keepsEnding : Bool) (name : Value) :
    Quiet (shownName keepsEnding name) := by
  intro w
  unfold shownName
  split
  · exact .ok rfl
  · exact .ok rfl
  · exact .error rfl

theorem quiet_headingFor (s : Settings) (title : Value) : Quiet (headingFor s title) := by
  intro w
  unfold headingFor
  cases s.headers.heading 0 title with
  | ok heading => exact .ok rfl
  | error e => exact .error rfl

theorem quiet_contents (file : String) : Quiet (contents file) :=
  fun w => (ends_contents file w).mono (fun _ _ h => h.1) fun _ h => h

/-- Surroundings after something has happened, but nothing was written. -/
def Told (w w' : World) : Prop :=
  ∃ events, (∀ path text, .write path text ∉ events) ∧ w' = w.happen events

theorem Told.refl (w : World) : Told w w :=
  ⟨[], by simp, by rw [World.happen, List.append_nil]⟩

theorem Told.trans (h : Told w w') (h' : Told w' w'') : Told w w'' := by
  obtain ⟨events, hevents, rfl⟩ := h
  obtain ⟨later, hlater, rfl⟩ := h'
  refine ⟨events ++ later, fun path text hmem => ?_, ?_⟩
  · rcases List.mem_append.mp hmem with hmem | hmem
    · exact hevents path text hmem
    · exact hlater path text hmem
  · simp only [World.happen, List.append_assoc]

theorem Told.puts (h : Told w w') (output : String) : Puts output w [] w' := by
  obtain ⟨events, hevents, rfl⟩ := h
  exact .happen output w hevents

/-- A step that only tells something. -/
def Tells (r : Run α) : Prop := ∀ w, Ends (fun _ w' => Told w w') (fun w' => Told w w') (r w)

theorem Quiet.tells {r : Run α} (h : Quiet r) : Tells r := by
  intro w
  refine (h w).mono ?_ ?_
  · rintro _ _ rfl
    exact .refl _
  · rintro _ rfl
    exact .refl _

theorem Tells.bind {β : Type} {r : Run α} {f : α → Run β} (hr : Tells r) (hf : ∀ a, Tells (f a)) :
    Tells (r >>= f) := by
  intro w
  refine Ends.bind (hr w) fun a w' hw' => ?_
  exact (hf a w').mono (fun _ _ h => hw'.trans h) fun _ h => hw'.trans h

theorem tells_happen {events : List Event} (h : ∀ path text, .write path text ∉ events) :
    Tells (happen events) := fun _ => .ok ⟨events, h, rfl⟩

theorem tells_pageText (s : Settings) (file title moduleName : String) :
    Tells (pageText s file title moduleName) := by
  unfold pageText
  cases Page.new s.headers title with
  | error e => exact fun w => .error (.refl w)
  | ok page =>
    refine (quiet_contents file).tells.bind fun text => ?_
    cases Document.new s.headers file (some title) (some moduleName) text with
    | error e => exact fun w => .error (.refl w)
    | ok d =>
      refine (tells_happen (by simp)).bind fun _ => ?_
      cases (d.process s).error with
      | none => exact fun w => .ok (.refl w)
      | some e => exact fun w => .error (.refl w)

/-- A step that may make folders below the folder for the pages, but writes no page. -/
def Prepares (output : String) (r : Run α) : Prop :=
  ∀ w, Ends (fun _ w' => Puts output w [] w') (fun w' => Puts output w [] w') (r w)

theorem Tells.prepares {r : Run α} (h : Tells r) (output : String) : Prepares output r :=
  fun w => (h w).mono (fun _ _ hw' => hw'.puts output) fun _ hw' => hw'.puts output

theorem Quiet.prepares {r : Run α} (h : Quiet r) (output : String) : Prepares output r :=
  h.tells.prepares output

theorem prepares_say (output : String) (level : LogLevel) (message : String) :
    Prepares output (say level message) :=
  (tells_happen (by simp)).prepares output

theorem prepares_pageText (output : String) (s : Settings) (file title moduleName : String) :
    Prepares output (pageText s file title moduleName) :=
  (tells_pageText s file title moduleName).prepares output

theorem prepares_makeFolders (hpath : Path.Downward output ms path) :
    Prepares output (makeFolders path) := by
  intro w
  have hputs : Puts output w [] { w with files := (w.files.makeFolders w.place path).1 } :=
    ⟨rfl, rfl, .folders .refl hpath, (List.append_nil _).symm⟩
  refine (ends_makeFolders path w).mono ?_ ?_
  · rintro _ _ rfl
    exact hputs
  · rintro _ rfl
    exact hputs

/-- Where a file could be written, its path leads somewhere. -/
theorem locate_of_save {t : FileTree} {here : Address} (h : (t.save here path text).2 = none)
    (f : FileFault) : t.locate here path ≠ .fault f := by
  intro hfault
  unfold FileTree.save FileTree.write at h
  simp [hfault] at h

theorem ends_write (hpath : Path.Downward output ms path) (hne : path ≠ "")
    (htrim : Text.trim path = path) (text : String) (w : World) :
    Ends (fun _ w' => Puts output w [(path, text)] w' ∧ ∀ f, w.files.locate w.place path ≠ .fault f)
      (fun w' => Puts output w [(path, text)] w') (write path text w) := by
  have hputs : Puts output w [(path, text)]
      { w.happen [.write path text] with files := (w.files.save w.place path text).1 } := by
    refine ⟨rfl, rfl, .file text .refl hpath, ?_⟩
    unfold World.written World.happen
    rw [List.filterMap_append]
    rfl
  refine (ends_save (targetPath_of_trim hne htrim) text w).mono ?_ ?_
  · rintro _ _ ⟨rfl, hsaved⟩
    exact ⟨hputs, locate_of_save hsaved⟩
  · rintro _ rfl
    exact hputs

/-- A step that writes no page comes first. -/
theorem Prepares.bind {β : Type} {r : Run α} {f : α → Run β} {post : β → World → Prop}
    {err : World → Prop} (hr : Prepares output r) (h : Puts output w [] w')
    (herr : ∀ w'', Puts output w [] w'' → err w'')
    (hf : ∀ a w'', Puts output w [] w'' → Ends post err (f a w'')) :
    Ends post err ((r >>= f) w') := by
  refine Ends.bind ((hr w').mono (fun _ w'' hw'' => h.trans hw'') fun w'' hw'' => ?_) hf
  exact herr w'' (h.trans hw'')

theorem outputFolder_eq (hs : s.outputFolder = .text output) :
    outputFolder s = pure (some output) := by
  unfold outputFolder
  rw [hs]

end Steps

namespace Deed

/-- The name of the page of a deed. -/
def pageName : Deed → String
  | ⟨_, .index _ _⟩ => "index.rst"
  | ⟨_, .document path⟩ => Path.stem (Path.baseName path) ++ ".rst"

/-- Where the page of a deed goes. -/
def target (w : World) (output root : String) : Deed → String
  | ⟨folder, .index _ _⟩ => Path.join (Path.join output (w.relative folder root)) "index.rst"
  | ⟨_, .document path⟩ => pagePath output path (some (Path.folderName (w.relative path root)))

/-- What a deed writes: a page in its place, which for an index is made of what the index lists. -/
def Writes (s : Settings) (w : World) (output root : String) (deed : Deed)
    (page : String × String) : Prop :=
  page.1 = deed.target w output root ∧
    ∀ folders files, deed.act = .index folders files →
      ∃ heading, page.2 = indexText s heading folders files

/-- A deed in a folder below a root: what it documents stands in the folder. -/
def At (root : String) (ns : List String) (deed : Deed) : Prop :=
  deed.folder = Path.below root ns ∧
    ∀ path, deed.act = .document path →
      ∃ name, Path.IsName name ∧ path = Path.below root (ns ++ [name])

end Deed

theorem at_of_mem_visitDeeds (hw : w.Sound) {deed : Deed}
    (hlisting : w.listing? (Path.below root ns) = some (folders, files))
    (h : deed ∈ visitDeeds s excluded w (Path.below root ns) folders files) : deed.At root ns := by
  refine ⟨folder_of_mem_visitDeeds h, fun path hpath => ?_⟩
  obtain ⟨-, rfl | ⟨name, hname, -, rfl⟩⟩ := mem_visitDeeds.mp h
  · cases hpath
  · cases hpath
    refine ⟨name, isName_of_mem_keptFiles hw hlisting hname, ?_⟩
    rw [Path.below_concat]

theorem Deed.At.isName_pageName {deed : Deed} (hns : ∀ name ∈ ns, Path.IsName name)
    (h : deed.At root ns) : Path.IsName deed.pageName := by
  obtain ⟨folder, act⟩ := deed
  cases act with
  | index folders files => exact (by decide : Path.IsName "index.rst")
  | document path =>
    obtain ⟨name, hname, rfl⟩ := h.2 path rfl
    rw [pageName, Path.baseName_below hns hname]
    exact Path.isName_page (Path.no_slash_stem hname.no_slash)

/-- The path to the page of a file leads from the folder for the pages through another path. -/
theorem target_document (hw : w.Sound) (hroot : Path.isAbsolute root = true)
    (hns : ∀ name ∈ ns, Path.IsName name) {name : String} (hname : Path.IsName name)
    (output folder : String) :
    ∃ more, Deed.target w output root ⟨folder, .document (Path.below root (ns ++ [name]))⟩ =
        Path.join output more ∧ Path.isAbsolute more = false ∧
      Path.moves more = ns ++ [Path.stem name ++ ".rst"] ∧
      ∃ before, more = before ++ ".rst" := by
  have hpage := Path.isName_page (Path.no_slash_stem hname.no_slash)
  have hall := Path.isName_concat hns hname
  have hway := World.relative_below hw.current_absolute hroot hall
  have hfolder : Path.isAbsolute (Path.folderName (Path.way (ns ++ [name]))) = false := by
    rw [Path.isAbsolute_folderName, Path.isAbsolute_way hall]
  refine ⟨Path.join (Path.folderName (Path.way (ns ++ [name]))) (Path.stem name ++ ".rst"),
    ?_, ?_, ?_, ?_⟩
  · rw [Deed.target, pagePath, hway, Path.baseName_below hns hname]
  · by_cases hempty : Path.folderName (Path.way (ns ++ [name])) = ""
    · rw [hempty, Path.join_empty_left hpage.relative, hpage.relative]
    · rw [Path.isAbsolute_join_relative hpage.relative hempty, hfolder]
  · rw [Path.moves_join _ hpage.relative, Path.moves_folderName_way hns hname,
      Path.moves_of_names (Path.names_name hpage) (by simpa using hpage)]
  · obtain ⟨before, hbefore⟩ := Path.exists_join_eq_prepend
      (Path.folderName (Path.way (ns ++ [name]))) hpage.relative
    exact ⟨before ++ Path.stem name, by rw [hbefore, String.append_assoc]⟩

/-- The page of a deed stands in the place of the folder, below the folder for the pages. -/
theorem Deed.At.downward_target {deed : Deed} (hw : w.Sound) (hroot : Path.isAbsolute root = true)
    (hns : ∀ name ∈ ns, Path.IsName name) (h : deed.At root ns) (output : String) :
    Path.Downward output (ns ++ [deed.pageName]) (deed.target w output root) := by
  have hpage := h.isName_pageName hns
  obtain ⟨folder, act⟩ := deed
  cases act with
  | index folders files =>
    have hfolder : folder = Path.below root ns := h.1
    have hway := World.relative_below hw.current_absolute hroot hns
    rw [← hfolder] at hway
    have hdown : Path.Downward output ([] ++ ns) (Path.join output (Path.way ns)) :=
      Path.Downward.here.down (Path.isAbsolute_way hns) (Path.moves_way hns) hns
    rw [List.nil_append, ← hway] at hdown
    have hmoves : Path.moves "index.rst" = ["index.rst"] := by decide
    exact hdown.down hpage.relative hmoves (by simpa using hpage)
  | document path =>
    obtain ⟨name, hname, rfl⟩ := h.2 path rfl
    obtain ⟨more, htarget, hrelative, hmoves, -⟩ := target_document hw hroot hns hname output folder
    rw [pageName, Path.baseName_below hns hname] at hpage ⊢
    rw [htarget]
    exact Path.Downward.here.down hrelative hmoves (Path.isName_concat hns hpage)

/-- The path of a page ends as that of a page does. -/
theorem Deed.At.exists_target_eq {deed : Deed} (hw : w.Sound) (hroot : Path.isAbsolute root = true)
    (hns : ∀ name ∈ ns, Path.IsName name) (h : deed.At root ns) (output : String) :
    ∃ before, deed.target w output root = before ++ ".rst" := by
  obtain ⟨folder, act⟩ := deed
  cases act with
  | index folders files =>
    have hrelative : Path.isAbsolute "index.rst" = false := by decide
    obtain ⟨before, hbefore⟩ := Path.exists_join_eq_prepend
      (Path.join output (w.relative folder root)) hrelative
    refine ⟨before ++ "index", ?_⟩
    rw [target, hbefore, String.append_assoc]
    rfl
  | document path =>
    obtain ⟨name, hname, rfl⟩ := h.2 path rfl
    obtain ⟨more, htarget, hrelative, -, before, hmore⟩ :=
      target_document hw hroot hns hname output folder
    obtain ⟨first, hfirst⟩ := Path.exists_join_eq_prepend output hrelative
    exact ⟨first ++ before, by rw [htarget, hfirst, hmore, String.append_assoc]⟩

/-- The path of a page has no blanks around it. -/
theorem Deed.At.trim_target {deed : Deed} (hw : w.Sound) (hroot : Path.isAbsolute root = true)
    (hns : ∀ name ∈ ns, Path.IsName name) (h : deed.At root ns)
    (hstart : Path.StartsVisibly output) :
    Text.trim (deed.target w output root) = deed.target w output root := by
  obtain ⟨c, cs, hlist, hblank⟩ := hstart
  obtain ⟨rest, hrest⟩ := (h.downward_target hw hroot hns output).exists_eq_append
  obtain ⟨before, hbefore⟩ := h.exists_target_eq hw hroot hns output
  refine Text.trim_of_ends ?_ ?_
  · intro first hfirst
    rw [hrest, String.toList_append, hlist] at hfirst
    obtain rfl : c = first := by simpa using hfirst
    exact hblank
  · intro last hlast
    have hrst : ".rst".toList = ".rs".toList ++ ['t'] := rfl
    rw [hbefore, String.toList_append, hrst, ← List.append_assoc, List.getLast?_concat] at hlast
    obtain rfl : 't' = last := by simpa using hlast
    decide

/-- A deed that was tried: its page may have been written. -/
def Tried (s : Settings) (w : World) (output root : String) (deed : Deed) (w' w'' : World) : Prop :=
  Puts output w' [] w'' ∨ ∃ page, deed.Writes s w output root page ∧ Puts output w' [page] w''

/-- What stands below a folder for pages is written only if there is such a folder. -/
theorem isFolder_of_index (houtput : output ≠ "") (hns : ∀ name ∈ ns, Path.IsName name)
    {t : FileTree} {here : Address}
    (h : ∀ f, t.locate here (Path.join (Path.join output (Path.way ns)) "index.rst") ≠ .fault f) :
    t.isFolder here output = true := by
  have hrelative := Path.isAbsolute_way hns
  have hinner := FileTree.isFolder_of_join (Path.join_ne_empty hrelative houtput) (by decide)
    ⟨"index.rst", by decide, by decide⟩ h
  exact FileTree.isFolder_of_join houtput hrelative (Path.exists_mem_parts_way hns)
    (FileTree.locate_of_isFolder hinner)

theorem relative_congr (hcurrent : w'.current = w.current) (path root : String) :
    w'.relative path root = w.relative path root := by
  simp only [World.relative, World.absolute, hcurrent]

theorem ends_putIndex (hw : w.Sound) (hroot : Path.isAbsolute root = true)
    (hstart : Path.StartsVisibly output) (hs : s.outputFolder = .text output)
    (hns : ∀ name ∈ ns, Path.IsName name) (hcurrent : w'.current = w.current)
    (hfiles : w'.files.Orderly w'.place) (rootName : Value) (folders files : List String) :
    Ends (fun _ w'' => (∃ page, Deed.Writes s w output root
          ⟨Path.below root ns, .index folders files⟩ page ∧ Puts output w' [page] w'') ∧
          w''.isFolder output = true)
      (Tried s w output root ⟨Path.below root ns, .index folders files⟩ w')
      (putIndex s rootName root (Path.below root ns) folders files w') := by
  have hat : Deed.At root ns ⟨Path.below root ns, .index folders files⟩ :=
    ⟨rfl, fun path hpath => by cases hpath⟩
  have hway := World.relative_below hw.current_absolute hroot hns
  have hdown := hat.downward_target hw hroot hns output
  have htrim := hat.trim_target hw hroot hns hstart
  rw [Deed.target, hway] at hdown htrim
  unfold putIndex
  rw [outputFolder_eq hs, pure_bind]
  unfold writeIndex
  refine Ends.get ?_
  rw [relative_congr hcurrent, hway]
  have hfolder : Path.Downward output ([] ++ ns) (Path.join output (Path.way ns)) :=
    Path.Downward.here.down (Path.isAbsolute_way hns) (Path.moves_way hns) hns
  refine (prepares_makeFolders hfolder).bind (.refl output w') (fun _ => .inl) fun _ w₁ h₁ => ?_
  refine ((quiet_headingFor s _).prepares output).bind h₁ (fun _ => .inl) fun _ w₂ h₂ => ?_
  refine ((quiet_qualified s _ _).prepares output).bind h₂ (fun _ => .inl) fun title w₃ h₃ => ?_
  refine ((quiet_headingFor s _).prepares output).bind h₃ (fun _ => .inl) fun heading w₄ h₄ => ?_
  have hwrites : Deed.Writes s w output root ⟨Path.below root ns, .index folders files⟩
      (Path.join (Path.join output (Path.way ns)) "index.rst",
        indexText s heading folders files) := by
    refine ⟨by rw [Deed.target, hway], fun folders' files' hact => ?_⟩
    cases hact
    exact ⟨heading, rfl⟩
  refine (ends_write hdown (hdown.ne_empty hstart.ne_empty) htrim _ w₄).mono ?_ ?_
  · rintro _ w₅ ⟨h₅, hlocate⟩
    refine ⟨⟨_, hwrites, h₄.trans h₅⟩, h₅.isFolder (h₄.orderly hfiles) ?_⟩
    exact isFolder_of_index hstart.ne_empty hns hlocate
  · exact fun w₅ h₅ => .inr ⟨_, hwrites, h₄.trans h₅⟩

theorem ends_documentFile (hw : w.Sound) (hroot : Path.isAbsolute root = true)
    (hstart : Path.StartsVisibly output) (hs : s.outputFolder = .text output)
    (hns : ∀ name ∈ ns, Path.IsName name) (hcurrent : w'.current = w.current)
    (hfiles : w'.files.Orderly w'.place) (hfolder : w'.isFolder root = true)
    (houtput : w'.isFolder output = true) (rootName : Value) {folder : String}
    (hat : Deed.At root ns ⟨folder, .document path⟩) :
    Ends (fun _ w'' => ∃ page, Deed.Writes s w output root ⟨folder, .document path⟩ page ∧
        Puts output w' [page] w'')
      (Tried s w output root ⟨folder, .document path⟩ w')
      (documentFile s rootName root path w') := by
  have hdown := hat.downward_target hw hroot hns output
  have htrim := hat.trim_target hw hroot hns hstart
  rw [Deed.target] at hdown htrim
  unfold documentFile
  refine Ends.get ?_
  dsimp only
  rw [if_pos hfolder, relative_congr hcurrent, Option.getD_some, Option.map_some]
  refine ((quiet_qualified s _ _).prepares output).bind (.refl output w') (fun _ => .inl)
    fun name w₁ h₁ => ?_
  refine ((quiet_shownName _ _).prepares output).bind h₁ (fun _ => .inl) fun title w₂ h₂ => ?_
  refine ((quiet_shownName _ _).prepares output).bind h₂ (fun _ => .inl) fun moduleName w₃ h₃ => ?_
  rw [outputFolder_eq hs, pure_bind]
  dsimp only
  have hsay := prepares_say output .info ("Writing for file " ++ path)
  refine hsay.bind h₃ (fun _ => .inl) fun _ w₄ h₄ => ?_
  refine (prepares_pageText output s path title moduleName).bind h₄ (fun _ => .inl)
    fun text w₅ h₅ => ?_
  refine (prepares_makeFolders .here).bind h₅ (fun _ => .inl) fun _ w₆ h₆ => ?_
  refine Ends.get ?_
  rw [if_pos (h₆.isFolder hfiles houtput)]
  have hsay := prepares_say output .info ("Writing RST file " ++
    pagePath output path (some (Path.folderName (w.relative path root))))
  refine hsay.bind h₆ (fun _ => .inl) fun _ w₇ h₇ => ?_
  have hwrites : Deed.Writes s w output root ⟨folder, .document path⟩
      (pagePath output path (some (Path.folderName (w.relative path root))), text) :=
    ⟨by rw [Deed.target], fun folders' files' hact => by cases hact⟩
  refine (ends_write hdown (hdown.ne_empty hstart.ne_empty) htrim text w₇).mono ?_ ?_
  · exact fun _ w₈ h₈ => ⟨_, hwrites, h₇.trans h₈.1⟩
  · exact fun w₈ h₈ => .inr ⟨_, hwrites, h₇.trans h₈⟩

/-- Surroundings after some deeds, each of which has written its page. -/
structure Wrote (s : Settings) (w : World) (output root : String) (past : List Deed) (w' : World) :
    Prop where
  pages : ∃ pages, Puts output w pages w' ∧
    List.Forall₂ (Deed.Writes s w output root) past pages
  folder : past ≠ [] → w'.isFolder output = true

/-- Surroundings after some deeds, of which the last one may not have written its page. -/
def WrotePart (s : Settings) (w : World) (output root : String) (past : List Deed) (w' : World) :
    Prop :=
  ∃ done pages, done <+: past ∧ Puts output w pages w' ∧
    List.Forall₂ (Deed.Writes s w output root) done pages

theorem writes_concat {deed : Deed} {past : List Deed} {page : String × String}
    (h : List.Forall₂ (Deed.Writes s w output root) past pages)
    (hpage : deed.Writes s w output root page) :
    List.Forall₂ (Deed.Writes s w output root) (past ++ [deed]) (pages ++ [page]) :=
  List.rel_append h (.cons hpage .nil)

theorem Tried.wrotePart {deed : Deed} {past : List Deed}
    (h : Tried s w output root deed w' w'') (hputs : Puts output w pages w')
    (hpages : List.Forall₂ (Deed.Writes s w output root) past pages) :
    WrotePart s w output root (past ++ [deed]) w'' := by
  rcases h with hnone | ⟨page, hpage, hone⟩
  · have hboth := hputs.trans hnone
    rw [List.append_nil] at hboth
    exact ⟨past, pages, List.prefix_append past [deed], hboth, hpages⟩
  · exact ⟨past ++ [deed], pages ++ [page], List.prefix_refl _, hputs.trans hone,
      writes_concat hpages hpage⟩

/-- Each deed of a walk writes its page, and the walk still sees the tree that it started in. -/
theorem carries_writing (excluded : String → Bool) (hw : w.Sound)
    (hroot : Path.isAbsolute root = true) (hfolder : w.isFolder root = true)
    (hout : w.OutputOutside output root) (hstart : Path.StartsVisibly output)
    (hs : s.outputFolder = .text output) (rootName : Value) :
    Carries s excluded w root (putIndex s rootName root) (documentFile s rootName root)
      (Wrote s w output root) (WrotePart s w output root) where
  start := ⟨⟨[], .refl output w, .nil⟩, fun h => absurd rfl h⟩
  sees past w' hinv _ := by
    obtain ⟨⟨pages, hputs, -⟩, -⟩ := hinv
    exact sees_of_sameBelow hw hputs.current hputs.order (hout _ hputs.tree)
  does ns folders files hreached hlisting deed hdeed past w' hinv hpast := by
    obtain ⟨⟨pages, hputs, hpages⟩, houtput⟩ := hinv
    have hns := hreached.isName hw
    have hat := at_of_mem_visitDeeds hw hlisting hdeed
    have hfiles := hputs.orderly hw.orderly
    have hseen : w'.files.node? w.place root = w.files.node? w.place root :=
      (hout _ hputs.tree).node [] (by simp)
    obtain ⟨folder, act⟩ := deed
    cases act with
    | index shownFolders shownFiles =>
      obtain rfl : folder = Path.below root ns := hat.1
      refine (ends_putIndex hw hroot hstart hs hns hputs.current hfiles rootName shownFolders
        shownFiles).mono ?_ fun w'' htried => htried.wrotePart hputs hpages
      rintro _ w'' ⟨⟨page, hpage, hone⟩, hmade⟩
      exact ⟨⟨pages ++ [page], hputs.trans hone, writes_concat hpages hpage⟩, fun _ => hmade⟩
    | document path =>
      have hmade := houtput (hpast ⟨path, rfl⟩)
      have hfolder' : w'.isFolder root = true := by
        rw [World.isFolder, FileTree.isFolder, hputs.place, hseen]
        exact hfolder
      refine (ends_documentFile hw hroot hstart hs hns hputs.current hfiles hfolder' hmade rootName
        hat).mono ?_ fun w'' htried => htried.wrotePart hputs hpages
      rintro _ w'' ⟨page, hpage, hone⟩
      exact ⟨⟨pages ++ [page], hputs.trans hone, writes_concat hpages hpage⟩,
        fun _ => hone.isFolder hfiles hmade⟩

/-- What documenting a folder does is its course, and what it writes are the pages of its deeds.
After an error that is so for a first part of both. -/
theorem written_of_folder (hw : w.Sound) (hroot : Path.isAbsolute root = true)
    (hfolder : w.isFolder root = true) (hout : w.OutputOutside output root)
    (hstart : Path.StartsVisibly output) (hs : s.outputFolder = .text output)
    (excluded : String → Bool) (input : String) :
    Ends
      (fun _ w' =>
        (stepsIn s excluded (documentFile s) input root w).map Step.deed =
            fullCourse s excluded w root ∧
          ∃ pages, w'.written = w.written ++ pages ∧
            List.Forall₂ (Deed.Writes s w output root) (fullCourse s excluded w root) pages)
      (fun w' =>
        (stepsIn s excluded (documentFile s) input root w).map Step.deed <+:
            fullCourse s excluded w root ∧
          ∃ done pages, done <+: (stepsIn s excluded (documentFile s) input root w).map Step.deed ∧
            w'.written = w.written ++ pages ∧
            List.Forall₂ (Deed.Writes s w output root) done pages)
      (documentFolder s excluded (documentFile s) input root w) := by
  have hcarries := carries_writing excluded hw hroot hfolder hout hstart hs (rootNameFor s input)
  refine (stepsIn_of_carries hw (documentFile s) input hcarries).mono ?_ ?_
  · rintro _ w' ⟨hcourse, ⟨pages, hputs, hpages⟩, -⟩
    exact ⟨hcourse, pages, hputs.written, hpages⟩
  · rintro w' ⟨hcourse, done, pages, hdone, hputs, hpages⟩
    exact ⟨hcourse, done, pages, hdone, hputs.written, hpages⟩

/-- The settings for pages of a folder and all its subfolders. -/
def toPages : Settings :=
  { (default : Settings) with outputFolder := .text "/out", recursive := true }

theorem fileAndSubfolder_outside : fileAndSubfolder.OutputOutside "/out" "/d/" := by
  refine World.outputOutside_of_linkFree sound_fileAndSubfolder.orderly
    (FileTree.linkFree_of_nodes ?_) ?_ ?_ ?_ ?_ ?_ ?_
  · decide
  · decide
  · decide
  · decide
  · decide
  · decide
  · unfold FileTree.Around
    decide

theorem startsVisibly_out : Path.StartsVisibly "/out" :=
  Path.startsVisibly_of_isAbsolute (by decide)

theorem fileAndSubfolder_run : ∃ w',
    documentFolder toPages (fun _ => false) (documentFile toPages) "d" "/d/" fileAndSubfolder =
        .ok () w' ∧
      (stepsIn toPages (fun _ => false) (documentFile toPages) "d" "/d/" fileAndSubfolder).map
          Step.deed =
        [⟨"/d/", .index ["sub"] ["a.cmake"]⟩, ⟨"/d/", .document "/d/a.cmake"⟩,
          ⟨"/d/sub", .index [] ["b.cmake"]⟩, ⟨"/d/sub", .document "/d/sub/b.cmake"⟩] :=
  exists_run_of_traced (by simp) (by decide +kernel)

end Site

end CMakeDocs
