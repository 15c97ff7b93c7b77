import CMakeDocs.Proofs.Walking.Writing
import Mathlib.Data.List.Nodup

/-!
# Pages with places of their own

A walk comes to each folder once, and the pages of different folders go to different folders. So two
pages have the same path only if they belong to one folder and have the same name: that of two
files with the same stem, or that of the index and of a file with the stem `index`.
-/
namespace CMakeDocs.Site

variable {s : Settings} {excluded : String → Bool} {w : World} {root output : String}
  {folders files ns : List String} {deed other : Deed} {deeds first later part : List Deed}
  {pages : List (String × String)}

theorem nodup_visitDeeds (hw : w.Sound) (hns : ∀ name ∈ ns, Path.IsName name)
    (hlisting : w.listing? (Path.below root ns) = some (folders, files)) :
    (visitDeeds s excluded w (Path.below root ns) folders files).Nodup := by
  have hnames : ∀ name ∈ (Text.sort (keptFiles excluded (Path.below root ns) files)).filter
      isCMakeName, Path.IsName name := by
    intro name hname
    have hkept := (Text.sort_perm _).mem_iff.mp (List.mem_filter.mp hname).1
    exact isName_of_mem_keptFiles hw hlisting hkept
  unfold visitDeeds
  dsimp only
  split
  · exact List.nodup_nil
  · refine List.nodup_cons.mpr ⟨?_, ?_⟩
    · intro hmem
      obtain ⟨name, -, hname⟩ := List.mem_map.mp hmem
      cases hname
    · have hsorted : (Text.sort (keptFiles excluded (Path.below root ns) files)).Nodup :=
        (Text.sort_perm _).nodup_iff.mpr (nodup_keptFiles hw hlisting)
      refine List.Nodup.map_on ?_ (hsorted.filter _)
      intro name hname name' hname' hsame
      injection hsame with _ hact
      injection hact with hpath
      exact Path.join_below_inj hns (hnames name hname) (hnames name' hname') hpath

theorem nodup_inTurn (hfirst : first.Nodup) (hlater : later.Nodup) (h : first.Disjoint later) :
    (inTurn s first later).Nodup := by
  unfold inTurn
  split
  · exact List.nodup_append'.mpr ⟨hfirst, hlater, h⟩
  · exact hfirst

theorem nodup_courseAll {enter : String → List Deed} {names : List String} (hnames : names.Nodup)
    (henter : ∀ name ∈ names, (enter name).Nodup)
    (hapart : ∀ name ∈ names, ∀ name' ∈ names, name ≠ name' →
      (enter name).Disjoint (enter name')) : (courseAll s enter names).Nodup := by
  induction names with
  | nil => exact List.nodup_nil
  | cons name names ih =>
    obtain ⟨hname, hnames⟩ := List.nodup_cons.mp hnames
    refine nodup_inTurn (henter name List.mem_cons_self) (ih hnames ?_ ?_) ?_
    · exact fun other hother => henter other (List.mem_cons_of_mem name hother)
    · intro a ha b hb
      exact hapart a (List.mem_cons_of_mem name ha) b (List.mem_cons_of_mem name hb)
    · intro deed hdeed hlater
      obtain ⟨other, hother, hin, -⟩ := exists_of_mem_courseAll hlater
      have hne : name ≠ other := by
        rintro rfl
        exact hname hother
      exact hapart name List.mem_cons_self other (List.mem_cons_of_mem name hother) hne hdeed hin

/-- The folder of a deed is below the one that the walk has come to. -/
theorem folder_of_mem_course (hw : w.Sound) {depth : Nat} (hreached : Reached s excluded w root ns)
    (h : deed ∈ course s excluded w depth (Path.below root ns)) :
    ∃ ms, (∀ name ∈ ns ++ ms, Path.IsName name) ∧ deed.folder = Path.below root (ns ++ ms) := by
  obtain ⟨ms, folders, files, hms, -, hdeed, -⟩ := exists_of_mem_course ns hreached h
  exact ⟨ms, hms.isName hw, folder_of_mem_visitDeeds hdeed⟩

theorem nodup_course (hw : w.Sound) (depth : Nat) (hreached : Reached s excluded w root ns) :
    (course s excluded w depth (Path.below root ns)).Nodup := by
  induction depth generalizing ns with
  | zero => exact List.nodup_nil
  | succ depth ih =>
    cases hlisting : w.listing? (Path.below root ns) with
    | none => simp [course_of_none hlisting]
    | some listing =>
      obtain ⟨folders, files⟩ := listing
      rw [course_succ hlisting]
      -- What is done in a subfolder tells its name, and it is not done in the folder itself.
      have hinto : ∀ name ∈ keptFolders s excluded w (Path.below root ns) folders,
          (courseInto s excluded w depth (Path.below root ns) name).Nodup ∧
            ∀ deed ∈ courseInto s excluded w depth (Path.below root ns) name,
              ∃ ms, (∀ part ∈ ns ++ name :: ms, Path.IsName part) ∧
                deed.folder = Path.below root (ns ++ name :: ms) := by
        intro name hname
        rcases courseInto_cases depth hreached hlisting hname with hnone | ⟨hsub, hinto⟩
        · simp [hnone]
        · rw [hinto]
          refine ⟨ih hsub, fun deed hdeed => ?_⟩
          obtain ⟨ms, hms, hfolder⟩ := folder_of_mem_course hw hsub hdeed
          rw [List.append_assoc, List.singleton_append] at hms hfolder
          exact ⟨ms, hms, hfolder⟩
      refine nodup_inTurn (nodup_visitDeeds hw (hreached.isName hw) hlisting)
        (nodup_courseAll ?_ (fun name hname => (hinto name hname).1) ?_) ?_
      · exact nodup_keptFolders hw hlisting
      · intro name hname name' hname' hne deed hdeed hdeed'
        obtain ⟨ms, hms, hfolder⟩ := (hinto name hname).2 deed hdeed
        obtain ⟨ms', hms', hfolder'⟩ := (hinto name' hname').2 deed hdeed'
        have hsame := Path.below_injective hms hms' (hfolder.symm.trans hfolder')
        exact hne (List.cons.inj (List.append_cancel_left hsame)).1
      · intro deed hdeed hlater
        obtain ⟨name, hname, hin, -⟩ := exists_of_mem_courseAll hlater
        obtain ⟨ms, hms, hfolder⟩ := (hinto name hname).2 deed hin
        have hsame := Path.below_injective (hreached.isName hw) hms
          ((folder_of_mem_visitDeeds hdeed).symm.trans hfolder)
        simp at hsame

/-- Deeds that come in an order in which the index of a folder comes before its files. -/
def Led (deeds : List Deed) : Prop :=
  ∀ part, part <+: deeds → ∀ folder path, (⟨folder, .document path⟩ : Deed) ∈ part →
    ∃ folders files, (⟨folder, .index folders files⟩ : Deed) ∈ part

theorem Led.nil : Led [] := by
  intro part hpart folder path hmem
  rw [List.prefix_nil.mp hpart] at hmem
  simp at hmem

theorem Led.append (hfirst : Led first) (hlater : Led later) : Led (first ++ later) := by
  intro part hpart folder path hmem
  rcases List.prefix_or_prefix_of_prefix hpart (List.prefix_append first later)
    with hpart' | ⟨more, rfl⟩
  · exact hfirst part hpart' folder path hmem
  · have hmore : more <+: later := (List.prefix_append_right_inj first).mp hpart
    rcases List.mem_append.mp hmem with hmem | hmem
    · obtain ⟨folders, files, hindex⟩ := hfirst first (List.prefix_refl _) folder path hmem
      exact ⟨folders, files, List.mem_append_left more hindex⟩
    · obtain ⟨folders, files, hindex⟩ := hlater more hmore folder path hmem
      exact ⟨folders, files, List.mem_append_right first hindex⟩

theorem led_inTurn (hfirst : Led first) (hlater : Led later) : Led (inTurn s first later) := by
  unfold inTurn
  split
  · exact hfirst.append hlater
  · exact hfirst

theorem led_visitDeeds {folder : String} : Led (visitDeeds s excluded w folder folders files) := by
  intro part hpart other path hmem
  have hother : other = folder := folder_of_mem_visitDeeds (hpart.subset hmem)
  unfold visitDeeds at hpart
  dsimp only at hpart
  split at hpart
  · rw [List.prefix_nil.mp hpart] at hmem
    simp at hmem
  · -- The index is the first deed, so a part that is not empty has it.
    rcases List.prefix_cons_iff.mp hpart with rfl | ⟨rest, rfl, -⟩
    · simp at hmem
    · rw [hother]
      exact ⟨_, _, List.mem_cons_self⟩

theorem led_courseAll {enter : String → List Deed} {names : List String}
    (h : ∀ name ∈ names, Led (enter name)) : Led (courseAll s enter names) := by
  induction names with
  | nil => exact .nil
  | cons name names ih =>
    refine led_inTurn (h name List.mem_cons_self) (ih fun other hother => ?_)
    exact h other (List.mem_cons_of_mem name hother)

theorem led_course (depth : Nat) (folder : String) : Led (course s excluded w depth folder) := by
  induction depth generalizing folder with
  | zero => exact .nil
  | succ depth ih =>
    cases hlisting : w.listing? folder with
    | none =>
      rw [course_of_none hlisting]
      exact .nil
    | some listing =>
      rw [course_succ hlisting]
      refine led_inTurn led_visitDeeds (led_courseAll fun name _ => ?_)
      unfold courseInto
      split
      · exact .nil
      · exact ih _

/-- The stems of the CMake files among some files are all different, and none of them is that of an
index. -/
def StemsApart (files : List String) : Prop :=
  ("index" :: (files.filter isCMakeName).map Path.stem).Nodup

instance (files : List String) : Decidable (StemsApart files) :=
  inferInstanceAs (Decidable (List.Nodup _))

/-- The names of the pages of a folder. -/
theorem map_pageName_visitDeeds (hw : w.Sound) (hns : ∀ name ∈ ns, Path.IsName name)
    (hlisting : w.listing? (Path.below root ns) = some (folders, files))
    (hsome : visitDeeds s excluded w (Path.below root ns) folders files ≠ []) :
    (visitDeeds s excluded w (Path.below root ns) folders files).map Deed.pageName =
      ("index" :: ((Text.sort (keptFiles excluded (Path.below root ns) files)).filter
        isCMakeName).map Path.stem).map (· ++ ".rst") := by
  unfold visitDeeds at hsome ⊢
  dsimp only at hsome ⊢
  split at hsome
  · exact absurd rfl hsome
  · next hskip =>
    have hfirst : "index.rst" = "index" ++ ".rst" := rfl
    rw [if_neg hskip, List.map_cons, List.map_cons, List.map_map, List.map_map, Deed.pageName,
      hfirst]
    refine congrArg _ (List.map_congr_left fun name hname => ?_)
    have hkept := (Text.sort_perm _).mem_iff.mp (List.mem_filter.mp hname).1
    have hvalid := isName_of_mem_keptFiles hw hlisting hkept
    rw [Function.comp_apply, Function.comp_apply, Deed.pageName, ← Path.below_concat,
      Path.baseName_below hns hvalid]

/-- The pages of a folder have different names just if its stems are apart. -/
theorem nodup_pageName_iff (hw : w.Sound) (hns : ∀ name ∈ ns, Path.IsName name)
    (hlisting : w.listing? (Path.below root ns) = some (folders, files))
    (hsome : visitDeeds s excluded w (Path.below root ns) folders files ≠ []) :
    ((visitDeeds s excluded w (Path.below root ns) folders files).map Deed.pageName).Nodup ↔
      StemsApart (Text.sort (keptFiles excluded (Path.below root ns) files)) := by
  have hinjective : Function.Injective fun stem : String => stem ++ ".rst" := by
    intro first second hsame
    refine String.toList_injective ?_
    have hlist := congrArg String.toList hsame
    rw [String.toList_append, String.toList_append] at hlist
    exact List.append_cancel_right hlist
  rw [map_pageName_visitDeeds hw hns hlisting hsome, List.nodup_map_iff hinjective]
  rfl

/-- Pages of deeds have the same path just if they have the same name in the same folder. -/
theorem target_eq_iff (hw : w.Sound) (hroot : Path.isAbsolute root = true) (houtput : output ≠ "")
    {ms : List String} (hns : ∀ name ∈ ns, Path.IsName name)
    (hms : ∀ name ∈ ms, Path.IsName name) (hdeed : deed.At root ns) (hother : other.At root ms) :
    w.absolute (deed.target w output root) = w.absolute (other.target w output root) ↔
      ns = ms ∧ deed.pageName = other.pageName := by
  rw [World.absolute_downward_inj hw.current_absolute houtput
    (hdeed.downward_target hw hroot hns output) (hother.downward_target hw hroot hms output)]
  constructor
  · intro h
    obtain ⟨hfolder, hname⟩ := List.append_inj' h rfl
    exact ⟨hfolder, List.singleton_inj.mp hname⟩
  · rintro ⟨rfl, hname⟩
    rw [hname]

/-- Pages whose paths are all different, as seen from the root of the file tree. -/
def PathsApart (w : World) (pages : List (String × String)) : Prop :=
  ((pages.map Prod.fst).map w.absolute).Nodup

theorem pathsApart_iff (h : List.Forall₂ (Deed.Writes s w output root) deeds pages) :
    PathsApart w pages ↔ (deeds.map fun deed => w.absolute (deed.target w output root)).Nodup := by
  have hsame : (pages.map Prod.fst).map w.absolute =
      deeds.map fun deed => w.absolute (deed.target w output root) := by
    induction h with
    | nil => rfl
    | cons hpage _ ih => rw [List.map_cons, List.map_cons, List.map_cons, ih, hpage.1]
  rw [PathsApart, hsame]

/-- Every folder that an index is made for has stems that are apart. -/
def EachStemsApart (deeds : List Deed) : Prop :=
  ∀ folder folders files, (⟨folder, .index folders files⟩ : Deed) ∈ deeds → StemsApart files

/-- In a first part of a course, the index of a folder in which something is done has been made. -/
theorem index_mem_of_mem (hw : w.Sound) (hpart : part <+: fullCourse s excluded w root)
    (hdeed : deed ∈ part) (hns : ∀ name ∈ ns, Path.IsName name)
    (hlisting : w.listing? (Path.below root ns) = some (folders, files))
    (hfolder : deed.folder = Path.below root ns) :
    (⟨Path.below root ns, .index (Text.sort (keptFolders s excluded w (Path.below root ns) folders))
      (Text.sort (keptFiles excluded (Path.below root ns) files))⟩ : Deed) ∈ part := by
  obtain ⟨shownFolders, shownFiles, hindex⟩ : ∃ shownFolders shownFiles,
      (⟨Path.below root ns, .index shownFolders shownFiles⟩ : Deed) ∈ part := by
    obtain ⟨folder, act⟩ := deed
    obtain rfl : folder = Path.below root ns := hfolder
    cases act with
    | index shownFolders shownFiles => exact ⟨shownFolders, shownFiles, hdeed⟩
    | document path => exact led_course (walkDepth w) root part hpart _ path hdeed
  obtain ⟨-, hin⟩ := mem_visitDeeds_of_mem_fullCourse hw hns hlisting rfl (hpart.subset hindex)
  obtain ⟨rfl, rfl⟩ := index_of_mem_visitDeeds hin
  exact hindex

/-- In a first part of a course, paths of pages are different if the stems of each folder are. -/
theorem nodup_targets_of_stemsApart (hw : w.Sound) (hroot : Path.isAbsolute root = true)
    (houtput : output ≠ "") (hpart : part <+: fullCourse s excluded w root)
    (h : EachStemsApart part) :
    (part.map fun deed => w.absolute (deed.target w output root)).Nodup := by
  have hnodup : part.Nodup := (nodup_course hw (walkDepth w) .root).sublist hpart.sublist
  refine hnodup.map_on fun deed hdeed other hother hsame => ?_
  obtain ⟨ns, folders, files, hreached, hlisting, hin, -⟩ :=
    exists_of_mem_fullCourse (hpart.subset hdeed)
  obtain ⟨ms, folders', files', hreached', hlisting', hin', -⟩ :=
    exists_of_mem_fullCourse (hpart.subset hother)
  have hns := hreached.isName hw
  obtain ⟨rfl, hname⟩ := (target_eq_iff hw hroot houtput hns (hreached'.isName hw)
    (at_of_mem_visitDeeds hw hlisting hin) (at_of_mem_visitDeeds hw hlisting' hin')).mp hsame
  rw [hlisting] at hlisting'
  cases hlisting'
  -- Both deeds belong to one folder, whose index is in the part as well.
  have hsome := List.ne_nil_of_mem hin
  have hstems := h _ _ _ (index_mem_of_mem hw hpart hdeed hns hlisting
    (folder_of_mem_visitDeeds hin))
  have hpages := (nodup_pageName_iff hw hns hlisting hsome).mpr hstems
  exact List.inj_on_of_nodup_map hpages hin hin' hname

/-- If the pages of a whole course have different paths, the stems of each folder are apart. -/
theorem stemsApart_of_nodup_targets (hw : w.Sound) (hroot : Path.isAbsolute root = true)
    (houtput : output ≠ "")
    (h : ((fullCourse s excluded w root).map fun deed =>
      w.absolute (deed.target w output root)).Nodup) :
    EachStemsApart (fullCourse s excluded w root) := by
  intro folder shownFolders shownFiles hindex
  obtain ⟨ns, folders, files, hreached, hlisting, hin, hsublist⟩ := exists_of_mem_fullCourse hindex
  have hns := hreached.isName hw
  have hblock := h.sublist (hsublist.map _)
  have hpages : ((visitDeeds s excluded w (Path.below root ns) folders files).map
      Deed.pageName).Nodup := by
    refine (nodup_visitDeeds hw hns hlisting).map_on fun deed hdeed other hother hname => ?_
    refine List.inj_on_of_nodup_map hblock hdeed hother ?_
    exact (target_eq_iff hw hroot houtput hns hns (at_of_mem_visitDeeds hw hlisting hdeed)
      (at_of_mem_visitDeeds hw hlisting hother)).mpr ⟨rfl, hname⟩
  have hstems := (nodup_pageName_iff hw hns hlisting (List.ne_nil_of_mem hin)).mp hpages
  rw [(index_of_mem_visitDeeds hin).2]
  exact hstems

/-- Documenting a folder writes one page for each of its deeds. Their paths are all different just
if no folder has two CMake files with the same stem, or one with the stem of an index. After an
error this still keeps the paths of what has been written apart. -/
theorem written_pathsApart_iff (s : Settings) (excluded : String → Bool)
    (input output root : String) (w : World) (hw : w.Sound) (hroot : Path.isAbsolute root = true)
    (hfolder : w.isFolder root = true) (hout : w.OutputOutside output root)
    (hstart : Path.StartsVisibly output) (hs : s.outputFolder = .text output) :
    Ends
      (fun _ w' => ∃ pages, w'.written = w.written ++ pages ∧
        List.Forall₂ (Deed.Writes s w output root)
          ((stepsIn s excluded (documentFile s) input root w).map Step.deed) pages ∧
        (PathsApart w pages ↔
          EachStemsApart ((stepsIn s excluded (documentFile s) input root w).map Step.deed)))
      (fun w' => ∃ done pages,
        done <+: (stepsIn s excluded (documentFile s) input root w).map Step.deed ∧
        w'.written = w.written ++ pages ∧
        List.Forall₂ (Deed.Writes s w output root) done pages ∧
        (EachStemsApart done → PathsApart w pages))
      (documentFolder s excluded (documentFile s) input root w) := by
  refine (written_of_folder hw hroot hfolder hout hstart hs excluded input).mono ?_ ?_
  · rintro _ w' ⟨hcourse, pages, hwritten, hpages⟩
    rw [hcourse]
    refine ⟨pages, hwritten, hpages, ?_⟩
    rw [pathsApart_iff hpages]
    exact ⟨stemsApart_of_nodup_targets hw hroot hstart.ne_empty,
      nodup_targets_of_stemsApart hw hroot hstart.ne_empty (List.prefix_refl _)⟩
  · rintro w' ⟨hcourse, done, pages, hdone, hwritten, hpages⟩
    refine ⟨done, pages, hdone, hwritten, hpages, fun hstems => ?_⟩
    rw [pathsApart_iff hpages]
    exact nodup_targets_of_stemsApart hw hroot hstart.ne_empty (hdone.trans hcourse) hstems

/-- The pages of a small tree have paths of their own. -/
theorem fileAndSubfolder_pathsApart : ∃ w',
    documentFolder toPages (fun _ => false) (documentFile toPages) "d" "/d/" fileAndSubfolder =
        .ok () w' ∧ w'.written.length = 4 ∧ PathsApart fileAndSubfolder w'.written := by
  have hends := written_pathsApart_iff toPages (fun _ => false) "d" "/out" "/d/" fileAndSubfolder
    sound_fileAndSubfolder (by decide) (by decide) fileAndSubfolder_outside
    startsVisibly_out rfl
  obtain ⟨w', hrun, hdeeds⟩ := fileAndSubfolder_run
  rw [hrun, hdeeds] at hends
  cases hends with
  | ok h =>
    obtain ⟨pages, hwritten, hpages, hiff⟩ := h
    have hnone : fileAndSubfolder.written = [] := rfl
    rw [hnone, List.nil_append] at hwritten
    refine ⟨w', hrun, ?_, ?_⟩
    · rw [hwritten, ← hpages.length_eq]
      rfl
    · rw [hwritten, hiff]
      intro folder folders files hindex
      simp only [List.mem_cons, Deed.mk.injEq, Act.index.injEq, reduceCtorEq, and_false, false_or,
        List.not_mem_nil, or_false] at hindex
      rcases hindex with ⟨-, -, rfl⟩ | ⟨-, -, rfl⟩
      · decide
      · decide

/-- What a run that returns has written. -/
theorem exists_written_of_run {document : Value → String → String → Run Unit} {input : String}
    {pages : List (String × String)}
    (h : (match documentFolder s excluded document input root w with
      | .ok _ w' => some w'.written
      | .error _ _ => none) = some pages) :
    ∃ w', documentFolder s excluded document input root w = .ok () w' ∧ w'.written = pages := by
  split at h
  · next w' hrun => exact ⟨w', hrun, Option.some.inj h⟩
  · cases h

/-- A folder with two CMake files that differ in the letter case of their endings. -/
def twoSpellings : World := .ofNodes
  [(["d"], .folder), (["d", "a.cmake"], .file ""), (["d", "a.CMAKE"], .file "")]

/-- The second page is written over the first one. -/
theorem twoSpellings_same_path : ∃ w',
    documentFolder toPages (fun _ => false) (documentFile toPages) "d" "/d/" twoSpellings =
        .ok () w' ∧
      w'.written.map Prod.fst = ["/out/./index.rst", "/out/a.rst", "/out/a.rst"] ∧
      ¬ PathsApart twoSpellings w'.written := by
  have hpaths : (match documentFolder toPages (fun _ => false) (documentFile toPages) "d" "/d/"
      twoSpellings with
    | .ok _ w' => w'.written.map Prod.fst
    | .error _ _ => []) = ["/out/./index.rst", "/out/a.rst", "/out/a.rst"] := by
    decide +kernel
  cases hr : documentFolder toPages (fun _ => false) (documentFile toPages) "d" "/d/"
      twoSpellings with
  | error e w' =>
    rw [hr] at hpaths
    cases hpaths
  | ok a w' =>
    rw [hr] at hpaths
    refine ⟨w', rfl, hpaths, fun hapart => ?_⟩
    dsimp only at hpaths
    rw [PathsApart, hpaths] at hapart
    simp at hapart

end CMakeDocs.Site
