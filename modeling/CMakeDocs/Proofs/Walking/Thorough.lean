import CMakeDocs.Proofs.Walking.Agreement
import CMakeDocs.Proofs.Walking.Distinct
import CMakeDocs.Proofs.Walking.Unfiltered
import Mathlib.Data.List.Sort
import Mathlib.Data.String.Basic

/-!
# Walks that miss nothing

A walk into all subfolders that leaves no folder out makes an index of each of them and documents
each CMake file once, in the order of the names in its folder, however the names are listed. It does
all of that unless it stops at something that fails.
-/
namespace CMakeDocs

namespace Text

theorem leChars_iff (cs ds : List Char) : leChars cs ds = true ↔ ¬ ds < cs := by
  fun_induction leChars cs ds with
  | case1 ds => simp
  | case2 c cs => simp
  | case3 c cs ds ih => simp [ih]
  | case4 c cs d ds hne =>
    have hnumbers : c.toNat < d.toNat ↔ c < d := Iff.rfl
    have hchars : c < d ↔ ¬ d < c := by
      rw [not_lt]
      exact ⟨le_of_lt, fun h => lt_of_le_of_ne h hne⟩
    simp [List.cons_lt_cons_iff, hnumbers, hchars, Ne.symm hne]

theorem le_iff {s t : String} : le s t = true ↔ s ≤ t := by
  rw [le, leChars_iff, ← not_lt]
  rfl

theorem insertSorted_eq (s : String) (ts : List String) :
    insertSorted s ts = ts.orderedInsert (· ≤ ·) s := by
  induction ts with
  | nil => rfl
  | cons t ts ih => simp only [insertSorted, List.orderedInsert_cons, ih, le_iff]

theorem sort_eq (ss : List String) : sort ss = ss.insertionSort (· ≤ ·) := by
  induction ss with
  | nil => rfl
  | cons s ss ih => rw [sort, insertSorted_eq, ih, List.insertionSort_cons]

theorem pairwise_sort {ss : List String} (h : ss.Nodup) : (sort ss).Pairwise (· < ·) := by
  have hle : (sort ss).Pairwise (· ≤ ·) := by
    rw [sort_eq]
    exact List.pairwise_insertionSort (· ≤ ·) ss
  have hne : (sort ss).Nodup := (sort_perm ss).nodup_iff.mpr h
  exact hle.imp₂ (fun _ _ hab hne => lt_of_le_of_ne hab hne) hne

end Text

namespace Site

variable {s : Settings} {excluded : String → Bool} {w : World} {root folder path : String}
  {folders files ns : List String}

theorem documented_visitDeeds
    (h : visitDeeds s excluded w folder folders files ≠ []) :
    documented (visitDeeds s excluded w folder folders files) =
      ((Text.sort (keptFiles excluded folder files)).filter isCMakeName).map
        (Path.join folder) := by
  unfold visitDeeds at h ⊢
  dsimp only at h ⊢
  split at h
  · exact absurd rfl h
  · next hskip =>
    rw [if_neg hskip, documented, List.filterMap_cons_none rfl, List.filterMap_map]
    rw [← List.filterMap_eq_map]
    rfl

theorem nodup_fullCourse (hw : w.Sound) : (fullCourse s excluded w root).Nodup := by
  have hnodup : (course s excluded w (walkDepth w) (Path.below root [])).Nodup :=
    nodup_course hw (walkDepth w) .root
  exact hnodup

/-- All that is done in a folder is done in one visit. -/
theorem filter_fullCourse (hw : w.Sound) (hns : ∀ name ∈ ns, Path.IsName name)
    (hlisting : w.listing? (Path.below root ns) = some (folders, files))
    (hsub : (visitDeeds s excluded w (Path.below root ns) folders files).Sublist
      (fullCourse s excluded w root)) :
    (fullCourse s excluded w root).filter (·.folder = Path.below root ns) =
      visitDeeds s excluded w (Path.below root ns) folders files := by
  have hall : (visitDeeds s excluded w (Path.below root ns) folders files).filter
      (·.folder = Path.below root ns) =
        visitDeeds s excluded w (Path.below root ns) folders files :=
    List.filter_eq_self.mpr fun deed hdeed => decide_eq_true (folder_of_mem_visitDeeds hdeed)
  have hnodup : (fullCourse s excluded w root).Nodup := nodup_fullCourse hw
  have hsublist := hsub.filter (·.folder = Path.below root ns)
  rw [hall] at hsublist
  -- Both lists hold the same deeds, and each of them once.
  have hperm := (List.perm_ext_iff_of_nodup (hnodup.sublist hsub) (hnodup.filter _)).mpr
    fun deed => ⟨fun hdeed => hsublist.subset hdeed, fun hdeed => by
      obtain ⟨hmem, hfolder⟩ := List.mem_filter.mp hdeed
      exact (mem_visitDeeds_of_mem_fullCourse hw hns hlisting (of_decide_eq_true hfolder) hmem).2⟩
  exact (hsublist.eq_of_length hperm.length_eq).symm

/-- The names of the files that are documented in a folder, in their order. -/
def documentedIn (folder : String) (deeds : List Deed) : List String :=
  (documented (deeds.filter (·.folder = folder))).map Path.baseName

theorem pairwise_documentedIn (hw : w.Sound) (folder : String) :
    (documentedIn folder (fullCourse s excluded w root)).Pairwise (· < ·) := by
  cases hdone : (fullCourse s excluded w root).filter (·.folder = folder) with
  | nil =>
    rw [documentedIn, hdone]
    exact .nil
  | cons deed rest =>
    obtain ⟨hdeed, hfolder⟩ := List.mem_filter.mp (hdone ▸ List.mem_cons_self)
    obtain ⟨ns, folders, files, hreached, hlisting, hin, hsub⟩ := exists_of_mem_fullCourse hdeed
    have hns := hreached.isName hw
    obtain rfl : Path.below root ns = folder :=
      (folder_of_mem_visitDeeds hin).symm.trans (of_decide_eq_true hfolder)
    have hnames : documentedIn (Path.below root ns) (fullCourse s excluded w root) =
        (Text.sort (keptFiles excluded (Path.below root ns) files)).filter isCMakeName := by
      rw [documentedIn, filter_fullCourse hw hns hlisting hsub,
        documented_visitDeeds (List.ne_nil_of_mem hin), List.map_map]
      refine (List.map_congr_left fun name hname => ?_).trans (List.map_id _)
      have hkept := (Text.sort_perm _).mem_iff.mp (List.mem_filter.mp hname).1
      rw [Function.comp_apply, ← Path.below_concat]
      exact Path.baseName_below hns (isName_of_mem_keptFiles hw hlisting hkept)
    rw [hnames]
    exact (Text.pairwise_sort (nodup_keptFiles hw hlisting)).sublist List.filter_sublist

/-- No file is documented twice. -/
theorem nodup_documented (hw : w.Sound) : (documented (fullCourse s excluded w root)).Nodup := by
  refine List.pairwise_filterMap.mpr ((nodup_fullCourse hw).imp_of_mem ?_)
  intro deed other hdeed hother hne path hpath path' hpath' hsame
  subst hsame
  refine hne ?_
  obtain ⟨ns, folders, files, hreached, hlisting, hin, -⟩ := exists_of_mem_fullCourse hdeed
  obtain ⟨ms, folders', files', hreached', hlisting', hin', -⟩ := exists_of_mem_fullCourse hother
  -- The path tells the folder that the file stands in.
  obtain ⟨hfolder, hat⟩ := at_of_mem_visitDeeds hw hlisting hin
  obtain ⟨hfolder', hat'⟩ := at_of_mem_visitDeeds hw hlisting' hin'
  obtain ⟨_, act⟩ := deed
  obtain ⟨_, act'⟩ := other
  cases act with
  | index => cases hpath
  | document =>
    cases act' with
    | index => cases hpath'
    | document =>
      cases hpath
      cases hpath'
      obtain ⟨name, hname, hbelow⟩ := hat path rfl
      obtain ⟨name', hname', hbelow'⟩ := hat' path rfl
      have hall := Path.isName_concat (hreached.isName hw) hname
      have hall' := Path.isName_concat (hreached'.isName hw) hname'
      obtain ⟨rfl, -⟩ := List.append_inj'
        (Path.below_injective hall hall' (hbelow.symm.trans hbelow')) rfl
      dsimp only at hfolder hfolder'
      rw [hfolder, hfolder']

/-- Deeds that miss nothing in a tree: its CMake files are documented, each of them once and in the
order of the names in its folder, and each of its folders gets an index. -/
structure Thorough (w : World) (root : String) (deeds : List Deed) : Prop where
  documents : ∀ path, path ∈ documented deeds ↔
    ∃ ns name, ListsFile w root ns name ∧ isCMakeName name = true ∧
      path = Path.below root (ns ++ [name])
  /-- What a folder lists besides its folders has all the regular files in it. -/
  regular : ∀ ns name, (∀ part ∈ ns ++ [name], Path.IsName part) →
    w.isFile (Path.below root (ns ++ [name])) = true → ListsFile w root ns name
  once : (documented deeds).Nodup
  ordered : ∀ folder, (documentedIn folder deeds).Pairwise (· < ·)
  indexes : ∀ ns, (∀ part ∈ ns, Path.IsName part) → w.isFolder (Path.below root ns) = true →
    MakesIndex deeds (Path.below root ns)

theorem thorough_fullCourse (hw : w.Sound) (hroot : Path.isAbsolute root = true)
    (hfolder : w.isFolder root = true) (hlinks : NoLinks w root) (hrec : s.recursive = true)
    (hauto : s.autoExclude = false) : Thorough w root (fullCourse s nothing w root) where
  documents path := by
    rw [mem_documented_fullCourse hw hroot hrec]
    constructor
    · rintro ⟨ns, name, -, hlists, -, hcmake, hpath⟩
      exact ⟨ns, name, hlists, hcmake, hpath⟩
    · rintro ⟨ns, name, hlists, hcmake, hpath⟩
      obtain ⟨folders, files, hlisting, -⟩ := hlists.listed
      have hreached : Reached s nothing w root ns :=
        (reached_iff_isFolder hw hroot hfolder hlinks hauto).mpr
          ⟨hlists.isName, World.isFolder_of_listing? hlisting⟩
      exact ⟨ns, name, hreached, hlists, by simp [hauto], hcmake, hpath⟩
  regular ns name := listsFile_of_isFile hw hroot
  once := nodup_documented hw
  ordered := pairwise_documentedIn hw
  indexes ns hns hdown := by
    have hreached : Reached s nothing w root ns :=
      (reached_iff_isFolder hw hroot hfolder hlinks hauto).mpr ⟨hns, hdown⟩
    obtain ⟨folders, files, hlisting⟩ := World.exists_listing? hdown
    have hindex : (⟨Path.below root ns,
        .index (Text.sort (keptFolders s nothing w (Path.below root ns) folders))
          (Text.sort (keptFiles nothing (Path.below root ns) files))⟩ : Deed) ∈
        visitDeeds s nothing w (Path.below root ns) folders files :=
      mem_visitDeeds.mpr ⟨by simp [hauto], .inl rfl⟩
    exact ⟨_, _, (mem_fullCourse hw hroot hrec).mpr
      ⟨ns, folders, files, hreached, hlisting, hindex⟩⟩

/-- Each index that is made goes to its place below the folder for the pages. -/
theorem exists_index_page {output : String} {deeds : List Deed} {pages : List (String × String)}
    (hpages : List.Forall₂ (Deed.Writes s w output root) deeds pages)
    (h : MakesIndex deeds folder) :
    ∃ text, (Path.join (Path.join output (w.relative folder root)) "index.rst", text) ∈ pages := by
  obtain ⟨folders, files, hmem⟩ := h
  induction hpages with
  | nil => simp at hmem
  | @cons deed page deeds pages hpage _ ih =>
    rcases List.mem_cons.mp hmem with rfl | hmem
    · have hpath : page.1 = Path.join (Path.join output (w.relative folder root)) "index.rst" :=
        hpage.1
      rw [← hpath]
      exact ⟨page.2, List.mem_cons_self⟩
    · obtain ⟨text, htext⟩ := ih hmem
      exact ⟨text, List.mem_cons_of_mem page htext⟩

/-- Where a walk that leaves its tree alone has failed there was something to write or to document:
an index that is not made cannot fail. -/
theorem document_or_output_of_error (hs : LeavesAlone s w root) {rootName : Value} {deed : Deed}
    {w₁ w' : World} {e : SiteError}
    (hrun : deed.run (putIndex s rootName root) (documentFile s rootName root) w₁ = .error e w') :
    (∃ path, deed.act = .document path) ∨ ∃ output, s.outputFolder = .text output := by
  rcases hs with hnull | ⟨output, htext, -⟩
  · obtain ⟨folder, act⟩ := deed
    cases act with
    | document path => exact .inl ⟨path, rfl⟩
    | index folders files =>
      have hindex : putIndex s rootName root folder folders files w₁ = .ok () w₁ := by
        rw [putIndex_null hnull]
        rfl
      exact absurd (hindex.symm.trans hrun) (by simp)
  · exact .inr ⟨output, htext⟩

/-- Where the deeds of a walk miss nothing, neither do the pages that it has written. -/
theorem indexes_written_of_run {input output : String} {w' : World} (hw : w.Sound)
    (hroot : Path.isAbsolute root = true) (hfolder : w.isFolder root = true)
    (hs : LeavesAlone s w root) (hstart : OutputVisible s)
    (hthorough : Thorough w root (fullCourse s excluded w root))
    (hrun : documentFolder s excluded (documentFile s) input root w = .ok () w')
    (hout : s.outputFolder = .text output) :
    ∃ pages, w'.written = w.written ++ pages ∧
      ∀ ns, (∀ part ∈ ns, Path.IsName part) → w.isFolder (Path.below root ns) = true →
        ∃ text, (Path.join (Path.join output (Path.way ns)) "index.rst", text) ∈ pages := by
  rcases hs with hnull | ⟨output', htext, houtside⟩
  · rw [hnull] at hout
    cases hout
  · have hwritten := written_of_folder hw hroot hfolder houtside (hstart _ htext) htext
      excluded input
    rw [htext] at hout
    cases hout
    rw [hrun] at hwritten
    cases hwritten with
    | ok h =>
      obtain ⟨-, pages, hpages, hwrites⟩ := h
      refine ⟨pages, hpages, fun ns hns hdown => ?_⟩
      rw [← World.relative_below hw.current_absolute hroot hns]
      exact exists_index_page hwrites (hthorough.indexes ns hns hdown)

/-- A walk into all subfolders of a tree without links, which leaves nothing out, misses nothing if
it returns, and the index of each folder is written if there is a folder for the pages. It stops
only where a file cannot be documented or an index cannot be written, and up to there it has missed
nothing. -/
theorem recursive_walk_thorough (s : Settings) (input root : String) (w : World) (hw : w.Sound)
    (hroot : Path.isAbsolute root = true) (hfolder : w.isFolder root = true)
    (hlinks : NoLinks w root) (hs : LeavesAlone s w root) (hstart : OutputVisible s)
    (hrec : s.recursive = true) (hauto : s.autoExclude = false) :
    Ends
      (fun _ w' =>
        Thorough w root ((stepsIn s nothing (documentFile s) input root w).map Step.deed) ∧
          ∀ output, s.outputFolder = .text output → ∃ pages, w'.written = w.written ++ pages ∧
            ∀ ns, (∀ part ∈ ns, Path.IsName part) → w.isFolder (Path.below root ns) = true →
              ∃ text, (Path.join (Path.join output (Path.way ns)) "index.rst", text) ∈ pages)
      (fun w' => ∃ before deed rest w₁ e,
        (stepsIn s nothing (documentFile s) input root w).map Step.deed = before ++ [deed] ∧
          Thorough w root (before ++ deed :: rest) ∧
          deed.run (putIndex s (rootNameFor s input) root)
            (documentFile s (rootNameFor s input) root) w₁ = .error e w' ∧
          ((∃ path, deed.act = .document path) ∨ ∃ output, s.outputFolder = .text output))
      (documentFolder s nothing (documentFile s) input root w) := by
  have hthorough := thorough_fullCourse hw hroot hfolder hlinks hrec hauto
  have hcourse := follows_course hw hroot hfolder hs hstart nothing input
  cases hr : documentFolder s nothing (documentFile s) input root w with
  | ok a w' =>
    rw [hr] at hcourse
    cases hcourse with
    | ok hdeeds =>
      exact .ok ⟨hdeeds ▸ hthorough, fun output hout =>
        indexes_written_of_run hw hroot hfolder hs hstart hthorough hr hout⟩
  | error e w' =>
    rw [hr] at hcourse
    cases hcourse with
    | error h =>
      obtain ⟨⟨rest, hrest⟩, before, deed, w₁, e', hdeeds, hrun⟩ := h
      rw [hdeeds, List.append_assoc, List.singleton_append] at hrest
      exact .error ⟨before, deed, rest, w₁, e', hdeeds, hrest ▸ hthorough, hrun,
        document_or_output_of_error hs hrun⟩

/-- The settings for pages of all folders, with or without CMake files. -/
def toAllPages : Settings := { toPages with autoExclude := false }

theorem noLinks_of_linkFree (h : w.files.LinkFree) (root : String) : NoLinks w root := by
  intro ns _
  unfold World.isLink FileTree.isLink
  split
  · next place _ =>
    cases hget : w.files.get? place with
    | none => rfl
    | some node =>
      cases node with
      | link target => exact absurd hget (h place target)
      | file text => rfl
      | folder => rfl
      | special => rfl
  · rfl

/-- In a small tree both files are documented and both indexes are written. -/
theorem fileAndSubfolder_thorough : ∃ w',
    documentFolder toAllPages nothing (documentFile toAllPages) "d" "/d/" fileAndSubfolder =
        .ok () w' ∧
      Thorough fileAndSubfolder "/d/" ((stepsIn toAllPages nothing (documentFile toAllPages) "d"
        "/d/" fileAndSubfolder).map Step.deed) ∧
      ∃ text, ("/out/sub/index.rst", text) ∈ w'.written := by
  have hends := recursive_walk_thorough toAllPages "d" "/d/" fileAndSubfolder sound_fileAndSubfolder
    (by decide) (by decide)
    (noLinks_of_linkFree (FileTree.linkFree_of_nodes (by decide)) "/d/")
    (.inr ⟨"/out", rfl, fileAndSubfolder_outside⟩) outputVisible_toPages rfl rfl
  obtain ⟨w', hrun, -⟩ : ∃ w', documentFolder toAllPages nothing (documentFile toAllPages) "d" "/d/"
        fileAndSubfolder = .ok () w' ∧
      (stepsIn toAllPages nothing (documentFile toAllPages) "d" "/d/" fileAndSubfolder).map
          Step.deed =
        [⟨"/d/", .index ["sub"] ["a.cmake"]⟩, ⟨"/d/", .document "/d/a.cmake"⟩,
          ⟨"/d/sub", .index [] ["b.cmake"]⟩, ⟨"/d/sub", .document "/d/sub/b.cmake"⟩] :=
    exists_run_of_traced (by simp) (by decide +kernel)
  rw [hrun] at hends
  cases hends with
  | ok h =>
    obtain ⟨hthorough, hindexes⟩ := h
    obtain ⟨pages, hwritten, hpages⟩ := hindexes "/out" rfl
    refine ⟨w', hrun, hthorough, ?_⟩
    obtain ⟨text, htext⟩ := hpages ["sub"] (by decide) (by decide)
    have hpath : Path.join (Path.join "/out" (Path.way ["sub"])) "index.rst" =
        "/out/sub/index.rst" := by decide
    rw [hpath] at htext
    exact ⟨text, hwritten ▸ List.mem_append_right _ htext⟩

/-- A run that was traced to a fault with a file. -/
theorem exists_fault_of_traced {document : Value → String → String → Run Unit} {input : String}
    {f : FileFault} {deeds : List Deed}
    (h : (match tracedFolder s excluded document input root (w, []) with
      | .error (.file f path) (_, steps) => some (f, path, steps.map Step.deed)
      | _ => none) = some (f, path, deeds)) :
    ∃ w', documentFolder s excluded document input root w = .error (.file f path) w' ∧
      (stepsIn s excluded document input root w).map Step.deed = deeds := by
  rw [stepsIn, ← (traces_folder w).1]
  split at h
  · next hrun =>
    cases h
    rw [hrun]
    exact ⟨_, rfl, rfl⟩
  · cases h

/-- The settings for pages in a folder whose name starts with a blank. -/
def toBlankPages : Settings := { toAllPages with outputFolder := .text " out" }

/-- A folder with a CMake file, and a subfolder that has the name of its page. -/
def folderLikePage : World := .ofNodes
  [(["d"], .folder), (["d", "a.cmake"], .file ""), (["d", "a.rst"], .folder),
    (["d", "a.rst", "b.cmake"], .file "")]

/-- Two walks that stop at an index, before every file is documented. The blank is kept when the
folder for the pages is made, but not when the index is written to it. And where a page has been
written there cannot be a folder. -/
theorem walks_stop_at_index :
    (∃ w', documentFolder toBlankPages nothing (documentFile toBlankPages) "d" "/d/"
        fileAndSubfolder = .error (.file .notFound "out/./index.rst") w' ∧
      (stepsIn toBlankPages nothing (documentFile toBlankPages) "d" "/d/" fileAndSubfolder).map
          Step.deed = [⟨"/d/", .index ["sub"] ["a.cmake"]⟩]) ∧
    ∃ w', documentFolder toAllPages nothing (documentFile toAllPages) "d" "/d/"
        folderLikePage = .error (.file .alreadyExists "/out/a.rst") w' ∧
      (stepsIn toAllPages nothing (documentFile toAllPages) "d" "/d/" folderLikePage).map
          Step.deed =
        [⟨"/d/", .index ["a.rst"] ["a.cmake"]⟩, ⟨"/d/", .document "/d/a.cmake"⟩,
          ⟨"/d/a.rst", .index [] ["b.cmake"]⟩] :=
  ⟨exists_fault_of_traced (by decide), exists_fault_of_traced (by decide +kernel)⟩

end Site

end CMakeDocs
