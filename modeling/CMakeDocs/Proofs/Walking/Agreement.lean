import CMakeDocs.Proofs.Walking.Writing
import Mathlib.Data.List.Nodup

/-!
# Indexes and the pages they list

The index of a folder lists the subfolders and the files that are kept, before the walk gets to
them. Whether what it lists is there in the end depends on what the walk does with them: it leaves
out a subfolder in which no CMake file is kept, it does not follow a link unless it is told to, and
it documents a file that is named `cmake`, which an index does not list.
-/
namespace CMakeDocs.Site

variable {s : Settings} {excluded : String → Bool} {w : World} {root folder name : String}
  {folders files shownFolders shownFiles ns : List String} {deeds : List Deed}

/-- Entries of an index: subfolders first, and then files. -/
def entriesFor (subfolders files : List String) : List String :=
  subfolders.map (Path.join · "index.rst") ++ files.map Path.stem

section Entries

variable {subs subs' fs fs' : List String}

theorem names_indexPath (h : Path.IsName name) :
    Path.names (Path.join name "index.rst") = [name, "index.rst"] := by
  have hpage : Path.IsName "index.rst" := by decide
  rw [Path.names_join name hpage.relative, Path.names_name h, Path.names_name hpage]
  rfl

theorem indexPath_inj {other : String} (hname : Path.IsName name) (hother : Path.IsName other)
    (h : Path.join name "index.rst" = Path.join other "index.rst") : name = other := by
  have hnames := congrArg Path.names h
  rw [names_indexPath hname, names_indexPath hother] at hnames
  exact (List.cons.inj hnames).1

theorem slash_mem_indexPath (h : Path.IsName name) :
    '/' ∈ (Path.join name "index.rst").toList := by
  by_contra hslash
  have hnames := names_indexPath h
  rw [Path.names, Path.parts_of_no_slash hslash] at hnames
  have hle := List.length_filter_le (· ≠ "") [Path.join name "index.rst"]
  rw [hnames] at hle
  simp at hle

theorem slash_mem_of_mem_indexPaths (hsubs : ∀ name ∈ subs, Path.IsName name) :
    ∀ entry ∈ subs.map (Path.join · "index.rst"), '/' ∈ entry.toList := by
  intro entry hentry
  obtain ⟨name, hname, rfl⟩ := List.mem_map.mp hentry
  exact slash_mem_indexPath (hsubs name hname)

theorem no_slash_of_mem_stems (hfs : ∀ name ∈ fs, Path.IsName name) :
    ∀ entry ∈ fs.map Path.stem, '/' ∉ entry.toList := by
  intro entry hentry
  obtain ⟨name, hname, rfl⟩ := List.mem_map.mp hentry
  exact Path.no_slash_stem (hfs name hname).no_slash

/-- Only the entries of subfolders have a slash in them. -/
theorem filter_slash_entriesFor (hsubs : ∀ name ∈ subs, Path.IsName name)
    (hfs : ∀ name ∈ fs, Path.IsName name) :
    (entriesFor subs fs).filter ('/' ∈ ·.toList) = subs.map (Path.join · "index.rst") := by
  have hslash := slash_mem_of_mem_indexPaths hsubs
  have hnone := no_slash_of_mem_stems hfs
  rw [entriesFor, List.filter_append, List.filter_eq_self.mpr (by simpa using hslash),
    List.filter_eq_nil_iff.mpr (by simpa using hnone), List.append_nil]

theorem filter_no_slash_entriesFor (hsubs : ∀ name ∈ subs, Path.IsName name)
    (hfs : ∀ name ∈ fs, Path.IsName name) :
    (entriesFor subs fs).filter ('/' ∉ ·.toList) = fs.map Path.stem := by
  have hslash := slash_mem_of_mem_indexPaths hsubs
  have hnone := no_slash_of_mem_stems hfs
  rw [entriesFor, List.filter_append, List.filter_eq_nil_iff.mpr (by simpa using hslash),
    List.filter_eq_self.mpr (by simpa using hnone), List.nil_append]

/-- The entries tell the subfolders, and the stems of the files. -/
theorem entriesFor_inj (hsubs : ∀ name ∈ subs, Path.IsName name)
    (hsubs' : ∀ name ∈ subs', Path.IsName name) (hfs : ∀ name ∈ fs, Path.IsName name)
    (hfs' : ∀ name ∈ fs', Path.IsName name) (h : entriesFor subs fs = entriesFor subs' fs') :
    subs ⊆ subs' ∧ fs.map Path.stem = fs'.map Path.stem := by
  have hpaths := filter_slash_entriesFor hsubs hfs
  have hstems := filter_no_slash_entriesFor hsubs hfs
  rw [h, filter_slash_entriesFor hsubs' hfs'] at hpaths
  rw [h, filter_no_slash_entriesFor hsubs' hfs'] at hstems
  refine ⟨fun name hname => ?_, hstems.symm⟩
  have hentry := List.mem_map_of_mem (f := (Path.join · "index.rst")) hname
  rw [← hpaths] at hentry
  obtain ⟨other, hother, hjoin⟩ := List.mem_map.mp hentry
  obtain rfl := indexPath_inj (hsubs' other hother) (hsubs name hname) hjoin
  exact hother

theorem nodup_entriesFor (hsubs : ∀ name ∈ subs, Path.IsName name)
    (hfs : ∀ name ∈ fs, Path.IsName name) (hnodup : subs.Nodup) :
    (entriesFor subs fs).Nodup ↔ (fs.map Path.stem).Nodup := by
  refine ⟨fun h => (List.nodup_append'.mp h).2.1, fun h => ?_⟩
  refine List.nodup_append'.mpr ⟨?_, h, ?_⟩
  · refine hnodup.map_on fun name hname other hother => ?_
    exact indexPath_inj (hsubs name hname) (hsubs other hother)
  · intro entry hpath hstem
    exact no_slash_of_mem_stems hfs entry hstem (slash_mem_of_mem_indexPaths hsubs entry hpath)

end Entries

/-- The index of a folder is among what is made. -/
def MakesIndex (deeds : List Deed) (folder : String) : Prop :=
  ∃ folders files, (⟨folder, .index folders files⟩ : Deed) ∈ deeds

/-- The page of a file is among what is made. -/
def Documents (deeds : List Deed) (folder name : String) : Prop :=
  (⟨folder, .document (Path.join folder name)⟩ : Deed) ∈ deeds

/-- The entries of the index of a folder, which holds the given folders and files, are just those
of the subfolders that have an index and of the files that have a page, and no two are the same. -/
structure Agrees (deeds : List Deed) (folder : String) (folders files entries : List String) :
    Prop where
  apart : entries.Nodup
  complete : ∃ subs fs, entries = entriesFor subs fs ∧
    (∀ name, name ∈ subs ↔ name ∈ folders ∧ MakesIndex deeds (Path.join folder name)) ∧
    ∀ name, name ∈ fs ↔ name ∈ files ∧ Documents deeds folder name

/-- The walk goes on as the lists of a folder promise. -/
structure Promised (s : Settings) (excluded : String → Bool) (w : World) (folder : String)
    (folders files : List String) : Prop where
  /-- The walk goes into each of the folders. -/
  followed : ∀ name ∈ folders, s.followLinks = true ∨ w.isLink (Path.join folder name) = false
  /-- None of them is left out. -/
  kept : s.autoExclude = true → ∀ name ∈ folders, KeepsCMake excluded w (Path.join folder name)
  /-- No file is documented that is not listed. -/
  dotted : ∀ name ∈ files, Text.toSmall name ≠ "cmake"
  stems : ((files.filter endsInCMake).map Path.stem).Nodup

/-- A subfolder has an index just if it is kept, gone into, and not left out. -/
theorem makesIndex_sub_iff (hw : w.Sound) (hroot : Path.isAbsolute root = true)
    (hrec : s.recursive = true) (hreached : Reached s excluded w root ns)
    (hlisting : w.listing? (Path.below root ns) = some (folders, files)) (hname : name ∈ folders) :
    MakesIndex (fullCourse s excluded w root) (Path.join (Path.below root ns) name) ↔
      name ∈ keptFolders s excluded w (Path.below root ns) folders ∧
        (s.followLinks = true ∨ w.isLink (Path.join (Path.below root ns) name) = false) ∧
        (s.autoExclude = true → KeepsCMake excluded w (Path.join (Path.below root ns) name)) := by
  have hnames := Path.isName_concat (hreached.isName hw) ((hw.listing? hlisting).1.2 name hname)
  obtain ⟨folders', files', hlisting'⟩ :=
    World.exists_listing? (World.isFolder_of_mem_listing? hlisting hname)
  rw [← Path.below_concat] at hlisting' ⊢
  constructor
  · rintro ⟨shownFolders, shownFiles, hindex⟩
    obtain ⟨hsub, hdeed⟩ := mem_visitDeeds_of_mem_fullCourse hw hnames hlisting' rfl hindex
    obtain ⟨-, folders'', files'', hsame, hkept, hlink⟩ := Reached.concat_iff.mp hsub
    rw [hlisting] at hsame
    cases hsame
    refine ⟨hkept, hlink, fun hauto => ⟨folders', files', hlisting', ?_⟩⟩
    exact (mem_visitDeeds.mp hdeed).1 hauto
  · rintro ⟨hkept, hlink, hkeeps⟩
    refine ⟨_, _, (mem_fullCourse hw hroot hrec).mpr ⟨ns ++ [name], folders', files',
      .sub hreached hlisting hkept hlink, hlisting', mem_visitDeeds.mpr ⟨?_, .inl rfl⟩⟩⟩
    intro hauto
    obtain ⟨folders'', files'', hsame, hany⟩ := hkeeps hauto
    rw [hlisting'] at hsame
    cases hsame
    exact hany

/-- Where an index is made, a file has a page just if it is kept and is a CMake file. -/
theorem documents_iff (hw : w.Sound) (hroot : Path.isAbsolute root = true)
    (hrec : s.recursive = true) (hreached : Reached s excluded w root ns)
    (hlisting : w.listing? (Path.below root ns) = some (folders, files))
    (hindex : (⟨Path.below root ns, .index shownFolders shownFiles⟩ : Deed) ∈
      visitDeeds s excluded w (Path.below root ns) folders files) (hname : name ∈ files) :
    Documents (fullCourse s excluded w root) (Path.below root ns) name ↔
      name ∈ keptFiles excluded (Path.below root ns) files ∧ isCMakeName name = true := by
  have hns := hreached.isName hw
  have hvalid := (hw.listing? hlisting).2.2 name hname
  constructor
  · intro hdeed
    obtain ⟨-, hin⟩ := mem_visitDeeds_of_mem_fullCourse hw hns hlisting rfl hdeed
    obtain ⟨-, hsame | ⟨other, hother, hcmake, hsame⟩⟩ := mem_visitDeeds.mp hin
    · cases hsame
    · injection hsame with _ hact
      injection hact with hpath
      obtain rfl := Path.join_below_inj hns hvalid
        (isName_of_mem_keptFiles hw hlisting hother) hpath
      exact ⟨hother, hcmake⟩
  · rintro ⟨hkept, hcmake⟩
    exact (mem_fullCourse hw hroot hrec).mpr ⟨ns, folders, files, hreached, hlisting,
      mem_visitDeeds.mpr ⟨(mem_visitDeeds.mp hindex).1, .inr ⟨name, hkept, hcmake, rfl⟩⟩⟩

/-- An index lists the files that are documented just if none of them is named `cmake`. -/
theorem filter_endsInCMake_eq_iff : files.filter endsInCMake = files.filter isCMakeName ↔
    ∀ name ∈ files, Text.toSmall name ≠ "cmake" := by
  constructor
  · intro hsame name hname hcmake
    have hdocumented : name ∈ files.filter isCMakeName :=
      List.mem_filter.mpr ⟨hname, isCMakeName_iff.mpr (.inr hcmake)⟩
    rw [← hsame] at hdocumented
    have hends := (List.mem_filter.mp hdocumented).2
    rw [endsInCMake, hcmake] at hends
    exact absurd hends (by decide)
  · intro h
    refine List.filter_congr fun name hname => ?_
    rw [Bool.eq_iff_iff, isCMakeName_iff, or_iff_left (h name hname)]

theorem filter_endsInCMake_sublist :
    (files.filter endsInCMake).Sublist (files.filter isCMakeName) := by
  refine List.monotone_filter_right files fun name hends => ?_
  exact isCMakeName_iff.mpr (.inl hends)

/-- If an index has as many different stems as files are documented, it lists all of them. -/
theorem dotted_of_stems {fs : List String} (hfiles : files.Nodup)
    (hfs : ∀ name, name ∈ fs ↔ name ∈ files.filter isCMakeName)
    (hsame : (files.filter endsInCMake).map Path.stem = fs.map Path.stem)
    (hapart : ((files.filter endsInCMake).map Path.stem).Nodup) :
    ∀ name ∈ files, Text.toSmall name ≠ "cmake" := by
  have hnodup : fs.Nodup := by
    rw [hsame] at hapart
    exact hapart.of_map
  have hperm : fs.Perm (files.filter isCMakeName) :=
    (List.perm_ext_iff_of_nodup hnodup (hfiles.filter _)).mpr hfs
  have hlength : (files.filter endsInCMake).length = (files.filter isCMakeName).length := by
    have hlengths := congrArg List.length hsame
    rw [List.length_map, List.length_map] at hlengths
    rw [hlengths, hperm.length_eq]
  exact filter_endsInCMake_eq_iff.mp (filter_endsInCMake_sublist.eq_of_length hlength)

/-- Lists of what is kept of a folder. -/
structure Shown (s : Settings) (excluded : String → Bool) (w : World) (folder : String)
    (folders files shownFolders shownFiles : List String) : Prop where
  mem_folders : ∀ name, name ∈ shownFolders ↔ name ∈ keptFolders s excluded w folder folders
  mem_files : ∀ name, name ∈ shownFiles ↔ name ∈ keptFiles excluded folder files
  nodup_folders : shownFolders.Nodup
  nodup_files : shownFiles.Nodup

theorem shown_of_index (hw : w.Sound) (hlisting : w.listing? folder = some (folders, files))
    (hindex : (⟨folder, .index shownFolders shownFiles⟩ : Deed) ∈
      visitDeeds s excluded w folder folders files) :
    Shown s excluded w folder folders files shownFolders shownFiles := by
  obtain ⟨rfl, rfl⟩ := index_of_mem_visitDeeds hindex
  refine ⟨fun name => (Text.sort_perm _).mem_iff, fun name => (Text.sort_perm _).mem_iff, ?_, ?_⟩
  · exact (Text.sort_perm _).nodup_iff.mpr (nodup_keptFolders hw hlisting)
  · exact (Text.sort_perm _).nodup_iff.mpr (nodup_keptFiles hw hlisting)

/-- The CMake files on the list of an index are the files of its folder that have a page. -/
theorem mem_filter_isCMakeName_iff (hw : w.Sound) (hroot : Path.isAbsolute root = true)
    (hrec : s.recursive = true) (hreached : Reached s excluded w root ns)
    (hlisting : w.listing? (Path.below root ns) = some (folders, files))
    (hindex : (⟨Path.below root ns, .index shownFolders shownFiles⟩ : Deed) ∈
      visitDeeds s excluded w (Path.below root ns) folders files) (name : String) :
    name ∈ shownFiles.filter isCMakeName ↔
      name ∈ files ∧ Documents (fullCourse s excluded w root) (Path.below root ns) name := by
  rw [List.mem_filter, (shown_of_index hw hlisting hindex).mem_files]
  constructor
  · intro h
    have hname := keptFiles_sublist.subset h.1
    exact ⟨hname, (documents_iff hw hroot hrec hreached hlisting hindex hname).mpr h⟩
  · rintro ⟨hname, h⟩
    exact (documents_iff hw hroot hrec hreached hlisting hindex hname).mp h

/-- An index of the course agrees with it just if the walk goes on as its lists promise. -/
theorem agrees_iff_promised (hw : w.Sound) (hroot : Path.isAbsolute root = true)
    (hrec : s.recursive = true) (hreached : Reached s excluded w root ns)
    (hlisting : w.listing? (Path.below root ns) = some (folders, files))
    (hindex : (⟨Path.below root ns, .index shownFolders shownFiles⟩ : Deed) ∈
      visitDeeds s excluded w (Path.below root ns) folders files) :
    Agrees (fullCourse s excluded w root) (Path.below root ns) folders files
        (indexEntries s shownFolders shownFiles) ↔
      Promised s excluded w (Path.below root ns) shownFolders shownFiles := by
  have hshown := shown_of_index hw hlisting hindex
  have hdocumented := mem_filter_isCMakeName_iff hw hroot hrec hreached hlisting hindex
  obtain ⟨⟨-, hfolderNames⟩, -, hfileNames⟩ := hw.listing? hlisting
  have hfolders : shownFolders ⊆ folders := fun name hname =>
    keptFolders_sublist.subset ((hshown.mem_folders name).mp hname)
  have hsubNames : ∀ name ∈ shownFolders, Path.IsName name := fun name hname =>
    hfolderNames name (hfolders hname)
  have hlistedNames : ∀ name ∈ shownFiles.filter endsInCMake, Path.IsName name := by
    intro name hname
    exact isName_of_mem_keptFiles hw hlisting
      ((hshown.mem_files name).mp (List.mem_filter.mp hname).1)
  have hentries : indexEntries s shownFolders shownFiles =
      entriesFor shownFolders (shownFiles.filter endsInCMake) := by
    rw [indexEntries, if_pos hrec, entriesFor]
  rw [hentries]
  constructor
  · rintro ⟨hapart, subs, fs, hsame, hsubs, hfs⟩
    obtain ⟨hsubset, hstems⟩ := entriesFor_inj hsubNames
      (fun name hname => hfolderNames name ((hsubs name).mp hname).1) hlistedNames
      (fun name hname => hfileNames name ((hfs name).mp hname).1) hsame
    have hmade : ∀ name ∈ shownFolders,
        (s.followLinks = true ∨ w.isLink (Path.join (Path.below root ns) name) = false) ∧
          (s.autoExclude = true → KeepsCMake excluded w (Path.join (Path.below root ns) name)) := by
      intro name hname
      obtain ⟨hin, hindex⟩ := (hsubs name).mp (hsubset hname)
      exact ((makesIndex_sub_iff hw hroot hrec hreached hlisting hin).mp hindex).2
    have hstemsApart := (nodup_entriesFor hsubNames hlistedNames hshown.nodup_folders).mp hapart
    refine ⟨fun name hname => (hmade name hname).1,
      fun hauto name hname => (hmade name hname).2 hauto, ?_, hstemsApart⟩
    refine dotted_of_stems hshown.nodup_files (fun name => ?_) hstems hstemsApart
    rw [hfs, hdocumented]
  · intro h
    refine ⟨(nodup_entriesFor hsubNames hlistedNames hshown.nodup_folders).mpr h.stems,
      shownFolders, shownFiles.filter endsInCMake, rfl, fun name => ?_, fun name => ?_⟩
    · constructor
      · intro hname
        have hin := hfolders hname
        refine ⟨hin, (makesIndex_sub_iff hw hroot hrec hreached hlisting hin).mpr ⟨?_, ?_, ?_⟩⟩
        · exact (hshown.mem_folders name).mp hname
        · exact h.followed name hname
        · exact fun hauto => h.kept hauto name hname
      · rintro ⟨hin, hmade⟩
        rw [hshown.mem_folders]
        exact ((makesIndex_sub_iff hw hroot hrec hreached hlisting hin).mp hmade).1
    · rw [filter_endsInCMake_eq_iff.mpr h.dotted, hdocumented]

/-- Documenting a folder with all its subfolders writes one page for each of its deeds. An index
among them agrees with the other pages just if the walk goes on as its lists promise. -/
theorem written_index_agrees_iff (s : Settings) (excluded : String → Bool)
    (input output root : String) (w w' : World) (hw : w.Sound)
    (hroot : Path.isAbsolute root = true) (hfolder : w.isFolder root = true)
    (hout : w.OutputOutside output root) (hstart : Path.StartsVisibly output)
    (hs : s.outputFolder = .text output) (hrec : s.recursive = true)
    (hrun : documentFolder s excluded (documentFile s) input root w = .ok () w') :
    ∃ deeds pages, deeds = (stepsIn s excluded (documentFile s) input root w).map Step.deed ∧
      w'.written = w.written ++ pages ∧
      List.Forall₂ (Deed.Writes s w output root) deeds pages ∧
      ∀ folder shownFolders shownFiles,
        (⟨folder, .index shownFolders shownFiles⟩ : Deed) ∈ deeds →
        ∃ folders files, w.listing? folder = some (folders, files) ∧
          (Agrees deeds folder folders files (indexEntries s shownFolders shownFiles) ↔
            Promised s excluded w folder shownFolders shownFiles) := by
  have hends := written_of_folder hw hroot hfolder hout hstart hs excluded input
  rw [hrun] at hends
  cases hends with
  | ok h =>
    obtain ⟨hcourse, pages, hwritten, hpages⟩ := h
    refine ⟨fullCourse s excluded w root, pages, hcourse.symm, hwritten, hpages, ?_⟩
    intro folder shownFolders shownFiles hindex
    obtain ⟨ns, folders, files, hreached, hlisting, hin, -⟩ := exists_of_mem_fullCourse hindex
    obtain rfl : folder = Path.below root ns := folder_of_mem_visitDeeds hin
    exact ⟨folders, files, hlisting, agrees_iff_promised hw hroot hrec hreached hlisting hin⟩

theorem fileAndSubfolder_listing :
    fileAndSubfolder.listing? "/d/" = some (["sub"], ["a.cmake"]) := by decide

/-- In a small tree, the index of the upper folder agrees with the pages. -/
theorem fileAndSubfolder_index_agrees :
    Agrees ((stepsIn toPages (fun _ => false) (documentFile toPages) "d" "/d/"
      fileAndSubfolder).map Step.deed) "/d/" ["sub"] ["a.cmake"]
      (indexEntries toPages ["sub"] ["a.cmake"]) := by
  obtain ⟨w', hrun, hdeeds⟩ := fileAndSubfolder_run
  obtain ⟨deeds, pages, hsame, -, -, hagrees⟩ := written_index_agrees_iff toPages (fun _ => false)
    "d" "/out" "/d/" fileAndSubfolder w' sound_fileAndSubfolder (by decide) (by decide)
    fileAndSubfolder_outside startsVisibly_out rfl rfl hrun
  have hindex : (⟨"/d/", .index ["sub"] ["a.cmake"]⟩ : Deed) ∈ deeds := by
    rw [hsame, hdeeds]
    exact List.mem_cons_self
  obtain ⟨folders, files, hlisting, hiff⟩ := hagrees _ _ _ hindex
  rw [fileAndSubfolder_listing] at hlisting
  cases hlisting
  rw [← hsame]
  have hsub : Path.join "/d/" "sub" = "/d/sub" := by decide
  refine hiff.mpr ⟨?_, fun _ => ?_, by decide, by decide⟩
  · have hlink : fileAndSubfolder.isLink "/d/sub" = false := by decide
    simpa [hsub] using Or.inr hlink
  · have hkeeps : KeepsCMake (fun _ => false) fileAndSubfolder "/d/sub" :=
      ⟨[], ["b.cmake"], by decide, by decide⟩
    simpa [hsub] using hkeeps

/-- The index lists a subfolder whose only CMake file is excluded, and so it is left out. -/
theorem fileAndSubfolder_index_dangles : ∃ w' deeds,
    documentFolder toPages (· = "/d/sub/b.cmake") (documentFile toPages) "d" "/d/"
        fileAndSubfolder = .ok () w' ∧
      (stepsIn toPages (· = "/d/sub/b.cmake") (documentFile toPages) "d" "/d/"
        fileAndSubfolder).map Step.deed = deeds ∧
      deeds = [⟨"/d/", .index ["sub"] ["a.cmake"]⟩, ⟨"/d/", .document "/d/a.cmake"⟩] ∧
      ¬ Agrees deeds "/d/" ["sub"] ["a.cmake"] (indexEntries toPages ["sub"] ["a.cmake"]) := by
  have hrun : ∃ w', documentFolder toPages (· = "/d/sub/b.cmake") (documentFile toPages) "d" "/d/"
        fileAndSubfolder = .ok () w' ∧
      (stepsIn toPages (· = "/d/sub/b.cmake") (documentFile toPages) "d" "/d/"
        fileAndSubfolder).map Step.deed =
        [⟨"/d/", .index ["sub"] ["a.cmake"]⟩, ⟨"/d/", .document "/d/a.cmake"⟩] :=
    exists_run_of_traced (by simp) (by decide +kernel)
  obtain ⟨w', hrun, hdeeds⟩ := hrun
  refine ⟨w', _, hrun, hdeeds, rfl, ?_⟩
  rintro ⟨-, subs, fs, hentries, hsubs, hfs⟩
  have hnone : subs = [] := by
    refine List.eq_nil_iff_forall_not_mem.mpr fun name hname => ?_
    obtain ⟨hin, folders, files, hindex⟩ := (hsubs name).mp hname
    obtain rfl : name = "sub" := by simpa using hin
    have hsub : Path.join "/d/" "sub" ≠ "/d/" := by decide
    simp [hsub] at hindex
  have hentry : "sub/index.rst" ∈ entriesFor subs fs := by
    rw [← hentries]
    decide
  rw [hnone] at hentry
  obtain ⟨name, hname, hstem⟩ := List.mem_map.mp hentry
  obtain rfl : name = "a.cmake" := by simpa using ((hfs name).mp hname).1
  exact absurd hstem (by decide)

end CMakeDocs.Site
