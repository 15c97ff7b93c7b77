import CMakeDocs.Proofs.Walking.Thorough

/-!
# Folders that are left out

A walk can leave out folders without a CMake file. Whether a folder is left out is decided twice, by
the folder above and by the folder itself, and both times only by the files in the folder whose
names end in `.cmake` in small letters. So a file is lost with the folder that it stands in, or with
any folder on the way there that has no such file, and nothing is lost otherwise.
-/
namespace CMakeDocs

/-- The settings with folders left out or not. -/
def Settings.leavingOut (s : Settings) (leavesOut : Bool) : Settings :=
  { s with autoExclude := leavesOut }

namespace Site

variable {s : Settings} {w : World} {root path : String} {ns : List String}

/-- A folder in which nothing is lost where folders are left out: it has a file that ends in
`.cmake` itself, and below the root so has every folder on the way to it. -/
def LosesNothing (w : World) (root : String) (ns : List String) : Prop :=
  KeepsCMake nothing w (Path.below root ns) ∧
    ∀ ms, ms <+: ns → ms ≠ [] → holdsCMake w (Path.below root ms) = true

/-- A walk that leaves folders out comes to those that no folder on the way is left out for. -/
theorem reached_leavingOut_iff :
    Reached (s.leavingOut true) nothing w root ns ↔
      Reached (s.leavingOut false) nothing w root ns ∧
        ∀ ms, ms <+: ns → ms ≠ [] → holdsCMake w (Path.below root ms) = true := by
  induction ns using List.reverseRecOn with
  | nil =>
    refine ⟨fun _ => ⟨.root, fun ms hms hne => ?_⟩, fun _ => .root⟩
    exact absurd (List.prefix_nil.mp hms) hne
  | append_singleton ns name ih =>
    rw [Reached.concat_iff, Reached.concat_iff, ih]
    simp only [keptFolders_nothing, Settings.leavingOut, if_true, Bool.false_eq_true, if_false,
      List.mem_filter, List.prefix_concat_iff, ← Path.below_concat]
    constructor
    · rintro ⟨⟨hreached, habove⟩, folders, files, hlisting, ⟨hname, hholds⟩, hlink⟩
      refine ⟨⟨hreached, folders, files, hlisting, hname, hlink⟩, ?_⟩
      rintro ms (rfl | hms) hne
      · exact hholds
      · exact habove ms hms hne
    · rintro ⟨⟨hreached, folders, files, hlisting, hname, hlink⟩, hway⟩
      exact ⟨⟨hreached, fun ms hms => hway ms (.inr hms)⟩, folders, files, hlisting,
        ⟨hname, hway _ (.inl rfl) (by simp)⟩, hlink⟩

/-- What is documented where folders are left out. -/
theorem mem_documented_leavingOut (hw : w.Sound) (hroot : Path.isAbsolute root = true)
    (hrec : s.recursive = true) :
    path ∈ documented (fullCourse (s.leavingOut true) nothing w root) ↔
      ∃ ns name, Reached (s.leavingOut false) nothing w root ns ∧
        ListsFile w root ns name ∧ LosesNothing w root ns ∧ isCMakeName name = true ∧
        path = Path.below root (ns ++ [name]) := by
  have hrec' : (s.leavingOut true).recursive = true := hrec
  rw [mem_documented_fullCourse hw hroot hrec']
  simp only [reached_leavingOut_iff, LosesNothing]
  constructor
  · rintro ⟨ns, name, ⟨hreached, hway⟩, hlists, hkeeps, hcmake, hpath⟩
    exact ⟨ns, name, hreached, hlists, ⟨hkeeps rfl, hway⟩, hcmake, hpath⟩
  · rintro ⟨ns, name, hreached, hlists, ⟨hkeeps, hway⟩, hcmake, hpath⟩
    exact ⟨ns, name, ⟨hreached, hway⟩, hlists, fun _ => hkeeps, hcmake, hpath⟩

/-- The files that are documented when a folder is documented without filters. -/
def documentedBy (s : Settings) (input root : String) (w : World) : List String :=
  documented ((stepsIn s nothing (documentFile s) input root w).map Step.deed)

theorem documentedBy_of_run {input : String} {w' : World} (hw : w.Sound)
    (hroot : Path.isAbsolute root = true) (hfolder : w.isFolder root = true)
    (hs : LeavesAlone s w root) (hstart : OutputVisible s)
    (hrun : documentFolder s nothing (documentFile s) input root w = .ok () w') :
    documentedBy s input root w = documented (fullCourse s nothing w root) := by
  have hends := follows_course hw hroot hfolder hs hstart nothing input
  rw [hrun] at hends
  cases hends with
  | ok hdeeds => rw [documentedBy, hdeeds]

/-- Leaving folders out never adds a file to what is documented. The files are the same just if each
CMake file stands in a folder in which nothing is lost. -/
theorem leavingOut_same_files_iff (s : Settings) (input root : String) (w w₁ w₂ : World)
    (hw : w.Sound) (hroot : Path.isAbsolute root = true) (hfolder : w.isFolder root = true)
    (hlinks : NoLinks w root) (hs : LeavesAlone s w root) (hstart : OutputVisible s)
    (hrec : s.recursive = true)
    (hon : documentFolder (s.leavingOut true) nothing (documentFile (s.leavingOut true)) input root
      w = .ok () w₁)
    (hoff : documentFolder (s.leavingOut false) nothing (documentFile (s.leavingOut false)) input
      root w = .ok () w₂) :
    documentedBy (s.leavingOut true) input root w ⊆ documentedBy (s.leavingOut false) input root w ∧
      ((∀ path, path ∈ documentedBy (s.leavingOut true) input root w ↔
          path ∈ documentedBy (s.leavingOut false) input root w) ↔
        ∀ ns name, ListsFile w root ns name → isCMakeName name = true →
          LosesNothing w root ns) := by
  have hs' : ∀ leavesOut, LeavesAlone (s.leavingOut leavesOut) w root := fun _ => hs
  have hrec' : (s.leavingOut false).recursive = true := hrec
  have hthorough := thorough_fullCourse hw hroot hfolder hlinks hrec' rfl
  rw [documentedBy_of_run hw hroot hfolder (hs' true) hstart hon,
    documentedBy_of_run hw hroot hfolder (hs' false) hstart hoff]
  have hsub : documented (fullCourse (s.leavingOut true) nothing w root) ⊆
      documented (fullCourse (s.leavingOut false) nothing w root) := by
    intro path hpath
    obtain ⟨ns, name, -, hlists, -, hcmake, hpath⟩ :=
      (mem_documented_leavingOut hw hroot hrec).mp hpath
    exact (hthorough.documents path).mpr ⟨ns, name, hlists, hcmake, hpath⟩
  refine ⟨hsub, fun hsame ns name hlists hcmake => ?_, fun hkept path => ⟨fun h => hsub h, ?_⟩⟩
  · -- A file that is documented both times tells the folder that it stands in.
    have hpath := (hsame _).mpr ((hthorough.documents _).mpr ⟨ns, name, hlists, hcmake, rfl⟩)
    obtain ⟨ms, name', -, hlists', hkept, -, hbelow⟩ :=
      (mem_documented_leavingOut hw hroot hrec).mp hpath
    obtain ⟨rfl, -⟩ := List.append_inj' (Path.below_injective (hlists.isName_concat hw)
      (hlists'.isName_concat hw) hbelow) rfl
    exact hkept
  · intro hpath
    obtain ⟨ns, name, hlists, hcmake, hbelow⟩ := (hthorough.documents path).mp hpath
    obtain ⟨folders, files, hlisting, -⟩ := hlists.listed
    have hreached : Reached (s.leavingOut false) nothing w root ns :=
      (reached_iff_isFolder hw hroot hfolder hlinks rfl).mpr
        ⟨hlists.isName, World.isFolder_of_listing? hlisting⟩
    exact (mem_documented_leavingOut hw hroot hrec).mpr
      ⟨ns, name, hreached, hlists, hkept ns name hlists hcmake, hcmake, hbelow⟩

/-- The settings for printed pages of a folder and all its subfolders. -/
def toPrint : Settings := { (default : Settings) with recursive := true }

/-- In a small tree nothing is lost, because both runs document the same files. -/
theorem fileAndSubfolder_loses_nothing : LosesNothing fileAndSubfolder "/d/" ["sub"] := by
  have hboth : ∀ leavesOut, ∃ w', documentFolder (toPrint.leavingOut leavesOut) nothing
        (documentFile (toPrint.leavingOut leavesOut)) "d" "/d/" fileAndSubfolder = .ok () w' ∧
      (stepsIn (toPrint.leavingOut leavesOut) nothing (documentFile (toPrint.leavingOut leavesOut))
          "d" "/d/" fileAndSubfolder).map Step.deed =
        [⟨"/d/", .index ["sub"] ["a.cmake"]⟩, ⟨"/d/", .document "/d/a.cmake"⟩,
          ⟨"/d/sub", .index [] ["b.cmake"]⟩, ⟨"/d/sub", .document "/d/sub/b.cmake"⟩] := by
    intro leavesOut
    refine exists_run_of_traced (by simp) ?_
    cases leavesOut <;> decide +kernel
  obtain ⟨w₁, hon, hdeeds_on⟩ := hboth true
  obtain ⟨w₂, hoff, hdeeds_off⟩ := hboth false
  obtain ⟨-, hiff⟩ := leavingOut_same_files_iff toPrint "d" "/d/" fileAndSubfolder w₁ w₂
    sound_fileAndSubfolder (by decide) (by decide)
    (noLinks_of_linkFree (FileTree.linkFree_of_nodes (by decide)) "/d/") (.inl rfl)
    (fun _ hout => by cases hout) rfl hon hoff
  refine hiff.mp (fun path => ?_) ["sub"] "b.cmake"
    ⟨by decide, [], ["b.cmake"], by decide, by simp⟩ (by decide)
  rw [documentedBy, documentedBy, hdeeds_on, hdeeds_off]

/-- A folder with a CMake file, a subfolder whose only CMake file has an ending in large letters,
and a subfolder that has a CMake file only further down. -/
def largeAndDeep : World := .ofNodes
  [(["d"], .folder), (["d", "a.cmake"], .file ""), (["d", "large"], .folder),
    (["d", "large", "B.CMAKE"], .file ""), (["d", "deep"], .folder),
    (["d", "deep", "down"], .folder), (["d", "deep", "down", "c.cmake"], .file "")]

/-- Both files in subfolders are lost. -/
theorem largeAndDeep_loses_files : ∃ w₁ w₂,
    documentFolder (toPrint.leavingOut true) nothing (documentFile (toPrint.leavingOut true)) "d"
        "/d/" largeAndDeep = .ok () w₁ ∧
      documentedBy (toPrint.leavingOut true) "d" "/d/" largeAndDeep = ["/d/a.cmake"] ∧
      documentFolder (toPrint.leavingOut false) nothing (documentFile (toPrint.leavingOut false))
        "d" "/d/" largeAndDeep = .ok () w₂ ∧
      documentedBy (toPrint.leavingOut false) "d" "/d/" largeAndDeep =
        ["/d/a.cmake", "/d/large/B.CMAKE", "/d/deep/down/c.cmake"] := by
  have hon : ∃ w', documentFolder (toPrint.leavingOut true) nothing
        (documentFile (toPrint.leavingOut true)) "d" "/d/" largeAndDeep = .ok () w' ∧
      (stepsIn (toPrint.leavingOut true) nothing (documentFile (toPrint.leavingOut true)) "d" "/d/"
          largeAndDeep).map Step.deed =
        [⟨"/d/", .index [] ["a.cmake"]⟩, ⟨"/d/", .document "/d/a.cmake"⟩] :=
    exists_run_of_traced (by simp) (by decide)
  have hoff : ∃ w', documentFolder (toPrint.leavingOut false) nothing
        (documentFile (toPrint.leavingOut false)) "d" "/d/" largeAndDeep = .ok () w' ∧
      (stepsIn (toPrint.leavingOut false) nothing (documentFile (toPrint.leavingOut false)) "d"
          "/d/" largeAndDeep).map Step.deed =
        [⟨"/d/", .index ["deep", "large"] ["a.cmake"]⟩, ⟨"/d/", .document "/d/a.cmake"⟩,
          ⟨"/d/large", .index [] ["B.CMAKE"]⟩, ⟨"/d/large", .document "/d/large/B.CMAKE"⟩,
          ⟨"/d/deep", .index ["down"] []⟩, ⟨"/d/deep/down", .index [] ["c.cmake"]⟩,
          ⟨"/d/deep/down", .document "/d/deep/down/c.cmake"⟩] :=
    exists_run_of_traced (by simp) (by decide +kernel)
  obtain ⟨w₁, hrun_on, hdeeds_on⟩ := hon
  obtain ⟨w₂, hrun_off, hdeeds_off⟩ := hoff
  refine ⟨w₁, w₂, hrun_on, ?_, hrun_off, ?_⟩
  · rw [documentedBy, hdeeds_on]
    rfl
  · rw [documentedBy, hdeeds_off]
    rfl

end Site

end CMakeDocs
