import CMakeDocs.Proofs.Walking.Following

/-!
# Walks that do not go into subfolders

Such a walk is over once a visit has done something. A visit that leaves out its folder, because no
CMake file stays on the list, does not end it: the walk goes on into the subfolders, to the first
one in which something is done.
-/
namespace CMakeDocs.Site

variable {s : Settings} {excluded : String → Bool} {w : World} {root folder : String}
  {folders files ns : List String} {deeds : List Deed}

def Act.isIndex : Act → Bool
  | index _ _ => true
  | document _ => false

/-- All deeds are done in one folder: its index is made at most once, and what is documented are
files that it lists. -/
structure StaysIn (w : World) (folder : String) (deeds : List Deed) : Prop where
  inside : ∀ deed ∈ deeds, deed.folder = folder
  documents : ∀ deed ∈ deeds, ∀ path, deed.act = .document path →
    ∃ folders files name, w.listing? folder = some (folders, files) ∧ name ∈ files ∧
      path = Path.join folder name
  index : deeds.countP (·.act.isIndex) ≤ 1

theorem StaysIn.of_prefix {part : List Deed} (h : StaysIn w folder deeds) (hpart : part <+: deeds) :
    StaysIn w folder part where
  inside deed hdeed := h.inside deed (hpart.subset hdeed)
  documents deed hdeed := h.documents deed (hpart.subset hdeed)
  index := (hpart.sublist.countP_le).trans h.index

theorem staysIn_nil (w : World) (folder : String) : StaysIn w folder [] :=
  ⟨by simp, by simp, by simp⟩

/-- Deeds of one folder are those of another only if the folders are the same. -/
theorem StaysIn.staysIn_iff {other : String} (h : StaysIn w folder deeds) :
    StaysIn w other deeds ↔ ∀ deed ∈ deeds, deed.folder = other := by
  refine ⟨StaysIn.inside, fun hother => ?_⟩
  rcases List.eq_nil_or_concat deeds with rfl | ⟨before, deed, rfl⟩
  · exact staysIn_nil w other
  · have hdeed : deed ∈ before.concat deed := by simp
    obtain rfl : folder = other := (h.inside deed hdeed).symm.trans (hother deed hdeed)
    exact h

/-- A first part that is not empty tells where the deeds of a folder are done. -/
theorem StaysIn.inside_part_iff {part : List Deed} {other : String} (h : StaysIn w folder deeds)
    (hpart : part <+: deeds) (hnil : part = [] → deeds = []) :
    (∀ deed ∈ part, deed.folder = other) ↔ ∀ deed ∈ deeds, deed.folder = other := by
  refine ⟨fun hother => ?_, fun hother deed hdeed => hother deed (hpart.subset hdeed)⟩
  by_cases hempty : part = []
  · simp [hnil hempty]
  · obtain ⟨first, hfirst⟩ := List.exists_mem_of_ne_nil part hempty
    have hsame : folder = other :=
      (h.inside first (hpart.subset hfirst)).symm.trans (hother first hfirst)
    exact fun deed hdeed => (h.inside deed hdeed).trans hsame

theorem countP_isIndex_visitDeeds :
    (visitDeeds s excluded w folder folders files).countP (·.act.isIndex) ≤ 1 := by
  unfold visitDeeds
  dsimp only
  split
  · simp
  · have hnone : ∀ names : List String, (names.map fun name =>
        (⟨folder, .document (Path.join folder name)⟩ : Deed)).countP (·.act.isIndex) = 0 := by
      intro names
      rw [List.countP_eq_zero]
      intro deed hdeed
      obtain ⟨name, -, rfl⟩ := List.mem_map.mp hdeed
      exact Bool.false_ne_true
    rw [List.countP_cons, hnone]
    split <;> omega

theorem staysIn_visitDeeds (hlisting : w.listing? folder = some (folders, files)) :
    StaysIn w folder (visitDeeds s excluded w folder folders files) where
  inside _ := folder_of_mem_visitDeeds
  documents deed hdeed path hpath := by
    obtain ⟨-, rfl | ⟨name, hname, -, rfl⟩⟩ := mem_visitDeeds.mp hdeed
    · cases hpath
    · cases hpath
      exact ⟨folders, files, name, hlisting, keptFiles_sublist.subset hname, rfl⟩
  index := countP_isIndex_visitDeeds

theorem courseAll_eq_first (hrec : s.recursive = false) (enter : String → List Deed)
    (names : List String) :
    courseAll s enter names = [] ∨
      ∃ name ∈ names, enter name ≠ [] ∧ courseAll s enter names = enter name := by
  induction names with
  | nil => exact .inl rfl
  | cons name names ih =>
    by_cases hnothing : enter name = []
    · rw [courseAll, hnothing, inTurn_nil]
      rcases ih with ih | ⟨other, hother, hsome, ih⟩
      · exact .inl ih
      · exact .inr ⟨other, List.mem_cons_of_mem name hother, hsome, ih⟩
    · exact .inr ⟨name, List.mem_cons_self, hnothing, inTurn_of_ne_nil hrec hnothing _⟩

theorem course_eq_first (hrec : s.recursive = false) (depth : Nat)
    (hreached : Reached s excluded w root ns) :
    course s excluded w depth (Path.below root ns) = [] ∨
      ∃ ms folders files, Reached s excluded w root ms ∧
        w.listing? (Path.below root ms) = some (folders, files) ∧
        visitDeeds s excluded w (Path.below root ms) folders files ≠ [] ∧
        course s excluded w depth (Path.below root ns) =
          visitDeeds s excluded w (Path.below root ms) folders files := by
  induction depth generalizing ns with
  | zero => exact .inl rfl
  | succ depth ih =>
    cases hlisting : w.listing? (Path.below root ns) with
    | none => exact .inl (course_of_none hlisting)
    | some listing =>
      obtain ⟨folders, files⟩ := listing
      rw [course_succ hlisting]
      by_cases hnothing : visitDeeds s excluded w (Path.below root ns) folders files = []
      · rw [hnothing, inTurn_nil]
        rcases courseAll_eq_first hrec _ (keptFolders s excluded w (Path.below root ns) folders)
          with hnone | ⟨name, hname, hsome, heq⟩
        · exact .inl hnone
        · rw [heq]
          rcases courseInto_cases depth hreached hlisting hname with hnone | ⟨hsub, hinto⟩
          · exact absurd hnone hsome
          · rw [hinto]
            exact ih hsub
      · rw [inTurn_of_ne_nil hrec hnothing]
        exact .inr ⟨ns, folders, files, hreached, hlisting, hnothing, rfl⟩

theorem exists_staysIn_fullCourse (hrec : s.recursive = false) (excluded : String → Bool)
    (w : World) (root : String) :
    ∃ ns, Reached s excluded w root ns ∧
      StaysIn w (Path.below root ns) (fullCourse s excluded w root) := by
  have hroot : Reached s excluded w root [] := .root
  rcases course_eq_first hrec (walkDepth w) hroot
    with hnone | ⟨ms, folders, files, hreached, hlisting, -, heq⟩
  · have hcourse : fullCourse s excluded w root = [] := hnone
    rw [hcourse]
    exact ⟨[], hroot, staysIn_nil w _⟩
  · have hcourse : fullCourse s excluded w root = _ := heq
    rw [hcourse]
    exact ⟨ms, hreached, staysIn_visitDeeds hlisting⟩

/-- A walk that does not go into subfolders is over after the root if there is something to do. -/
theorem fullCourse_eq_root (hrec : s.recursive = false)
    (hlisting : w.listing? root = some (folders, files))
    (hvisit : visitDeeds s excluded w root folders files ≠ []) :
    fullCourse s excluded w root = visitDeeds s excluded w root folders files := by
  have hdepth : walkDepth w = (walkDepth w - 1) + 1 := by
    unfold walkDepth
    have hpos : 0 < (FileTree.linkLimit + 2) * (w.files.nodes.length + 2) :=
      Nat.mul_pos (by omega) (by omega)
    omega
  rw [fullCourse, hdepth, course_succ hlisting, inTurn_of_ne_nil hrec hvisit]

theorem fullCourse_eq_nil_of_not_listed (h : w.listing? root = none) :
    fullCourse s excluded w root = [] := by
  unfold fullCourse
  cases walkDepth w with
  | zero => rfl
  | succ depth => exact course_of_none h

/-- The course stays in the root just if no folder is left out, or the root keeps a CMake file, or
no folder does. -/
theorem fullCourse_in_root_iff (hw : w.Sound) (hroot : Path.isAbsolute root = true)
    (hrec : s.recursive = false) :
    (∀ deed ∈ fullCourse s excluded w root, deed.folder = root) ↔
      s.autoExclude = false ∨ KeepsCMake excluded w root ∨
        ∀ ns, Reached s excluded w root ns → ¬ KeepsCMake excluded w (Path.below root ns) := by
  have hcourse := course_eq_first hrec (walkDepth w) (.root : Reached s excluded w root [])
  constructor
  · intro hstays
    by_cases hauto : s.autoExclude = false
    · exact .inl hauto
    right
    rw [Bool.not_eq_false] at hauto
    rcases hcourse with hnone | ⟨ms, folders, files, -, hlisting, hsome, heq⟩
    · right
      rintro ns hreached ⟨folders, files, hlisting, hkeeps⟩
      have hnothing := (fullCourse_eq_nil hw hroot).mp hnone ns folders files hreached hlisting
      rw [(visitDeeds_eq_nil.mp hnothing).2] at hkeeps
      cases hkeeps
    · left
      obtain ⟨deed, hdeed⟩ := List.exists_mem_of_ne_nil _ hsome
      have hthere := folder_of_mem_visitDeeds hdeed
      rw [← heq] at hdeed
      have hsame : Path.below root ms = root := hthere.symm.trans (hstays deed hdeed)
      rw [hsame] at hlisting hsome
      rw [Ne, visitDeeds_eq_nil] at hsome
      exact ⟨folders, files, hlisting, by simpa [hauto] using hsome⟩
  · intro hcond
    cases hlisting : w.listing? root with
    | none => simp [fullCourse_eq_nil_of_not_listed hlisting]
    | some listing =>
      obtain ⟨folders, files⟩ := listing
      by_cases hvisit : visitDeeds s excluded w root folders files = []
      · -- The root is left out, so only the last condition is left, and nothing is done at all.
        obtain ⟨hauto, hkeeps⟩ := visitDeeds_eq_nil.mp hvisit
        have hnone : fullCourse s excluded w root = [] := by
          rw [fullCourse_eq_nil hw hroot]
          intro ns folders' files' hreached hlisting'
          rcases hcond with hauto' | ⟨folders'', files'', hlisting'', hkeeps'⟩ | hnever
          · rw [hauto] at hauto'
            cases hauto'
          · rw [hlisting] at hlisting''
            cases hlisting''
            rw [hkeeps] at hkeeps'
            cases hkeeps'
          · rw [visitDeeds_eq_nil]
            refine ⟨hauto, Bool.eq_false_iff.mpr fun hkeeps' => ?_⟩
            exact hnever ns hreached ⟨folders', files', hlisting', hkeeps'⟩
        simp [hnone]
      · rw [fullCourse_eq_root hrec hlisting hvisit]
        exact fun _ => folder_of_mem_visitDeeds

/-- Before the first deed the surroundings are those of the start; what comes then does not matter
to a walk that is over. -/
theorem carries_shallow (hrec : s.recursive = false) (excluded : String → Bool) (w : World)
    (root : String) (index : String → List String → List String → Run Unit)
    (document : String → Run Unit) :
    Carries s excluded w root index document (fun past w' => past = [] → w' = w)
      fun past _ => past ≠ [] where
  start _ := rfl
  sees past w' hinv hgo := by
    rcases hgo with hgo | hgo
    · rw [hrec] at hgo
      cases hgo
    · rw [hinv hgo]
      exact Sees.refl root w
  does ns folders files _ _ deed _ past w' _ _ := by
    have hsome : past ++ [deed] ≠ [] := by simp
    cases deed.run index document w' with
    | ok a w'' => exact .ok fun hnil => absurd hnil hsome
    | error e w'' => exact .error hsome

variable {document : Value → String → String → Run Unit} {input : String}

/-- What has been done is a first part of the course, and no empty one unless the course is. -/
theorem stepsIn_shallow (hw : w.Sound) (hrec : s.recursive = false) :
    (stepsIn s excluded document input root w).map Step.deed <+: fullCourse s excluded w root ∧
      ((stepsIn s excluded document input root w).map Step.deed = [] →
        fullCourse s excluded w root = []) := by
  have hsteps := stepsIn_of_carries hw document input (carries_shallow hrec excluded w root
    (putIndex s (rootNameFor s input) root) (document (rootNameFor s input) root))
  cases hr : documentFolder s excluded document input root w with
  | ok a w' =>
    rw [hr] at hsteps
    cases hsteps with
    | ok h =>
      rw [h.1]
      exact ⟨List.prefix_refl _, id⟩
  | error e w' =>
    rw [hr] at hsteps
    cases hsteps with
    | error h => exact ⟨h.1, fun hnil => absurd hnil h.2⟩

/-- Documenting a folder without its subfolders does everything in one folder that is reached. That
is the given one just if no folder is left out, or the given one keeps a CMake file, or no folder
does. -/
theorem shallow_in_root_iff (s : Settings) (excluded : String → Bool)
    (document : Value → String → String → Run Unit) (input root : String) (w : World)
    (hw : w.Sound) (hroot : Path.isAbsolute root = true) (hrec : s.recursive = false) :
    untraced (tracedFolder s excluded document input root (w, [])) =
        documentFolder s excluded document input root w ∧
      (∃ ns, Reached s excluded w root ns ∧ StaysIn w (Path.below root ns)
        ((stepsIn s excluded document input root w).map Step.deed)) ∧
      (StaysIn w root ((stepsIn s excluded document input root w).map Step.deed) ↔
        s.autoExclude = false ∨ KeepsCMake excluded w root ∨
          ∀ ns, Reached s excluded w root ns → ¬ KeepsCMake excluded w (Path.below root ns)) := by
  obtain ⟨hpart, hnil⟩ : _ ∧ _ := stepsIn_shallow hw hrec
  obtain ⟨ns, hreached, hstays⟩ := exists_staysIn_fullCourse hrec excluded w root
  refine ⟨(traces_folder w).1, ⟨ns, hreached, hstays.of_prefix hpart⟩, ?_⟩
  calc StaysIn w root ((stepsIn s excluded document input root w).map Step.deed)
    _ ↔ ∀ deed ∈ (stepsIn s excluded document input root w).map Step.deed, deed.folder = root :=
      (hstays.of_prefix hpart).staysIn_iff
    _ ↔ ∀ deed ∈ fullCourse s excluded w root, deed.folder = root :=
      hstays.inside_part_iff hpart hnil
    _ ↔ _ := fullCourse_in_root_iff hw hroot hrec

/-- The file in the subfolder is left alone. -/
theorem fileAndSubfolder_stays : StaysIn fileAndSubfolder "/d/"
    ((stepsIn default (fun _ => false) (documentFile default) "d" "/d/"
      fileAndSubfolder).map Step.deed) := by
  have hkeeps : KeepsCMake (fun _ => false) fileAndSubfolder "/d/" :=
    ⟨["sub"], ["a.cmake"], by decide, by decide⟩
  have hiff := (shallow_in_root_iff default (fun _ => false) (documentFile default) "d" "/d/"
    fileAndSubfolder sound_fileAndSubfolder (by decide) rfl).2.2
  exact hiff.mpr (.inr (.inl hkeeps))

/-- A folder without a CMake file, and a subfolder with one. -/
def subfolderOnly : World := .ofNodes
  [(["d"], .folder), (["d", "sub"], .folder), (["d", "sub", "a.cmake"], .file "")]

/-- The subfolder gets an index and its file a page. -/
theorem subfolderOnly_goes_down :
    (stepsIn default (fun _ => false) (documentFile default) "d" "/d/" subfolderOnly).map
        Step.deed =
        [⟨"/d/sub", .index [] ["a.cmake"]⟩, ⟨"/d/sub", .document "/d/sub/a.cmake"⟩] ∧
      ¬ StaysIn subfolderOnly "/d/" ((stepsIn default (fun _ => false) (documentFile default) "d"
        "/d/" subfolderOnly).map Step.deed) := by
  have hdeeds : (stepsIn default (fun _ => false) (documentFile default) "d" "/d/"
      subfolderOnly).map Step.deed =
      [⟨"/d/sub", .index [] ["a.cmake"]⟩, ⟨"/d/sub", .document "/d/sub/a.cmake"⟩] := by
    decide
  refine ⟨hdeeds, fun hstays => ?_⟩
  rw [hdeeds] at hstays
  exact absurd (hstays.inside _ List.mem_cons_self) (by decide)

end CMakeDocs.Site
