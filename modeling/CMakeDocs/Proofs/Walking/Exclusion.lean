import CMakeDocs.Proofs.Walking.Trace
import Mathlib.Data.List.Chain

/-!
# What the exclusion filters leave

Excluded names are taken off a list while it is gone through, and the name after one that is taken
off is not looked at. So of excluded names in a row every other one stays, and nothing excluded
stays just if no two excluded names are neighbours. A walk lists and documents what stays.
-/
namespace CMakeDocs.Site

variable {excluded : String → Bool} {before names : List String} {name x : String}

/-- How many excluded names stand at the end of a list. -/
def excludedAtEnd (excluded : String → Bool) (names : List String) : Nat :=
  (names.reverse.takeWhile excluded).length

theorem excludedAtEnd_concat (before : List String) (x : String) :
    excludedAtEnd excluded (before ++ [x]) =
      if excluded x then excludedAtEnd excluded before + 1 else 0 := by
  unfold excludedAtEnd
  rw [List.reverse_append, List.reverse_singleton, List.singleton_append, List.takeWhile_cons]
  split <;> rfl

/-- A name that stays on the rest of a list, with the names that come before the rest: it is not
excluded, or the number of excluded names right before it is odd. -/
def StaysAfter (excluded : String → Bool) (before names : List String) (name : String) : Prop :=
  ∃ i, names[i]? = some name ∧
    (excluded name = true → excludedAtEnd excluded (before ++ names.take i) % 2 = 1)

/-- A name that stays on a list. -/
def Stays (excluded : String → Bool) (names : List String) (name : String) : Prop :=
  StaysAfter excluded [] names name

theorem staysAfter_nil : ¬ StaysAfter excluded before [] name := by
  rintro ⟨i, hi, -⟩
  simp at hi

theorem staysAfter_cons {rest : List String} :
    StaysAfter excluded before (x :: rest) name ↔
      (name = x ∧ (excluded x = true → excludedAtEnd excluded before % 2 = 1)) ∨
        StaysAfter excluded (before ++ [x]) rest name := by
  constructor
  · rintro ⟨i, hi, hodd⟩
    cases i with
    | zero =>
      obtain rfl : x = name := by simpa using hi
      exact .inl ⟨rfl, by simpa using hodd⟩
    | succ i =>
      refine .inr ⟨i, by simpa using hi, ?_⟩
      simpa using hodd
  · rintro (⟨rfl, hodd⟩ | ⟨i, hi, hodd⟩)
    · exact ⟨0, rfl, by simpa using hodd⟩
    · refine ⟨i + 1, by simpa using hi, ?_⟩
      simpa using hodd

/-- The list is gone through with an even number of excluded names right before its rest. -/
theorem mem_prune_after (heven : excludedAtEnd excluded before % 2 = 0) :
    name ∈ prune excluded names ↔ StaysAfter excluded before names name := by
  fun_induction prune excluded names generalizing before with
  | case1 => simpa using staysAfter_nil
  | case2 x hx =>
    have hfirst : ¬ (excluded x = true → excludedAtEnd excluded before % 2 = 1) := by
      intro h
      have hodd := h hx
      omega
    rw [staysAfter_cons]
    simp [hfirst, staysAfter_nil]
  | case3 x hx =>
    rw [staysAfter_cons]
    simp [hx, staysAfter_nil]
  | case4 x y rest hx ih =>
    have hfirst : ¬ (excluded x = true → excludedAtEnd excluded before % 2 = 1) := by
      intro h
      have hodd := h hx
      omega
    have hsecond : excludedAtEnd excluded (before ++ [x]) % 2 = 1 := by
      rw [excludedAtEnd_concat, if_pos hx]
      omega
    have hnext : excludedAtEnd excluded (before ++ [x] ++ [y]) % 2 = 0 := by
      rw [excludedAtEnd_concat]
      split
      · omega
      · rfl
    rw [List.mem_cons, staysAfter_cons, staysAfter_cons, ih hnext]
    simp [hfirst, hsecond]
  | case5 x y rest hx ih =>
    have hnext : excludedAtEnd excluded (before ++ [x]) % 2 = 0 := by
      rw [excludedAtEnd_concat, if_neg hx]
    rw [List.mem_cons, staysAfter_cons, ih hnext]
    simp [hx]

theorem mem_prune : name ∈ prune excluded names ↔ Stays excluded names name := mem_prune_after rfl

/-- No two excluded names are neighbours. -/
def Apart (excluded : String → Bool) (names : List String) : Prop :=
  names.IsChain fun x y => ¬ (excluded x = true ∧ excluded y = true)

theorem prune_clean_iff :
    (∀ name ∈ prune excluded names, excluded name = false) ↔ Apart excluded names := by
  fun_induction prune excluded names with
  | case1 => simp [Apart]
  | case2 x hx => simp [Apart]
  | case3 x hx => simpa [Apart] using hx
  | case4 x y rest hx ih =>
    rw [List.forall_mem_cons, ih]
    unfold Apart
    rw [List.isChain_cons_cons]
    constructor
    · rintro ⟨hy, hrest⟩
      refine ⟨by simp [hy], ?_⟩
      cases rest with
      | nil => exact .singleton y
      | cons z rest => exact List.isChain_cons_cons.mpr ⟨by simp [hy], hrest⟩
    · rintro ⟨hxy, hchain⟩
      exact ⟨by simpa [hx] using hxy, hchain.tail⟩
  | case5 x y rest hx ih =>
    rw [List.forall_mem_cons, ih]
    unfold Apart
    rw [List.isChain_cons_cons]
    simp [hx]

namespace Step

/-- A step that has nothing to do with what is excluded. -/
def Respects (excluded : String → Bool) (step : Step) : Prop :=
  match step.act with
  | .index folders files =>
    (∀ name ∈ folders, excludesFolder excluded step.folder name = false) ∧
      ∀ name ∈ files, excludesFile excluded step.folder name = false
  | .document path => excluded path = false

/-- A step that has to do with just what stays of the names that its folder lists. -/
def Shows (s : Settings) (excluded : String → Bool) (folders files : List String) (step : Step) :
    Prop :=
  match step.act with
  | .index shownFolders shownFiles =>
    (∀ name, name ∈ shownFolders ↔ Stays (excludesFolder excluded step.folder) folders name ∧
      (s.autoExclude = true → holdsCMake step.world (Path.join step.folder name) = true)) ∧
    ∀ name, name ∈ shownFiles ↔ Stays (excludesFile excluded step.folder) files name
  | .document path => ∃ name, path = Path.join step.folder name ∧ isCMakeName name = true ∧
      Stays (excludesFile excluded step.folder) files name

end Step

variable {s : Settings} {w : World} {folder : String} {folders files : List String}

theorem mem_keptFolders :
    name ∈ Text.sort (keptFolders s excluded w folder folders) ↔
      Stays (excludesFolder excluded folder) folders name ∧
        (s.autoExclude = true → holdsCMake w (Path.join folder name) = true) := by
  rw [(Text.sort_perm _).mem_iff, keptFolders, ← mem_prune]
  cases s.autoExclude with
  | false => simp
  | true => simp [List.mem_filter]

theorem mem_keptFiles :
    name ∈ Text.sort (keptFiles excluded folder files) ↔
      Stays (excludesFile excluded folder) files name := by
  rw [(Text.sort_perm _).mem_iff]
  exact mem_prune

theorem shows_of_suits {step : Step}
    (h : step.act.Suits s excluded step.world step.folder folders files) :
    step.Shows s excluded folders files := by
  obtain ⟨w, folder, act⟩ := step
  dsimp only at h
  cases h with
  | index => exact ⟨fun name => mem_keptFolders, fun name => mem_keptFiles⟩
  | document hname hcmake => exact ⟨_, rfl, hcmake, mem_prune.mp hname⟩

/-- Where no two excluded names are neighbours, none of them stays. -/
theorem not_excluded_of_stays (hapart : Apart excluded names) (h : Stays excluded names name) :
    excluded name = false :=
  prune_clean_iff.mpr hapart name (mem_prune.mpr h)

theorem apart_of_none_stays (h : ∀ name, Stays excluded names name → excluded name = false) :
    Apart excluded names :=
  prune_clean_iff.mp fun name hname => h name (mem_prune.mp hname)

/-- Documenting a folder lists and documents just what stays of the names in each folder. Nothing
excluded does where no two excluded names are neighbours; and only there, as far as an index shows
all that stays. -/
theorem walk_shows_what_stays (s : Settings) (excluded : String → Bool)
    (document : Value → String → String → Run Unit) (input root : String) (w : World) :
    untraced (tracedFolder s excluded document input root (w, [])) =
        documentFolder s excluded document input root w ∧
      ∀ step ∈ stepsIn s excluded document input root w,
        ∃ folders files, step.world.listing? step.folder = some (folders, files) ∧
          step.Shows s excluded folders files ∧
          (Apart (excludesFolder excluded step.folder) folders →
            Apart (excludesFile excluded step.folder) files → step.Respects excluded) ∧
          (s.autoExclude = false → (∃ shownFolders shownFiles,
              step.act = .index shownFolders shownFiles) → step.Respects excluded →
            Apart (excludesFolder excluded step.folder) folders ∧
              Apart (excludesFile excluded step.folder) files) := by
  obtain ⟨hsame, hlisted⟩ := traces_folder w
  refine ⟨hsame, fun step hstep => ?_⟩
  obtain ⟨folders, files, hlisting, hsuits⟩ := hlisted step hstep
  have hshows := shows_of_suits hsuits
  refine ⟨folders, files, hlisting, hshows, ?_, ?_⟩
  · intro hfolders hfiles
    unfold Step.Shows at hshows
    unfold Step.Respects
    cases hact : step.act with
    | index shownFolders shownFiles =>
      rw [hact] at hshows
      refine ⟨fun name hname => ?_, fun name hname => ?_⟩
      · exact not_excluded_of_stays hfolders ((hshows.1 name).mp hname).1
      · exact not_excluded_of_stays hfiles ((hshows.2 name).mp hname)
    | document path =>
      rw [hact] at hshows
      obtain ⟨name, rfl, -, hstays⟩ := hshows
      have hnot : excludesFile excluded step.folder name = false :=
        not_excluded_of_stays hfiles hstays
      exact hnot
  · rintro hauto ⟨shownFolders, shownFiles, hact⟩ hrespects
    unfold Step.Shows at hshows
    unfold Step.Respects at hrespects
    rw [hact] at hshows hrespects
    refine ⟨apart_of_none_stays fun name hstays => ?_, apart_of_none_stays fun name hstays => ?_⟩
    · exact hrespects.1 name ((hshows.1 name).mpr ⟨hstays, by simp [hauto]⟩)
    · exact hrespects.2 name ((hshows.2 name).mpr hstays)

/-- A folder with two files that are both excluded. -/
def twoExcluded : World where
  files := ⟨[(["d"], .folder), (["d", "a.cmake"], .file ""), (["d", "b.cmake"], .file "")]⟩
  current := "/"
  order := id
  events := []

/-- The second one is listed and documented all the same. -/
theorem twoExcluded_documents_second :
    (stepsIn default endsInSmallCMake (documentFile default) "d" "/d/" twoExcluded).map Step.act =
        [.index [] ["b.cmake"], .document "/d/b.cmake"] ∧
      endsInSmallCMake "/d/b.cmake" = true ∧
      ¬ ∀ step ∈ stepsIn default endsInSmallCMake (documentFile default) "d" "/d/" twoExcluded,
        step.Respects endsInSmallCMake := by
  have hacts : (stepsIn default endsInSmallCMake (documentFile default) "d" "/d/"
      twoExcluded).map Step.act = [.index [] ["b.cmake"], .document "/d/b.cmake"] := by
    decide
  have hexcluded : endsInSmallCMake "/d/b.cmake" = true := by decide
  refine ⟨hacts, hexcluded, fun h => ?_⟩
  have hmem : Act.document "/d/b.cmake" ∈ (stepsIn default endsInSmallCMake
      (documentFile default) "d" "/d/" twoExcluded).map Step.act := by
    rw [hacts]
    decide
  obtain ⟨step, hstep, hact⟩ := List.mem_map.mp hmem
  have hrespects := h step hstep
  unfold Step.Respects at hrespects
  rw [hact] at hrespects
  exact absurd hexcluded (by simp [hrespects])

end CMakeDocs.Site
