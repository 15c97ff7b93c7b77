import CMakeDocs.Proofs.Growing
import CMakeDocs.Proofs.Walking.Trace

/-!
# The course of a walk

What a walk does in a folder goes by what the folder lists. As long as the surroundings stay as they
are, so do the listings, and the whole course of the walk is known beforehand. It does something in
just those folders that can be reached through the lists of what is kept; a walk that does not go
into subfolders does it in the first of them only.
-/
namespace CMakeDocs

/-- What holds of every real file tree: everything has a name, a place of its own and a folder that
it stands in, and a listing shows each name once. -/
structure World.Sound (w : World) : Prop where
  current_absolute : Path.isAbsolute w.current = true
  orderly : w.files.Orderly w.place
  named : w.files.Named
  distinct : w.files.Distinct
  order_perm : ∀ names, (w.order names).Perm names

namespace FileTree

theorem eq_of_nameIn? {folder place : Address} {name : String}
    (h : nameIn? folder place = some name) : place = folder ++ [name] := by
  unfold nameIn? at h
  split at h
  · split at h
    · next hplace =>
      cases h
      exact hplace
    · cases h
  · cases h

theorem nodup_names {t : FileTree} (h : (t.nodes.map Prod.fst).Nodup) (folder : Address) :
    (t.names folder).Nodup := by
  have hnames : t.names folder = (t.nodes.map Prod.fst).filterMap (nameIn? folder) := by
    rw [List.filterMap_map]
    rfl
  rw [hnames]
  refine h.filterMap ?_
  intro a b name ha hb
  rw [eq_of_nameIn? ha, eq_of_nameIn? hb]

end FileTree

namespace World

variable {w : World} {path name : String} {names folders files : List String}

theorem Sound.names? (hw : w.Sound) (h : w.names? path = some names) :
    names.Nodup ∧ ∀ name ∈ names, Path.IsName name := by
  obtain ⟨listed, hlisted, rfl⟩ := Option.map_eq_some_iff.mp h
  unfold FileTree.namesAt? at hlisted
  split at hlisted
  · split at hlisted
    · next place _ _ =>
      cases hlisted
      have hperm := hw.order_perm (w.files.names place)
      refine ⟨hperm.nodup_iff.mpr (FileTree.nodup_names hw.distinct place), ?_⟩
      intro name hname
      obtain ⟨kv, hkv, hin⟩ := List.mem_filterMap.mp (hperm.mem_iff.mp hname)
      refine hw.named kv hkv name ?_
      rw [FileTree.eq_of_nameIn? hin]
      simp
    · cases hlisted
  · cases hlisted

theorem names?_of_listing? (h : w.listing? path = some (folders, files)) :
    ∃ names, w.names? path = some names ∧
      folders = names.filter (fun name => w.isFolder (Path.join path name)) ∧
      files = names.filter (fun name => !w.isFolder (Path.join path name)) := by
  obtain ⟨names, hnames, hpartition⟩ := Option.map_eq_some_iff.mp h
  rw [List.partition_eq_filter_filter, Prod.mk.injEq] at hpartition
  exact ⟨names, hnames, hpartition.1.symm, hpartition.2.symm⟩

theorem Sound.listing? (hw : w.Sound) (h : w.listing? path = some (folders, files)) :
    (folders.Nodup ∧ ∀ name ∈ folders, Path.IsName name) ∧
      files.Nodup ∧ ∀ name ∈ files, Path.IsName name := by
  obtain ⟨names, hnames, rfl, rfl⟩ := names?_of_listing? h
  obtain ⟨hnodup, hvalid⟩ := hw.names? hnames
  exact ⟨⟨hnodup.filter _, fun name hname => hvalid name (List.mem_filter.mp hname).1⟩,
    hnodup.filter _, fun name hname => hvalid name (List.mem_filter.mp hname).1⟩

theorem isFolder_of_mem_listing? (h : w.listing? path = some (folders, files))
    (hname : name ∈ folders) : w.isFolder (Path.join path name) = true := by
  obtain ⟨names, -, rfl, -⟩ := names?_of_listing? h
  exact (List.mem_filter.mp hname).2

/-- What is a folder can be listed. -/
theorem exists_listing? (h : w.isFolder path = true) : ∃ folders files,
    w.listing? path = some (folders, files) := by
  have hnode : w.files.node? w.place path = some .folder := of_decide_eq_true h
  unfold FileTree.node? at hnode
  unfold listing? names? FileTree.namesAt?
  split at hnode
  · next place hplace => simp [hnode]
  · cases hnode

/-- Surroundings that hold some files and nothing else, with the root as the current folder. -/
def ofNodes (nodes : List (Address × Node)) : World where
  files := ⟨nodes⟩
  current := "/"
  order := id
  events := []

theorem sound_ofNodes {nodes : List (Address × Node)}
    (hfolder : ∀ kv ∈ nodes, (FileTree.mk nodes).get? kv.1.dropLast = some .folder)
    (hnamed : ∀ kv ∈ nodes, ∀ name ∈ kv.1, Path.IsName name)
    (hdistinct : (nodes.map Prod.fst).Nodup) : (ofNodes nodes).Sound where
  current_absolute := by
    have habsolute : Path.isAbsolute "/" = true := by decide
    exact habsolute
  orderly := by
    have hplace : (ofNodes nodes).place = [] := by
      have hnone : (Path.parts "/").filter (· ≠ "") = [] := by decide
      exact hnone
    refine ⟨fun a name hsome => ?_, by rw [hplace]; rfl⟩
    obtain ⟨kv, hkv, hplace⟩ := List.mem_map.mp (FileTree.mem_of_isSome_get? (by simp) hsome)
    have hparent := hfolder kv hkv
    rw [hplace, List.dropLast_concat] at hparent
    exact hparent
  named := hnamed
  distinct := hdistinct
  order_perm names := List.Perm.refl names

end World

namespace Site

theorem prune_sublist (excluded : String → Bool) (names : List String) :
    (prune excluded names).Sublist names := by
  fun_induction prune excluded names with
  | case1 => exact .slnil
  | case2 x hx => exact List.nil_sublist _
  | case3 x hx => exact List.Sublist.refl _
  | case4 x y rest hx ih => exact (ih.cons_cons y).cons x
  | case5 x y rest hx ih => exact ih.cons_cons x

variable {s : Settings} {excluded : String → Bool} {w : World} {root folder name : String}
  {folders files ns ms : List String}

theorem keptFolders_sublist : (keptFolders s excluded w folder folders).Sublist folders := by
  have hprune := prune_sublist (excludesFolder excluded folder) folders
  unfold keptFolders
  dsimp only
  split
  · exact List.filter_sublist.trans hprune
  · exact hprune

theorem keptFiles_sublist : (keptFiles excluded folder files).Sublist files := prune_sublist _ _

section Kept

variable (hw : w.Sound) (hlisting : w.listing? folder = some (folders, files))
include hw hlisting

theorem nodup_keptFolders : (keptFolders s excluded w folder folders).Nodup :=
  (hw.listing? hlisting).1.1.sublist keptFolders_sublist

theorem nodup_keptFiles : (keptFiles excluded folder files).Nodup :=
  (hw.listing? hlisting).2.1.sublist keptFiles_sublist

theorem isName_of_mem_keptFolders (hname : name ∈ keptFolders s excluded w folder folders) :
    Path.IsName name :=
  (hw.listing? hlisting).1.2 name (keptFolders_sublist.subset hname)

theorem isName_of_mem_keptFiles (hname : name ∈ keptFiles excluded folder files) :
    Path.IsName name :=
  (hw.listing? hlisting).2.2 name (keptFiles_sublist.subset hname)

end Kept

/-- A folder that keeps a file whose name ends in `.cmake`. -/
def KeepsCMake (excluded : String → Bool) (w : World) (folder : String) : Prop :=
  ∃ folders files, w.listing? folder = some (folders, files) ∧
    (keptFiles excluded folder files).any endsInSmallCMake = true

/-- Something that a walk does in a folder. -/
structure Deed where
  folder : String
  act : Act
deriving DecidableEq, Repr

def Step.deed (step : Step) : Deed := ⟨step.folder, step.act⟩

/-- What a visit does in a folder that lists the given names. -/
def visitDeeds (s : Settings) (excluded : String → Bool) (w : World) (folder : String)
    (folders files : List String) : List Deed :=
  let kept := keptFiles excluded folder files
  if s.autoExclude && !kept.any endsInSmallCMake then []
  else
    ⟨folder, .index (Text.sort (keptFolders s excluded w folder folders)) (Text.sort kept)⟩ ::
      ((Text.sort kept).filter isCMakeName).map fun name =>
        ⟨folder, .document (Path.join folder name)⟩

/-- Nothing is done in a folder just if folders are left out and no CMake file stays on its list. -/
theorem visitDeeds_eq_nil : visitDeeds s excluded w folder folders files = [] ↔
    s.autoExclude = true ∧ (keptFiles excluded folder files).any endsInSmallCMake = false := by
  unfold visitDeeds
  dsimp only
  split
  · next hskip => simpa using hskip
  · next hskip => simpa using hskip

theorem mem_visitDeeds {deed : Deed} : deed ∈ visitDeeds s excluded w folder folders files ↔
    (s.autoExclude = true → (keptFiles excluded folder files).any endsInSmallCMake = true) ∧
      (deed = ⟨folder, .index (Text.sort (keptFolders s excluded w folder folders))
          (Text.sort (keptFiles excluded folder files))⟩ ∨
        ∃ name ∈ keptFiles excluded folder files, isCMakeName name = true ∧
          deed = ⟨folder, .document (Path.join folder name)⟩) := by
  have hsorted : ∀ name, name ∈ Text.sort (keptFiles excluded folder files) ↔
      name ∈ keptFiles excluded folder files := fun name => (Text.sort_perm _).mem_iff
  unfold visitDeeds
  dsimp only
  split
  · next hskip =>
    rw [Bool.and_eq_true, Bool.not_eq_true'] at hskip
    simp [hskip]
  · next hskip =>
    have hvisit : s.autoExclude = true →
        (keptFiles excluded folder files).any endsInSmallCMake = true := by
      intro hauto
      simpa [hauto] using hskip
    rw [and_iff_right hvisit, List.mem_cons, List.mem_map]
    refine or_congr_right ⟨?_, ?_⟩
    · rintro ⟨name, hname, rfl⟩
      obtain ⟨hmem, hcmake⟩ := List.mem_filter.mp hname
      exact ⟨name, (hsorted name).mp hmem, hcmake, rfl⟩
    · rintro ⟨name, hname, hcmake, rfl⟩
      exact ⟨name, List.mem_filter.mpr ⟨(hsorted name).mpr hname, hcmake⟩, rfl⟩

/-- The index of a folder lists what is kept of it, in order. -/
theorem index_of_mem_visitDeeds {other : String} {shownFolders shownFiles : List String}
    (h : (⟨other, .index shownFolders shownFiles⟩ : Deed) ∈
      visitDeeds s excluded w folder folders files) :
    shownFolders = Text.sort (keptFolders s excluded w folder folders) ∧
      shownFiles = Text.sort (keptFiles excluded folder files) := by
  obtain ⟨-, hsame | ⟨name, -, -, hsame⟩⟩ := mem_visitDeeds.mp h
  · injection hsame with _ hact
    injection hact with hfolders hfiles
    exact ⟨hfolders, hfiles⟩
  · cases hsame

theorem folder_of_mem_visitDeeds {deed : Deed}
    (h : deed ∈ visitDeeds s excluded w folder folders files) : deed.folder = folder := by
  obtain ⟨-, rfl | ⟨name, -, -, rfl⟩⟩ := mem_visitDeeds.mp h <;> rfl

/-- Some deeds, and then others: a walk that does not go into subfolders is over once it has done
something. -/
def inTurn (s : Settings) (first later : List Deed) : List Deed :=
  if s.recursive || first.isEmpty then first ++ later else first

def courseAll (s : Settings) (enter : String → List Deed) : List String → List Deed
  | [] => []
  | name :: rest => inTurn s (enter name) (courseAll s enter rest)

/-- The deeds of a walk to a depth, in surroundings that stay as they are. -/
def course (s : Settings) (excluded : String → Bool) (w : World) : Nat → String → List Deed
  | 0, _ => []
  | depth + 1, folder =>
    match w.listing? folder with
    | none => []
    | some (folders, files) =>
      inTurn s (visitDeeds s excluded w folder folders files)
        (courseAll s (fun name =>
          let path := Path.join folder name
          if !s.followLinks && w.isLink path then [] else course s excluded w depth path)
          (keptFolders s excluded w folder folders))

/-- The names that lead to the folders that a walk comes to. -/
inductive Reached (s : Settings) (excluded : String → Bool) (w : World) (root : String) :
    List String → Prop where
  | root : Reached s excluded w root []
  | sub {ns folders files : List String} {name : String} (hreached : Reached s excluded w root ns)
      (hlisting : w.listing? (Path.below root ns) = some (folders, files))
      (hname : name ∈ keptFolders s excluded w (Path.below root ns) folders)
      (hlink : s.followLinks = true ∨ w.isLink (Path.below root (ns ++ [name])) = false) :
      Reached s excluded w root (ns ++ [name])

section Turns

variable {first later part : List Deed} {deed : Deed}

theorem inTurn_recursive (h : s.recursive = true) (first later : List Deed) :
    inTurn s first later = first ++ later := if_pos (by simp [h])

theorem inTurn_nil (s : Settings) (later : List Deed) : inTurn s [] later = later :=
  if_pos (by simp)

theorem inTurn_of_ne_nil (h : s.recursive = false) (hfirst : first ≠ []) (later : List Deed) :
    inTurn s first later = first := if_neg (by simp [h, hfirst])

theorem mem_of_mem_inTurn (h : deed ∈ inTurn s first later) :
    deed ∈ first ∨ (deed ∈ later ∧ inTurn s first later = first ++ later) := by
  unfold inTurn at h ⊢
  split at h
  · next hboth =>
    rw [if_pos hboth]
    exact (List.mem_append.mp h).imp_right fun hlater => ⟨hlater, rfl⟩
  · exact .inl h

theorem sublist_inTurn : first.Sublist (inTurn s first later) := by
  unfold inTurn
  split
  · exact List.sublist_append_left first later
  · exact List.Sublist.refl first

/-- Deeds that show up in others: all of them where the walk goes into subfolders, and at least
one of them is not alone otherwise. -/
structure Covered (s : Settings) (part deeds : List Deed) : Prop where
  sub : s.recursive = true → part ⊆ deeds
  nil : deeds = [] → part = []

theorem Covered.refl (s : Settings) (part : List Deed) : Covered s part part :=
  ⟨fun _ => List.Subset.refl part, id⟩

theorem inTurn_eq_nil : inTurn s first later = [] ↔ first = [] ∧ later = [] := by
  unfold inTurn
  split
  · exact List.append_eq_nil_iff
  · next h =>
    have hfirst : first ≠ [] := by
      rintro rfl
      simp at h
    simp [hfirst]

theorem Covered.inTurn_left (h : Covered s part first) (later : List Deed) :
    Covered s part (inTurn s first later) where
  sub hrec := by
    rw [inTurn_recursive hrec]
    exact List.subset_append_of_subset_left later (h.sub hrec)
  nil hnil := h.nil (inTurn_eq_nil.mp hnil).1

theorem Covered.inTurn_right (h : Covered s part later) (first : List Deed) :
    Covered s part (inTurn s first later) where
  sub hrec := by
    rw [inTurn_recursive hrec]
    exact List.subset_append_of_subset_right first (h.sub hrec)
  nil hnil := h.nil (inTurn_eq_nil.mp hnil).2

theorem Covered.courseAll {enter : String → List Deed} {names : List String} (hname : name ∈ names)
    (h : Covered s part (enter name)) : Covered s part (courseAll s enter names) := by
  induction names with
  | nil => simp at hname
  | cons other names ih =>
    rcases List.mem_cons.mp hname with rfl | hname
    · exact h.inTurn_left _
    · exact (ih hname).inTurn_right _

end Turns

theorem Reached.concat_iff :
    Reached s excluded w root (ns ++ [name]) ↔ Reached s excluded w root ns ∧
      ∃ folders files, w.listing? (Path.below root ns) = some (folders, files) ∧
        name ∈ keptFolders s excluded w (Path.below root ns) folders ∧
        (s.followLinks = true ∨ w.isLink (Path.below root (ns ++ [name])) = false) := by
  constructor
  · intro h
    generalize hms : ns ++ [name] = ms at h
    cases h with
    | root => simp at hms
    | sub hreached hlisting hname hlink =>
      obtain ⟨rfl, hsame⟩ := List.append_inj' hms rfl
      obtain rfl : name = _ := List.singleton_inj.mp hsame
      exact ⟨hreached, _, _, hlisting, hname, hlink⟩
  · rintro ⟨hreached, folders, files, hlisting, hname, hlink⟩
    exact .sub hreached hlisting hname hlink

theorem Reached.enter (hreached : Reached s excluded w root ns)
    (hlisting : w.listing? (Path.below root ns) = some (folders, files))
    (hname : name ∈ keptFolders s excluded w (Path.below root ns) folders)
    (hlink : ¬ (!s.followLinks && w.isLink (Path.join (Path.below root ns) name)) = true) :
    Reached s excluded w root (ns ++ [name]) := by
  rw [← Path.below_concat] at hlink
  refine .sub hreached hlisting hname ?_
  cases hfollow : s.followLinks with
  | true => exact .inl rfl
  | false => exact .inr (by simpa [hfollow] using hlink)

theorem Reached.left (h : Reached s excluded w root (ns ++ ms)) : Reached s excluded w root ns := by
  induction ms using List.reverseRecOn with
  | nil => simpa using h
  | append_singleton ms name ih =>
    rw [← List.append_assoc] at h
    exact ih (concat_iff.mp h).1

theorem Reached.isName (hw : w.Sound) (h : Reached s excluded w root ns) :
    ∀ name ∈ ns, Path.IsName name := by
  induction h with
  | root => simp
  | sub _ hlisting hname _ ih =>
    exact Path.isName_concat ih (isName_of_mem_keptFolders hw hlisting hname)

/-- The depth of a walk is enough for all that can be reached. -/
theorem Reached.length_lt (hw : w.Sound) (hroot : Path.isAbsolute root = true)
    (h : Reached s excluded w root ns) : ns.length < walkDepth w := by
  have hdepth : (FileTree.linkLimit + 1) * (w.files.nodes.length + 1) < walkDepth w := by
    unfold walkDepth
    exact Nat.mul_lt_mul'' (by omega) (by omega)
  have hnames := h.isName hw
  cases h with
  | root => exact Nat.lt_of_le_of_lt (Nat.zero_le _) hdepth
  | sub hreached hlisting hname hlink =>
    have hfolder := World.isFolder_of_mem_listing? hlisting (keptFolders_sublist.subset hname)
    rw [← Path.below_concat] at hfolder
    have hle := FileTree.length_le_of_isFolder hroot hnames hfolder
    omega

/-- The deeds of a walk into a folder on the list of another one. -/
def courseInto (s : Settings) (excluded : String → Bool) (w : World) (depth : Nat)
    (folder name : String) : List Deed :=
  if !s.followLinks && w.isLink (Path.join folder name) then []
  else course s excluded w depth (Path.join folder name)

theorem course_zero (s : Settings) (excluded : String → Bool) (w : World) (folder : String) :
    course s excluded w 0 folder = [] := rfl

theorem course_eq (s : Settings) (excluded : String → Bool) (w : World) (depth : Nat)
    (folder : String) : course s excluded w (depth + 1) folder =
      match w.listing? folder with
      | none => []
      | some (folders, files) =>
        inTurn s (visitDeeds s excluded w folder folders files)
          (courseAll s (courseInto s excluded w depth folder)
            (keptFolders s excluded w folder folders)) := by
  rfl

theorem course_of_none {depth : Nat} (hlisting : w.listing? folder = none) :
    course s excluded w (depth + 1) folder = [] := by
  rw [course_eq, hlisting]

theorem course_succ {depth : Nat} (hlisting : w.listing? folder = some (folders, files)) :
    course s excluded w (depth + 1) folder =
      inTurn s (visitDeeds s excluded w folder folders files)
        (courseAll s (courseInto s excluded w depth folder)
          (keptFolders s excluded w folder folders)) := by
  rw [course_eq, hlisting]

/-- A folder on a list is left alone, or it is reached and walked through. -/
theorem courseInto_cases (depth : Nat) (hreached : Reached s excluded w root ns)
    (hlisting : w.listing? (Path.below root ns) = some (folders, files))
    (hname : name ∈ keptFolders s excluded w (Path.below root ns) folders) :
    courseInto s excluded w depth (Path.below root ns) name = [] ∨
      Reached s excluded w root (ns ++ [name]) ∧
        courseInto s excluded w depth (Path.below root ns) name =
          course s excluded w depth (Path.below root (ns ++ [name])) := by
  by_cases hlink : (!s.followLinks && w.isLink (Path.join (Path.below root ns) name)) = true
  · exact .inl (if_pos hlink)
  · rw [Path.below_concat]
    exact .inr ⟨hreached.enter hlisting hname hlink, if_neg hlink⟩

/-- Every folder that is reached takes part in the course. -/
theorem covered_course (ns : List String) {depth : Nat} (hms : ms.length < depth)
    (hreached : Reached s excluded w root (ns ++ ms))
    (hlisting : w.listing? (Path.below root (ns ++ ms)) = some (folders, files)) :
    Covered s (visitDeeds s excluded w (Path.below root (ns ++ ms)) folders files)
      (course s excluded w depth (Path.below root ns)) := by
  induction ms generalizing ns depth with
  | nil =>
    obtain ⟨depth, rfl⟩ := Nat.exists_eq_succ_of_ne_zero (Nat.ne_of_gt hms)
    rw [List.append_nil] at hlisting ⊢
    rw [course_succ hlisting]
    exact (Covered.refl s _).inTurn_left _
  | cons name ms ih =>
    obtain ⟨depth, rfl⟩ := Nat.exists_eq_succ_of_ne_zero (Nat.ne_of_gt (Nat.zero_lt_of_lt hms))
    rw [← List.singleton_append, ← List.append_assoc] at hreached hlisting ⊢
    obtain ⟨-, folders', files', hlisting', hname, hlink⟩ := Reached.concat_iff.mp hreached.left
    have hsub := ih (ns ++ [name]) (Nat.lt_of_succ_lt_succ hms) hreached hlisting
    rw [Path.below_concat] at hlink
    rw [course_succ hlisting']
    refine Covered.inTurn_right (Covered.courseAll hname ?_) _
    rw [courseInto, if_neg (by rcases hlink with hlink | hlink <;> simp [hlink]),
      ← Path.below_concat]
    exact hsub

theorem exists_of_mem_courseAll {enter : String → List Deed} {names : List String} {deed : Deed}
    (h : deed ∈ courseAll s enter names) :
    ∃ name ∈ names, deed ∈ enter name ∧ (enter name).Sublist (courseAll s enter names) := by
  induction names with
  | nil => simp [courseAll] at h
  | cons name names ih =>
    rw [courseAll] at h ⊢
    rcases mem_of_mem_inTurn h with h | ⟨h, hboth⟩
    · exact ⟨name, List.mem_cons_self, h, sublist_inTurn⟩
    · obtain ⟨other, hother, hdeed, hsublist⟩ := ih h
      refine ⟨other, List.mem_cons_of_mem name hother, hdeed, ?_⟩
      rw [hboth]
      exact hsublist.trans (List.sublist_append_right _ _)

/-- A deed of the course is one of a folder that is reached, and all that is done there is part of
the course. -/
theorem exists_of_mem_course (ns : List String) {depth : Nat} {deed : Deed}
    (hreached : Reached s excluded w root ns)
    (h : deed ∈ course s excluded w depth (Path.below root ns)) :
    ∃ ms folders files, Reached s excluded w root (ns ++ ms) ∧
      w.listing? (Path.below root (ns ++ ms)) = some (folders, files) ∧
      deed ∈ visitDeeds s excluded w (Path.below root (ns ++ ms)) folders files ∧
      (visitDeeds s excluded w (Path.below root (ns ++ ms)) folders files).Sublist
        (course s excluded w depth (Path.below root ns)) := by
  induction depth generalizing ns with
  | zero => simp [course_zero] at h
  | succ depth ih =>
    cases hlisting : w.listing? (Path.below root ns) with
    | none => simp [course_of_none hlisting] at h
    | some listing =>
      obtain ⟨folders, files⟩ := listing
      rw [course_succ hlisting] at h ⊢
      rcases mem_of_mem_inTurn h with h | ⟨h, hboth⟩
      · refine ⟨[], folders, files, ?_⟩
        rw [List.append_nil]
        exact ⟨hreached, hlisting, h, sublist_inTurn⟩
      · rw [hboth]
        obtain ⟨name, hname, hdeed, hsublist⟩ := exists_of_mem_courseAll h
        rcases courseInto_cases depth hreached hlisting hname with hnone | ⟨hsub, hinto⟩
        · simp [hnone] at hdeed
        · rw [hinto] at hdeed hsublist
          obtain ⟨ms, folders', files', hms⟩ := ih (ns ++ [name]) hsub hdeed
          rw [List.append_assoc] at hms
          refine ⟨[name] ++ ms, folders', files', hms.1, hms.2.1, hms.2.2.1, ?_⟩
          exact (hms.2.2.2.trans hsublist).trans (List.sublist_append_right _ _)

/-- The course of a walk through everything in a folder. -/
def fullCourse (s : Settings) (excluded : String → Bool) (w : World) (root : String) : List Deed :=
  course s excluded w (walkDepth w) root

theorem exists_of_mem_fullCourse {deed : Deed} (h : deed ∈ fullCourse s excluded w root) :
    ∃ ns folders files, Reached s excluded w root ns ∧
      w.listing? (Path.below root ns) = some (folders, files) ∧
      deed ∈ visitDeeds s excluded w (Path.below root ns) folders files ∧
      (visitDeeds s excluded w (Path.below root ns) folders files).Sublist
        (fullCourse s excluded w root) :=
  exists_of_mem_course [] .root h

/-- A walk into subfolders does just what is to be done in the folders that are reached. -/
theorem mem_fullCourse (hw : w.Sound) (hroot : Path.isAbsolute root = true)
    (hrec : s.recursive = true) {deed : Deed} :
    deed ∈ fullCourse s excluded w root ↔
      ∃ ns folders files, Reached s excluded w root ns ∧
        w.listing? (Path.below root ns) = some (folders, files) ∧
        deed ∈ visitDeeds s excluded w (Path.below root ns) folders files := by
  constructor
  · intro h
    obtain ⟨ns, folders, files, hreached, hlisting, hdeed, -⟩ := exists_of_mem_fullCourse h
    exact ⟨ns, folders, files, hreached, hlisting, hdeed⟩
  · rintro ⟨ns, folders, files, hreached, hlisting, hdeed⟩
    exact (covered_course [] (hreached.length_lt hw hroot) hreached hlisting).sub hrec hdeed

/-- A walk does nothing just if there is nothing to do in any folder that is reached. -/
theorem fullCourse_eq_nil (hw : w.Sound) (hroot : Path.isAbsolute root = true) :
    fullCourse s excluded w root = [] ↔
      ∀ ns folders files, Reached s excluded w root ns →
        w.listing? (Path.below root ns) = some (folders, files) →
        visitDeeds s excluded w (Path.below root ns) folders files = [] := by
  constructor
  · intro h ns folders files hreached hlisting
    exact (covered_course [] (hreached.length_lt hw hroot) hreached hlisting).nil h
  · intro h
    refine List.eq_nil_iff_forall_not_mem.mpr ?_
    intro deed hdeed
    obtain ⟨ns, folders, files, hreached, hlisting, hmem, -⟩ := exists_of_mem_fullCourse hdeed
    rw [h ns folders files hreached hlisting] at hmem
    simp at hmem

/-- What is done in a folder below the root goes by the listing of that folder. -/
theorem mem_visitDeeds_of_mem_fullCourse (hw : w.Sound) {deed : Deed}
    (hns : ∀ name ∈ ns, Path.IsName name)
    (hlisting : w.listing? (Path.below root ns) = some (folders, files))
    (hfolder : deed.folder = Path.below root ns) (h : deed ∈ fullCourse s excluded w root) :
    Reached s excluded w root ns ∧
      deed ∈ visitDeeds s excluded w (Path.below root ns) folders files := by
  obtain ⟨ms, folders', files', hreached, hlisting', hdeed, -⟩ := exists_of_mem_fullCourse h
  have hsame : Path.below root ns = Path.below root ms :=
    hfolder.symm.trans (folder_of_mem_visitDeeds hdeed)
  obtain rfl := Path.below_injective hns (hreached.isName hw) hsame
  rw [hlisting] at hlisting'
  cases hlisting'
  exact ⟨hreached, hdeed⟩

/-- A run that was traced to its end, and has done something. -/
theorem exists_run_of_traced {document : Value → String → String → Run Unit} {input : String}
    {deeds : List Deed} (hsome : deeds ≠ [])
    (h : (match tracedFolder s excluded document input root (w, []) with
      | .ok _ (_, steps) => steps.map Step.deed
      | .error _ _ => []) = deeds) :
    ∃ w', documentFolder s excluded document input root w = .ok () w' ∧
      (stepsIn s excluded document input root w).map Step.deed = deeds := by
  rw [stepsIn, ← (traces_folder w).1]
  cases hrun : tracedFolder s excluded document input root (w, []) with
  | ok a ws =>
    rw [hrun] at h
    exact ⟨ws.1, rfl, h⟩
  | error e ws =>
    rw [hrun] at h
    exact absurd h.symm hsome

/-- A folder with a CMake file, and a subfolder with another one. -/
def fileAndSubfolder : World := .ofNodes
  [(["d"], .folder), (["d", "a.cmake"], .file ""), (["d", "sub"], .folder),
    (["d", "sub", "b.cmake"], .file "")]

theorem sound_fileAndSubfolder : fileAndSubfolder.Sound :=
  World.sound_ofNodes (by decide) (by decide) (by decide)

end Site

end CMakeDocs
