import CMakeDocs.Proofs.Walking.Undisturbed

/-!
# Walks without filters

Where no filter excludes anything, the lists of a folder are kept as they are, except that folders
without a CMake file can be left out. So in a tree without links a walk that leaves nothing out
comes to every folder, and what it documents are the CMake files in all of them.
-/
namespace CMakeDocs

/-- No filter excludes a path. -/
def Site.nothing : String → Bool := fun _ => false

namespace World

variable {w : World} {root name : String} {ns : List String}

/-- What is there below a root is on one of the two lists of its folder. -/
theorem exists_listing_of_isPresent (hw : w.Sound) (hroot : Path.isAbsolute root = true)
    (hname : Path.IsName name) (h : w.isPresent (Path.below root (ns ++ [name])) = true) :
    ∃ folders files, w.listing? (Path.below root ns) = some (folders, files) ∧
      (w.isFolder (Path.below root (ns ++ [name])) = true → name ∈ folders) ∧
      (w.isFolder (Path.below root (ns ++ [name])) = false → name ∈ files) := by
  have hne : Path.below root ns ≠ "" := by
    intro hempty
    have habsolute := Path.isAbsolute_below hroot ns
    rw [hempty] at habsolute
    cases habsolute
  rw [Path.below_concat] at h ⊢
  obtain ⟨listed, hlisted, hmem⟩ := FileTree.exists_mem_namesAt? hne hname h
  have hnames : w.names? (Path.below root ns) = some (w.order listed) := by
    rw [World.names?, hlisted, Option.map_some]
  have hmem' : name ∈ w.order listed := (hw.order_perm listed).mem_iff.mpr hmem
  refine ⟨_, _, by rw [World.listing?, hnames, Option.map_some, List.partition_eq_filter_filter],
    fun hfolder => ?_, fun hfolder => ?_⟩
  · exact List.mem_filter.mpr ⟨hmem', hfolder⟩
  · exact List.mem_filter.mpr ⟨hmem', by simp [hfolder]⟩

theorem isFolder_of_listing? {path : String} {listing : List String × List String}
    (h : w.listing? path = some listing) : w.isFolder path = true := by
  obtain ⟨names, hnames, -⟩ := Option.map_eq_some_iff.mp h
  obtain ⟨listed, hlisted, -⟩ := Option.map_eq_some_iff.mp hnames
  rw [World.isFolder, FileTree.isFolder, FileTree.node?]
  unfold FileTree.namesAt? at hlisted
  split at hlisted
  · next place hplace =>
    split at hlisted
    · next hfolder => simp [hfolder]
    · cases hlisted
  · cases hlisted

end World

namespace Site

variable {s : Settings} {w : World} {root folder name path : String}
  {folders files ns : List String}

theorem prune_nothing (names : List String) : prune (fun _ => false) names = names := by
  fun_induction prune (fun _ => false) names with
  | case1 => rfl
  | case2 x hx => cases hx
  | case3 x hx => rfl
  | case4 x y rest hx ih => cases hx
  | case5 x y rest hx ih => rw [ih]

theorem keptFiles_nothing : keptFiles nothing folder files = files := prune_nothing files

theorem keptFolders_nothing : keptFolders s nothing w folder folders =
    if s.autoExclude then folders.filter fun name => holdsCMake w (Path.join folder name)
    else folders := by
  have hprune : prune (excludesFolder nothing folder) folders = folders := prune_nothing folders
  rw [keptFolders, hprune]

/-- Nothing below a root is a link. -/
def NoLinks (w : World) (root : String) : Prop :=
  ∀ ns, (∀ name ∈ ns, Path.IsName name) → w.isLink (Path.below root ns) = false

/-- A walk that leaves nothing out comes to just those folders that are there. -/
theorem reached_iff_isFolder (hw : w.Sound) (hroot : Path.isAbsolute root = true)
    (hfolder : w.isFolder root = true) (hlinks : NoLinks w root) (hauto : s.autoExclude = false) :
    Reached s nothing w root ns ↔
      (∀ name ∈ ns, Path.IsName name) ∧ w.isFolder (Path.below root ns) = true := by
  have hkept : ∀ folder folders, keptFolders s nothing w folder folders = folders := by
    intro folder folders
    rw [keptFolders_nothing, hauto]
    rfl
  constructor
  · intro h
    refine ⟨h.isName hw, ?_⟩
    cases h with
    | root => exact hfolder
    | sub _ hlisting hname _ =>
      rw [hkept] at hname
      rw [Path.below_concat]
      exact World.isFolder_of_mem_listing? hlisting hname
  · rintro ⟨hns, hdown⟩
    induction ns using List.reverseRecOn with
    | nil => exact .root
    | append_singleton ns name ih =>
      have hname := hns name (by simp)
      have habove : ∀ other ∈ ns, Path.IsName other :=
        fun other hother => hns other (List.mem_append_left [name] hother)
      have hpresent : w.isPresent (Path.below root (ns ++ [name])) = true := by
        have hnode : w.files.node? w.place (Path.below root (ns ++ [name])) = some .folder :=
          of_decide_eq_true hdown
        rw [World.isPresent, FileTree.isPresent, hnode, Option.isSome_some]
      obtain ⟨folders, files, hlisting, hmem, -⟩ :=
        World.exists_listing_of_isPresent hw hroot hname hpresent
      refine .sub (ih habove (World.isFolder_of_listing? hlisting)) hlisting ?_
        (.inr (hlinks _ hns))
      rw [hkept]
      exact hmem hdown

/-- A folder below the root lists a name that is not that of a folder. -/
structure ListsFile (w : World) (root : String) (ns : List String) (name : String) : Prop where
  isName : ∀ part ∈ ns, Path.IsName part
  listed : ∃ folders files, w.listing? (Path.below root ns) = some (folders, files) ∧ name ∈ files

theorem ListsFile.isName_concat (hw : w.Sound) (h : ListsFile w root ns name) :
    ∀ part ∈ ns ++ [name], Path.IsName part := by
  obtain ⟨folders, files, hlisting, hmem⟩ := h.listed
  exact Path.isName_concat h.isName ((hw.listing? hlisting).2.2 name hmem)

/-- Every regular file below the root is listed. -/
theorem listsFile_of_isFile (hw : w.Sound) (hroot : Path.isAbsolute root = true)
    (hns : ∀ part ∈ ns ++ [name], Path.IsName part)
    (h : w.isFile (Path.below root (ns ++ [name])) = true) : ListsFile w root ns name := by
  rw [World.isFile, FileTree.isFile] at h
  split at h
  · next text hnode =>
    have hpresent : w.isPresent (Path.below root (ns ++ [name])) = true := by
      rw [World.isPresent, FileTree.isPresent, hnode, Option.isSome_some]
    have hfolder : w.isFolder (Path.below root (ns ++ [name])) = false := by
      rw [World.isFolder, FileTree.isFolder, hnode]
      rfl
    obtain ⟨folders, files, hlisting, -, hmem⟩ :=
      World.exists_listing_of_isPresent hw hroot (hns name (by simp)) hpresent
    exact ⟨fun part hpart => hns part (List.mem_append_left [name] hpart), folders, files, hlisting,
      hmem hfolder⟩
  · cases h

/-- The file that a deed documents. -/
def Deed.document? : Deed → Option String
  | ⟨_, .document path⟩ => some path
  | ⟨_, .index _ _⟩ => none

/-- The files that are documented, in their order. -/
def documented (deeds : List Deed) : List String := deeds.filterMap Deed.document?

theorem mem_documented {deeds : List Deed} :
    path ∈ documented deeds ↔ ∃ folder, (⟨folder, .document path⟩ : Deed) ∈ deeds := by
  rw [documented, List.mem_filterMap]
  constructor
  · rintro ⟨⟨folder, act⟩, hdeed, hpath⟩
    cases act with
    | index folders files => cases hpath
    | document other =>
      cases hpath
      exact ⟨folder, hdeed⟩
  · rintro ⟨folder, hdeed⟩
    exact ⟨_, hdeed, rfl⟩

/-- What a walk without filters documents are the CMake files of the folders that it comes to,
except where it leaves a folder out. -/
theorem mem_documented_fullCourse (hw : w.Sound) (hroot : Path.isAbsolute root = true)
    (hrec : s.recursive = true) :
    path ∈ documented (fullCourse s nothing w root) ↔
      ∃ ns name, Reached s nothing w root ns ∧ ListsFile w root ns name ∧
        (s.autoExclude = true → KeepsCMake nothing w (Path.below root ns)) ∧
        isCMakeName name = true ∧ path = Path.below root (ns ++ [name]) := by
  rw [mem_documented]
  constructor
  · rintro ⟨folder, hdeed⟩
    obtain ⟨ns, folders, files, hreached, hlisting, hmem⟩ := (mem_fullCourse hw hroot hrec).mp hdeed
    obtain ⟨hkeeps, hsame | ⟨name, hname, hcmake, hsame⟩⟩ := mem_visitDeeds.mp hmem
    · cases hsame
    · cases hsame
      have hlists : name ∈ files := keptFiles_sublist.subset hname
      exact ⟨ns, name, hreached, ⟨hreached.isName hw, folders, files, hlisting, hlists⟩,
        fun hauto => ⟨folders, files, hlisting, hkeeps hauto⟩, hcmake,
        (Path.below_concat root ns name).symm⟩
  · rintro ⟨ns, name, hreached, ⟨-, folders, files, hlisting, hname⟩, hkeeps, hcmake, rfl⟩
    refine ⟨Path.below root ns, (mem_fullCourse hw hroot hrec).mpr
      ⟨ns, folders, files, hreached, hlisting, mem_visitDeeds.mpr ⟨fun hauto => ?_, .inr ?_⟩⟩⟩
    · obtain ⟨folders', files', hlisting', hany⟩ := hkeeps hauto
      rw [hlisting] at hlisting'
      cases hlisting'
      exact hany
    · refine ⟨name, ?_, hcmake, by rw [Path.below_concat]⟩
      rw [keptFiles_nothing]
      exact hname

end Site

end CMakeDocs
