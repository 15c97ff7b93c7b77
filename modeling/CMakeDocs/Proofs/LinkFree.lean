import CMakeDocs.Proofs.Outside

/-!
# Trees without links

Where there is no link, a path without `..` leads to the place that its names give. So what is made
or written below a folder stays at its place, above it or below it, and a tree that is neither above
nor below that folder stays as it is.
-/
namespace CMakeDocs

/-- Where something was found, or where it can be made. -/
def Located.place? : Located → Option Address
  | found place => some place
  | vacant parent name _ => some (parent ++ [name])
  | fault _ => none

def Node.isLink : Node → Bool
  | link _ => true
  | _ => false

namespace FileTree

variable {t t' t'' : FileTree} {last : Bool} {onLink onLink' : Address → List String → Located}
  {place a b here : Address} {part path output root text : String} {rest ps ms ns : List String}
  {zone : Address → Prop}

def LinkFree (t : FileTree) : Prop := ∀ a target, t.get? a ≠ some (.link target)

theorem linkFree_of_nodes (h : ∀ kv ∈ t.nodes, kv.2.isLink = false) : LinkFree t := by
  intro a target hget
  unfold get? at hget
  split at hget
  · cases hget
  · obtain ⟨before, after, hnodes, -⟩ := List.lookup_eq_some_iff.mp hget
    have hlink := h (a, .link target) (by simp [hnodes])
    cases hlink

/-- The parts that lead somewhere. -/
def moving (ps : List String) : List String := (ps.filter (· ≠ "")).filter (· ≠ ".")

theorem moving_stay (hpart : part = "" ∨ part = ".") : moving (part :: rest) = moving rest := by
  rcases hpart with rfl | rfl <;> simp [moving]

theorem moving_cons (hempty : part ≠ "") (hhere : part ≠ ".") :
    moving (part :: rest) = part :: moving rest := by
  simp [moving, hempty, hhere]

theorem moving_blank (h : rest.all (· = "") = true) : moving rest = [] := by
  have hnone : rest.filter (· ≠ "") = [] := by
    rw [List.filter_eq_nil_iff]
    intro part hpart
    simpa using List.all_eq_true.mp h part hpart
  rw [moving, hnone]
  rfl

theorem place_locateFrom (hfree : LinkFree t) (hup : ".." ∉ ps)
    (h : (locateFrom t last onLink place ps).place? = some a) : a = place ++ moving ps := by
  induction ps generalizing place with
  | nil =>
    cases h
    exact (List.append_nil _).symm
  | cons part ps ih =>
    have hfault : ∀ f, locateFrom t last onLink place (part :: ps) ≠ .fault f := by
      intro f hf
      rw [hf] at h
      cases h
    obtain ⟨hpart_up, hps⟩ := List.ne_and_not_mem_of_not_mem_cons hup
    obtain ⟨hfolder, r, hstride, hr⟩ := exists_stride rfl hfault
    rw [← hr] at h
    cases hstride with
    | stay hpart => rw [moving_stay hpart, ih hps h]
    | up hpart => exact absurd hpart.symm hpart_up
    | vacant hpart hget hrest =>
      cases h
      rw [moving_cons hpart.nonempty hpart.not_here, moving_blank hrest]
    | atLink hpart hget hlast => exact absurd hget (hfree _ _)
    | through hpart hget hlast => exact absurd hget (hfree _ _)
    | down hpart hget hnode =>
      rw [moving_cons hpart.nonempty hpart.not_here, ih hps h, List.append_assoc]
      rfl

theorem place_locateWith (hfree : LinkFree t) (habsolute : Path.isAbsolute path = true)
    (hup : ".." ∉ Path.moves path) (h : (t.locateWith last here path).place? = some a) :
    a = Path.moves path := by
  have hparts : ".." ∉ Path.parts path := by
    intro hmem
    refine hup (List.mem_filter.mpr ⟨List.mem_filter.mpr ⟨hmem, by decide⟩, by decide⟩)
  have hmoves : Path.moves path = moving (Path.parts path) := rfl
  rw [locateWith] at h
  cases hfault : pathFault? path with
  | some f =>
    rw [hfault] at h
    cases h
  | none =>
    rw [hfault, habsolute] at h
    have hplace : a = [] ++ moving (Path.parts path) := place_locateFrom hfree hparts h
    rw [hmoves]
    exact hplace

/-- A tree after something other than links was put at places in a zone. -/
inductive Touched (zone : Address → Prop) (t : FileTree) : FileTree → Prop where
  | refl : Touched zone t t
  | put {t' : FileTree} {a : Address} {node : Node} (h : Touched zone t t') (ha : zone a)
      (hnode : ∀ target, node ≠ .link target) : Touched zone t (t'.put a node)

namespace Touched

theorem trans (h : Touched zone t t') (h' : Touched zone t' t'') : Touched zone t t'' := by
  induction h' with
  | refl => exact h
  | put _ ha hnode ih => exact ih.put ha hnode

theorem get? (h : Touched zone t t') (ha : ¬ zone a) : t'.get? a = t.get? a := by
  induction h with
  | refl => rfl
  | put _ hb _ ih =>
    rw [get?_put_of_ne, ih]
    rintro rfl
    exact ha hb

theorem names (h : Touched zone t t') (ha : ∀ name, ¬ zone (a ++ [name])) :
    t'.names a = t.names a := by
  induction h with
  | refl => rfl
  | put _ hb _ ih =>
    rw [names_put_of_ne, ih]
    rintro name rfl
    exact ha name hb

theorem linkFree (h : Touched zone t t') (ht : LinkFree t) : LinkFree t' := by
  induction h with
  | refl => exact ht
  | @put t' b node _ _ hnode ih =>
    intro a target hget
    by_cases hab : a = b
    · subst hab
      by_cases hroot : a = []
      · subst hroot
        cases hget
      · rw [get?_put hroot, if_pos rfl] at hget
        exact hnode target (Option.some.inj hget)
    · rw [get?_put_of_ne hab] at hget
      exact ih a target hget

end Touched

theorem touched_write (hzone : ∀ a, (t.locate here path).place? = some a → zone a)
    (h : t.write here path text = .ok t') : Touched zone t t' := by
  rw [write] at h
  cases hlocate : t.locate here path with
  | vacant parent name slash =>
    rw [hlocate] at h hzone
    cases slash with
    | true => cases h
    | false =>
      cases h
      exact Touched.refl.put (hzone _ rfl) (by simp)
  | fault f =>
    rw [hlocate] at h
    cases h
  | found a =>
    rw [hlocate] at h hzone
    dsimp only at h
    split at h
    · cases h
    · cases h
      exact .refl
    · cases h
      exact Touched.refl.put (hzone _ rfl) (by simp)

theorem touched_save (hzone : ∀ a, (t.locate here path).place? = some a → zone a) (text : String) :
    Touched zone t (t.save here path text).1 := by
  unfold save
  dsimp only
  split
  · exact .refl
  · next hwrite => exact touched_write hzone hwrite

theorem touched_ensureFolder (hzone : ∀ a, (t.locateWith true here path).place? = some a → zone a) :
    Touched zone t (t.ensureFolder here path).1 := by
  unfold ensureFolder makeFolder
  cases hlocate : t.locateWith true here path with
  | vacant parent name slash =>
    rw [hlocate] at hzone
    exact Touched.refl.put (hzone _ rfl) (by simp)
  | fault f =>
    dsimp only
    split <;> exact .refl
  | found a =>
    dsimp only
    split <;> exact .refl

/-- A path from the root that leads to a place in a zone without going up. -/
structure LeadsInto (zone : Address → Prop) (path : String) : Prop where
  absolute : Path.isAbsolute path = true
  not_up : ".." ∉ Path.moves path
  inside : zone (Path.moves path)

theorem LeadsInto.inside_of_place (h : LeadsInto zone path) (hfree : LinkFree t) (a : Address)
    (ha : (t.locateWith last here path).place? = some a) : zone a := by
  rw [place_locateWith hfree h.absolute h.not_up ha]
  exact h.inside

theorem LeadsInto.folderName (hzone : ∀ a b, b <+: a → zone a → zone b) (h : LeadsInto zone path) :
    LeadsInto zone (Path.folderName path) := by
  have hmoves : Path.moves (Path.folderName path) <+: Path.moves path := by
    unfold Path.moves
    rw [← Path.names_folderName path, List.filter_append]
    exact List.prefix_append _ _
  refine ⟨?_, fun hup => h.not_up (hmoves.subset hup), hzone _ _ hmoves h.inside⟩
  rw [Path.isAbsolute_folderName, h.absolute]

theorem LeadsInto.splitLast (hzone : ∀ a b, b <+: a → zone a → zone b) (h : LeadsInto zone path) :
    LeadsInto zone (splitLast path).1 := by
  unfold FileTree.splitLast
  split
  · exact (h.folderName hzone).folderName hzone
  · exact h.folderName hzone

theorem touched_makeFoldersIn (hzone : ∀ a b, b <+: a → zone a → zone b) (hfree : LinkFree t)
    (n : Nat) (h : LeadsInto zone path) : Touched zone t (t.makeFoldersIn here n path).1 := by
  induction n generalizing path with
  | zero => exact .refl
  | succ n ih =>
    rw [makeFoldersIn]
    dsimp only
    split
    · -- The folders above are made first, and then the last one in what has become of the tree.
      have hhead := ih (h.splitLast hzone)
      have hnext : ∀ t', Touched zone t t' → Touched zone t (t'.ensureFolder here path).1 :=
        fun t' ht' => ht'.trans (touched_ensureFolder fun a =>
          h.inside_of_place (ht'.linkFree hfree) a)
      split
      · next t' f where_ hmade =>
        rw [hmade] at hhead
        split
        · split
          · exact hhead
          · exact hnext t' hhead
        · exact hhead
      · next t' hmade =>
        rw [hmade] at hhead
        split
        · exact hhead
        · exact hnext t' hhead
    · exact touched_ensureFolder fun a => h.inside_of_place hfree a

/-- The places above and below a place. -/
def Around (o a : Address) : Prop := a <+: o ∨ o <+: a

theorem around_of_above {o : Address} (a b : Address) (hba : b <+: a) (h : Around o a) :
    Around o b := by
  rcases h with hao | hoa
  · exact .inl (hba.trans hao)
  · exact List.prefix_or_prefix_of_prefix hba hoa

theorem leadsInto_downward (houtput : Path.isAbsolute output = true)
    (hup : ".." ∉ Path.moves output) (h : Path.Downward output ms path) :
    LeadsInto (Around (Path.moves output)) path := by
  have hne : output ≠ "" := by
    rintro rfl
    cases houtput
  have hmoves := h.moves_eq
  refine ⟨?_, ?_, ?_⟩
  · rw [h.isAbsolute_eq hne, houtput]
  · rw [hmoves]
    exact Path.not_up_mem_append hup h.isName
  · rw [hmoves]
    exact .inr (List.prefix_append _ _)

/-- What is written below a folder stays around its place. -/
theorem WrittenBelow.touched (hfree : LinkFree t) (houtput : Path.isAbsolute output = true)
    (hup : ".." ∉ Path.moves output) (h : WrittenBelow here output t t') :
    Touched (Around (Path.moves output)) t t' := by
  induction h with
  | refl => exact .refl
  | folders _ hpath ih =>
    have hinto := leadsInto_downward houtput hup hpath
    exact ih.trans (touched_makeFoldersIn around_of_above (ih.linkFree hfree) _ hinto)
  | file text _ hpath ih =>
    have hinto := leadsInto_downward houtput hup hpath
    exact ih.trans (touched_save (fun a => hinto.inside_of_place (ih.linkFree hfree) a) text)

/-- A path leads to the same place where trees agree on all places on its way. -/
theorem locateFrom_congr (hfree : LinkFree t) (hup : ".." ∉ ps)
    (h : ∀ b, b <+: place ++ moving ps → t'.get? b = t.get? b) :
    locateFrom t' last onLink' place ps = locateFrom t last onLink place ps := by
  induction ps generalizing place with
  | nil => rfl
  | cons part ps ih =>
    obtain ⟨hpart_up, hps⟩ := List.ne_and_not_mem_of_not_mem_cons hup
    have hplace := h place (List.prefix_append _ _)
    by_cases hfolder : t.get? place = some .folder
    · by_cases hstay : part = "" ∨ part = "."
      · rw [moving_stay hstay] at h
        rw [locateFrom_stay (hplace.trans hfolder) hstay, locateFrom_stay hfolder hstay, ih hps h]
      · rw [not_or] at hstay
        rw [moving_cons hstay.1 hstay.2, List.append_cons] at h
        have hnext := h (place ++ [part]) (List.prefix_append _ _)
        by_cases hfits : nameLimit < part.utf8ByteSize
        · simp [locateFrom, hplace, hfolder, hstay, Ne.symm hpart_up, hfits]
        · have hpass : Passable part := ⟨hstay.1, hstay.2, Ne.symm hpart_up, hfits⟩
          rw [locateFrom_passable (hplace.trans hfolder) hpass, locateFrom_passable hfolder hpass,
            hnext]
          cases hget : t.get? (place ++ [part]) with
          | none => rfl
          | some node =>
            cases node with
            | link target => exact absurd hget (hfree _ _)
            | file text => exact ih hps h
            | folder => exact ih hps h
            | special => exact ih hps h
    · simp [locateFrom, hplace, hfolder]

theorem locateWith_congr (hfree : LinkFree t) (habsolute : Path.isAbsolute path = true)
    (hup : ".." ∉ Path.moves path) (h : ∀ b, b <+: Path.moves path → t'.get? b = t.get? b) :
    t'.locateWith last here path = t.locateWith last here path := by
  have hparts : ".." ∉ Path.parts path := by
    intro hmem
    exact hup (List.mem_filter.mpr ⟨List.mem_filter.mpr ⟨hmem, by decide⟩, by decide⟩)
  unfold locateWith
  cases pathFault? path with
  | some f => rfl
  | none =>
    rw [habsolute]
    exact locateFrom_congr hfree hparts h

/-- Everything above a folder is one. -/
theorem get?_of_prefix (ht : Rooted t) (ha : t.get? a = some .folder) (hba : b <+: a) :
    t.get? b = some .folder := by
  obtain ⟨rest, rfl⟩ := hba
  induction rest using List.reverseRecOn with
  | nil => simpa using ha
  | append_singleton rest name ih =>
    rw [← List.append_assoc] at ha
    exact ih (ht (b ++ rest) name (by rw [ha]; rfl))

/-- Where a path below a root leads, if it leads anywhere. -/
theorem place_below (hfree : LinkFree t) (hroot : Path.isAbsolute root = true)
    (hup : ".." ∉ Path.moves root) (hns : ∀ name ∈ ns, Path.IsName name)
    (h : t.locateWith last here (Path.below root ns) = .found a) : a = Path.moves root ++ ns := by
  have hplace : (t.locateWith last here (Path.below root ns)).place? = some a := by
    rw [h]
    rfl
  have hmoves := Path.moves_below root hns
  have hnot_up : ".." ∉ Path.moves (Path.below root ns) := by
    rw [hmoves]
    exact Path.not_up_mem_append hup hns
  rw [place_locateWith hfree (Path.isAbsolute_below hroot ns) hnot_up hplace, hmoves]

theorem locateWith_below_congr (hfree : LinkFree t) (hroot : Path.isAbsolute root = true)
    (hup : ".." ∉ Path.moves root) (hns : ∀ name ∈ ns, Path.IsName name)
    (h : ∀ b, b <+: Path.moves root ++ ns → t'.get? b = t.get? b) :
    t'.locateWith last here (Path.below root ns) = t.locateWith last here (Path.below root ns) := by
  have hmoves := Path.moves_below root hns
  refine locateWith_congr hfree (Path.isAbsolute_below hroot ns) ?_ ?_
  · rw [hmoves]
    exact Path.not_up_mem_append hup hns
  · rw [hmoves]
    exact h

/-- A tree whose root is neither above nor below a folder stays as it is when something is written
there. -/
theorem sameBelow_of_writtenBelow (ht : Orderly t here) (hfree : LinkFree t)
    (houtput : Path.isAbsolute output = true) (hup : ".." ∉ Path.moves output)
    (hroot : Path.isAbsolute root = true) (hup_root : ".." ∉ Path.moves root)
    (hfolder : t.get? (Path.moves root) = some .folder)
    (hapart : ¬ Around (Path.moves output) (Path.moves root))
    (h : WrittenBelow here output t t') : SameBelow here root t t' := by
  have htouched := h.touched hfree houtput hup
  have hext := (h.grown ht).extends'
  have hnot_around : ∀ ns, ¬ Around (Path.moves output) (Path.moves root ++ ns) :=
    fun ns haround => hapart (around_of_above _ _ (List.prefix_append _ ns) haround)
  -- No place below the root is touched, and the places above it are folders before and after.
  have hbelow : ∀ ns, t'.get? (Path.moves root ++ ns) = t.get? (Path.moves root ++ ns) :=
    fun ns => htouched.get? (hnot_around ns)
  have hway : ∀ ns b, b <+: Path.moves root ++ ns → t'.get? b = t.get? b := by
    intro ns b hb
    rcases List.prefix_or_prefix_of_prefix hb (List.prefix_append (Path.moves root) ns)
      with habove | ⟨more, rfl⟩
    · have hget := get?_of_prefix ht.rooted hfolder habove
      rw [hget, hext.kept hget (by simp)]
    · exact hbelow more
  refine ⟨fun ns hns => ?_, fun ns hns => ?_, fun ns hns => ?_⟩
  · unfold node? locate
    rw [locateWith_below_congr hfree hroot hup_root hns (hway ns)]
    split
    · next a ha => rw [place_below hfree hroot hup_root hns ha, hbelow]
    · rfl
  · have hnames : t'.names (Path.moves root ++ ns) = t.names (Path.moves root ++ ns) := by
      refine htouched.names fun name haround => ?_
      rw [List.append_assoc] at haround
      exact hnot_around _ haround
    unfold namesAt? locate
    rw [locateWith_below_congr hfree hroot hup_root hns (hway ns)]
    split
    · next a ha => rw [place_below hfree hroot hup_root hns ha, hbelow, hnames]
    · rfl
  · unfold isLink
    rw [locateWith_below_congr hfree hroot hup_root hns (hway ns)]
    split
    · next a ha => rw [place_below hfree hroot hup_root hns ha, hbelow]
    · rfl

end FileTree

/-- In a file tree without links, a folder that is neither above nor below a tree is outside of
it. -/
theorem World.outputOutside_of_linkFree {w : World} {output root : String}
    (hw : w.files.Orderly w.place) (hfree : w.files.LinkFree)
    (houtput : Path.isAbsolute output = true) (hup : ".." ∉ Path.moves output)
    (hroot : Path.isAbsolute root = true) (hup_root : ".." ∉ Path.moves root)
    (hfolder : w.files.get? (Path.moves root) = some .folder)
    (hapart : ¬ FileTree.Around (Path.moves output) (Path.moves root)) :
    w.OutputOutside output root := fun _ h =>
  FileTree.sameBelow_of_writtenBelow hw hfree houtput hup hroot hup_root hfolder hapart h

end CMakeDocs
