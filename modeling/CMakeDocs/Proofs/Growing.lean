import CMakeDocs.Proofs.Locating

/-!
# Trees that grow

Making folders and writing files takes nothing away from a tree. So what a path leads to stays in
its place, and a folder stays a folder. What is new has a name and a place of its own.
-/
namespace CMakeDocs.FileTree

variable {t t' : FileTree} {last : Bool} {onLink onLink' : Address → List String → Located}
  {place a here : Address} {part path text : String} {rest ps ns : List String}

variable {node : Node} {parent : Address} {name : String} {slash : Bool}

theorem lookup_replace (nodes : List (Address × Node)) (place : Address) (node : Node) :
    (nodes.map fun kv => if kv.1 = place then (place, node) else kv).lookup a =
      if a = place then (nodes.lookup place).map (fun _ => node) else nodes.lookup a := by
  induction nodes with
  | nil => simp
  | cons kv nodes ih =>
    obtain ⟨key, value⟩ := kv
    rw [List.map_cons]
    by_cases hkey : key = place
    · subst hkey
      rw [if_pos rfl, List.lookup_cons, ih, List.lookup_cons_self, List.lookup_cons]
      by_cases ha : a = key
      · simp [ha]
      · rw [beq_false_of_ne ha, if_neg ha, if_neg ha]
    · rw [if_neg hkey, List.lookup_cons, ih, List.lookup_cons, List.lookup_cons]
      by_cases ha : a = place
      · subst ha
        rw [beq_false_of_ne (Ne.symm hkey), if_pos rfl]
      · rw [if_neg ha, if_neg ha]

theorem get?_put (hplace : place ≠ []) :
    (t.put place node).get? a = if a = place then some node else t.get? a := by
  by_cases hroot : a = []
  · rw [get?, if_pos hroot, if_neg (by rw [hroot]; exact Ne.symm hplace), get?, if_pos hroot]
  rw [get?, if_neg hroot, get?, if_neg hroot, put]
  by_cases hsome : (t.nodes.lookup place).isSome = true
  · rw [if_pos hsome, lookup_replace]
    obtain ⟨old, hold⟩ := Option.isSome_iff_exists.mp hsome
    rw [hold, Option.map_some]
  · rw [if_neg hsome, List.lookup_append]
    have hnone : t.nodes.lookup place = none := Option.not_isSome_iff_eq_none.mp hsome
    by_cases ha : a = place
    · simp [ha, hnone]
    · have hbeq : (a == place) = false := beq_false_of_ne ha
      simp [ha, List.lookup_cons, hbeq]

theorem get?_put_of_ne (h : a ≠ place) : (t.put place node).get? a = t.get? a := by
  by_cases hplace : place = []
  · -- The root cannot be replaced, whatever the list of nodes says.
    by_cases hsome : (t.nodes.lookup place).isSome = true
    · rw [put, if_pos hsome, get?, lookup_replace, if_neg h, get?]
    · have hbeq : (a == place) = false := beq_false_of_ne h
      rw [put, if_neg hsome, get?, List.lookup_append, List.lookup_cons, hbeq, get?]
      simp
  · rw [get?_put hplace, if_neg h]

theorem names_put_of_ne {folder : Address} (h : ∀ name, place ≠ folder ++ [name]) :
    (t.put place node).names folder = t.names folder := by
  have hname : nameIn? folder place = none := by
    unfold nameIn?
    split
    · next name _ => rw [if_neg (h name)]
    · rfl
  unfold names put
  split
  · rw [List.filterMap_map]
    congr 1
    funext kv
    dsimp only [Function.comp]
    split
    · next hkey => rw [hkey]
    · rfl
  · rw [List.filterMap_append, List.filterMap_cons, List.filterMap_nil, hname, List.append_nil]

/-- Nothing has been taken away from a tree; only the texts of files may be others. -/
structure Extends (t t' : FileTree) : Prop where
  kept : ∀ {a node}, t.get? a = some node → (∀ text, node ≠ .file text) → t'.get? a = some node
  files : ∀ {a text}, t.get? a = some (.file text) → ∃ text', t'.get? a = some (.file text')

theorem Extends.refl (t : FileTree) : Extends t t := ⟨fun h _ => h, fun h => ⟨_, h⟩⟩

theorem Extends.trans {t'' : FileTree} (h : Extends t t') (h' : Extends t' t'') :
    Extends t t'' where
  kept hget hnode := h'.kept (h.kept hget hnode) hnode
  files hget := by
    obtain ⟨text, htext⟩ := h.files hget
    exact h'.files htext

/-- Everything stands in a folder. -/
def Rooted (t : FileTree) : Prop :=
  ∀ a name, (t.get? (a ++ [name])).isSome = true → t.get? a = some .folder

theorem extends_put_vacant (h : t.get? place = none) : Extends t (t.put place node) where
  kept hget _ := by
    rw [get?_put_of_ne]
    · exact hget
    · rintro rfl
      rw [h] at hget
      cases hget
  files hget := by
    refine ⟨_, (get?_put_of_ne ?_).trans hget⟩
    rintro rfl
    rw [h] at hget
    cases hget

theorem extends_put_file {old text : String} (h : t.get? place = some (.file old)) :
    Extends t (t.put place (.file text)) where
  kept hget hnode := by
    rw [get?_put_of_ne]
    · exact hget
    · rintro rfl
      rw [h] at hget
      exact absurd (Option.some.inj hget).symm (hnode old)
  files {a _} hget := by
    have hplace : place ≠ [] := by
      rintro rfl
      cases h
    by_cases ha : a = place
    · exact ⟨text, by rw [get?_put hplace, if_pos ha]⟩
    · exact ⟨_, (get?_put_of_ne ha).trans hget⟩

theorem rooted_put_vacant (ht : Rooted t) (hparent : t.get? parent = some .folder)
    (hget : t.get? (parent ++ [name]) = none) : Rooted (t.put (parent ++ [name]) node) := by
  intro a other hsome
  have hplace : parent ++ [name] ≠ [] := by simp
  by_cases hsame : a ++ [other] = parent ++ [name]
  · obtain ⟨rfl, -⟩ := List.append_inj' hsame rfl
    rw [get?_put_of_ne (by simp)]
    exact hparent
  · rw [get?_put_of_ne hsame] at hsome
    have hfolder := ht a other hsome
    rw [get?_put_of_ne]
    · exact hfolder
    · rintro rfl
      rw [hget] at hfolder
      cases hfolder

theorem rooted_put_file {old text : String} (ht : Rooted t) (h : t.get? place = some (.file old)) :
    Rooted (t.put place (.file text)) := by
  intro a name hsome
  have hsome' : (t.get? (a ++ [name])).isSome = true := by
    by_cases hsame : a ++ [name] = place
    · rw [hsame, h]
      rfl
    · rwa [get?_put_of_ne hsame] at hsome
  have hfolder := ht a name hsome'
  rw [get?_put_of_ne]
  · exact hfolder
  · rintro rfl
    rw [h] at hfolder
    cases hfolder

/-- What a path leads to stays in its place. -/
theorem locateFrom_extends (hext : Extends t t')
    (hlink : ∀ start ps, onLink start ps = .found a → onLink' start ps = .found a)
    (h : locateFrom t last onLink place ps = .found a) :
    locateFrom t' last onLink' place ps = .found a := by
  induction ps generalizing place with
  | nil => exact h
  | cons part ps ih =>
    obtain ⟨hplace, r, hstride, hr⟩ := exists_stride h (by simp)
    have hplace' := hext.kept hplace (by simp)
    cases hstride with
    | stay hpart => rw [locateFrom_stay hplace' hpart, ih hr]
    | up hpart => rw [hpart, locateFrom_up hplace', ih hr]
    | vacant => cases hr
    | atLink hpart hget hlast =>
      rw [locateFrom_passable hplace' hpart, hext.kept hget (by simp)]
      exact (if_pos hlast).trans hr
    | through hpart hget hlast =>
      rw [locateFrom_passable hplace' hpart, hext.kept hget (by simp)]
      dsimp only
      rw [if_neg (by simp [hlast])]
      exact hlink _ _ hr
    | @down node hpart hget hnode =>
      rw [locateFrom_passable hplace' hpart]
      cases node with
      | file text =>
        obtain ⟨text', hget'⟩ := hext.files hget
        rw [hget']
        exact ih hr
      | folder =>
        rw [hext.kept hget (by simp)]
        exact ih hr
      | special =>
        rw [hext.kept hget (by simp)]
        exact ih hr
      | link target => exact absurd rfl (hnode target)

theorem locateThrough_extends (hext : Extends t t') {n : Nat}
    (h : locateThrough t last n place ps = .found a) :
    locateThrough t' last n place ps = .found a := by
  induction n generalizing place ps with
  | zero => exact locateFrom_extends hext (fun _ _ hfault => by cases hfault) h
  | succ n ih => exact locateFrom_extends hext (fun _ _ hfound => ih hfound) h

/-- A path that leads to a folder does so for good. -/
theorem isFolder_extends {folder : Address} {path : String} (hext : Extends t t')
    (h : t.isFolder folder path = true) : t'.isFolder folder path = true := by
  have hnode : t.node? folder path = some .folder := of_decide_eq_true h
  refine decide_eq_true ?_
  cases hlocate : t.locate folder path with
  | vacant parent name slash => simp [node?, hlocate] at hnode
  | fault f => simp [node?, hlocate] at hnode
  | found a =>
    have hget : t.get? a = some .folder := by simpa [node?, hlocate] using hnode
    have hlocate' : t'.locate folder path = .found a := by
      rw [locate, locateWith] at hlocate ⊢
      cases hfault : pathFault? path with
      | some f => simp [hfault] at hlocate
      | none =>
        rw [hfault] at hlocate
        exact locateThrough_extends hext hlocate
    rw [node?, hlocate']
    exact hext.kept hget (by simp)

/-- A place where something other than a link stands. -/
def Settled (t : FileTree) (place : Address) : Prop :=
  ∃ node, t.get? place = some node ∧ ∀ target, node ≠ .link target

/-- With all links followed, a path does not end at one. -/
theorem locateFrom_settled (ht : Rooted t)
    (hlink : ∀ start ps, Settled t start → onLink start ps = .found a → Settled t a)
    (hplace : Settled t place) (h : locateFrom t false onLink place ps = .found a) :
    Settled t a := by
  induction ps generalizing place with
  | nil =>
    cases h
    exact hplace
  | cons part ps ih =>
    obtain ⟨hfolder, r, hstride, hr⟩ := exists_stride h (by simp)
    cases hstride with
    | stay hpart => exact ih hplace hr
    | up hpart =>
      refine ih ?_ hr
      rcases List.eq_nil_or_concat place with rfl | ⟨before, name, rfl⟩
      · exact hplace
      · refine ⟨.folder, ?_, by simp⟩
        rw [List.concat_eq_append, List.dropLast_concat]
        rw [List.concat_eq_append] at hfolder
        exact ht before name (by simp [hfolder])
    | vacant => cases hr
    | atLink hpart hget hlast => simp at hlast
    | @through target hpart hget hlast =>
      refine hlink _ _ ?_ hr
      cases Path.isAbsolute target with
      | true => exact ⟨.folder, rfl, by simp⟩
      | false => exact hplace
    | down hpart hget hnode => exact ih ⟨_, hget, hnode⟩ hr

theorem locateThrough_settled (ht : Rooted t) {n : Nat} (hplace : Settled t place)
    (h : locateThrough t false n place ps = .found a) : Settled t a := by
  induction n generalizing place ps with
  | zero => exact locateFrom_settled ht (fun _ _ _ hfault => by cases hfault) hplace h
  | succ n ih => exact locateFrom_settled ht (fun _ _ hstart hfound => ih hstart hfound) hplace h

/-- A name for something new: nothing is there yet, and there is a folder for it. -/
structure Vacant (t : FileTree) (parent : Address) (name : String) : Prop where
  folder : t.get? parent = some .folder
  nothing : t.get? (parent ++ [name]) = none
  isName : Path.IsName name

theorem locateFrom_vacant (hps : ∀ part ∈ ps, '/' ∉ part.toList)
    (hlink : ∀ start ps, (∀ part ∈ ps, '/' ∉ part.toList) →
      onLink start ps = .vacant parent name slash → Vacant t parent name)
    (h : locateFrom t last onLink place ps = .vacant parent name slash) :
    Vacant t parent name := by
  induction ps generalizing place with
  | nil => cases h
  | cons part ps ih =>
    obtain ⟨hfolder, r, hstride, hr⟩ := exists_stride h (by simp)
    obtain ⟨hslash, hps⟩ := List.forall_mem_cons.mp hps
    cases hstride with
    | stay hpart => exact ih hps hr
    | up hpart => exact ih hps hr
    | vacant hpart hget hrest =>
      cases hr
      exact ⟨hfolder, hget, hpart.nonempty, hpart.not_here, hpart.not_up, hslash⟩
    | atLink => cases hr
    | through hpart hget hlast =>
      refine hlink _ _ (List.forall_mem_append.mpr ⟨?_, hps⟩) hr
      exact fun _ hpart => Path.no_slash_of_mem_parts hpart
    | down hpart hget hnode => exact ih hps hr

theorem locateThrough_vacant {n : Nat} (hps : ∀ part ∈ ps, '/' ∉ part.toList)
    (h : locateThrough t last n place ps = .vacant parent name slash) :
    Vacant t parent name := by
  induction n generalizing place ps with
  | zero => exact locateFrom_vacant hps (fun _ _ _ hfault => by cases hfault) h
  | succ n ih => exact locateFrom_vacant hps (fun _ _ hps hvacant => ih hps hvacant) h

/-- A tree in which everything stands in a folder, and the current place is a folder too. -/
structure Orderly (t : FileTree) (here : Address) : Prop where
  rooted : Rooted t
  here_folder : t.get? here = some .folder

/-- Everything in a tree has a name. -/
def Named (t : FileTree) : Prop := ∀ kv ∈ t.nodes, ∀ name ∈ kv.1, Path.IsName name

/-- Everything in a tree has a place of its own. -/
def Distinct (t : FileTree) : Prop := (t.nodes.map Prod.fst).Nodup

/-- What a tree has become without losing anything. -/
structure Grown (here : Address) (t t' : FileTree) : Prop where
  orderly : Orderly t' here
  extends' : Extends t t'
  named : Named t → Named t'
  distinct : Distinct t → Distinct t'

theorem Grown.refl (ht : Orderly t here) : Grown here t t := ⟨ht, .refl t, id, id⟩

theorem Grown.trans {t'' : FileTree} (h : Grown here t t') (h' : Grown here t' t'') :
    Grown here t t'' where
  orderly := h'.orderly
  extends' := h.extends'.trans h'.extends'
  named ht := h'.named (h.named ht)
  distinct ht := h'.distinct (h.distinct ht)

theorem named_put (ht : Named t) (hplace : ∀ name ∈ place, Path.IsName name) :
    Named (t.put place node) := by
  intro kv hkv
  rw [put] at hkv
  split at hkv
  · obtain ⟨old, hold, rfl⟩ := List.mem_map.mp hkv
    split
    · exact hplace
    · exact ht old hold
  · rcases List.mem_append.mp hkv with hold | hnew
    · exact ht kv hold
    · rw [List.mem_singleton.mp hnew]
      exact hplace

theorem distinct_put (ht : Distinct t) (place : Address) (node : Node) :
    Distinct (t.put place node) := by
  rw [Distinct, put]
  split
  · have hkeys : (t.nodes.map fun kv => if kv.1 = place then (place, node) else kv).map Prod.fst =
        t.nodes.map Prod.fst := by
      rw [List.map_map]
      refine List.map_congr_left fun kv _ => ?_
      rw [Function.comp_apply]
      split
      · next hkey => exact hkey.symm
      · rfl
    rw [hkeys]
    exact ht
  · next hnone =>
    rw [List.map_append]
    refine ht.append (List.nodup_singleton place) (List.disjoint_singleton.mpr fun hmem => ?_)
    obtain ⟨kv, hkv, rfl⟩ := List.mem_map.mp hmem
    exact hnone (List.lookup_isSome_iff.mpr ⟨kv, hkv, BEq.rfl⟩)

/-- The place of something in a tree is made of names. -/
theorem isName_of_get? (ht : Named t) (h : (t.get? a).isSome) : ∀ name ∈ a, Path.IsName name := by
  by_cases ha : a = []
  · simp [ha]
  · obtain ⟨kv, hkv, rfl⟩ := List.mem_map.mp (mem_of_isSome_get? ha h)
    exact ht kv hkv

theorem grown_put_vacant (ht : Orderly t here) (h : Vacant t parent name) :
    Grown here t (t.put (parent ++ [name]) node) := by
  have hext : Extends t (t.put (parent ++ [name]) node) := extends_put_vacant h.nothing
  refine ⟨⟨rooted_put_vacant ht.rooted h.folder h.nothing, hext.kept ht.here_folder (by simp)⟩,
    hext, fun hnamed => ?_, fun hdistinct => distinct_put hdistinct _ node⟩
  exact named_put hnamed
    (Path.isName_concat (isName_of_get? hnamed (by rw [h.folder]; rfl)) h.isName)

theorem grown_put_file (ht : Orderly t here) {old : String} (h : t.get? a = some (.file old)) :
    Grown here t (t.put a (.file text)) := by
  have hext : Extends t (t.put a (.file text)) := extends_put_file h
  refine ⟨⟨rooted_put_file ht.rooted h, hext.kept ht.here_folder (by simp)⟩, hext,
    fun hnamed => ?_, fun hdistinct => distinct_put hdistinct a _⟩
  exact named_put hnamed (isName_of_get? hnamed (by rw [h]; rfl))

theorem locateWith_vacant (h : t.locateWith last here path = .vacant parent name slash) :
    Vacant t parent name := by
  rw [locateWith] at h
  cases hfault : pathFault? path with
  | some f => simp [hfault] at h
  | none =>
    rw [hfault] at h
    exact locateThrough_vacant (fun _ hpart => Path.no_slash_of_mem_parts hpart) h

theorem locate_settled (ht : Orderly t here) (h : t.locate here path = .found a) :
    Settled t a := by
  rw [locate, locateWith] at h
  cases hfault : pathFault? path with
  | some f => simp [hfault] at h
  | none =>
    rw [hfault] at h
    refine locateThrough_settled ht.rooted ?_ h
    cases Path.isAbsolute path with
    | true => exact ⟨.folder, rfl, by simp⟩
    | false => exact ⟨.folder, ht.here_folder, by simp⟩

theorem write_grown (ht : Orderly t here) (h : t.write here path text = .ok t') :
    Grown here t t' := by
  rw [write] at h
  cases hlocate : t.locate here path with
  | vacant parent name slash =>
    rw [hlocate] at h
    cases slash with
    | true => cases h
    | false =>
      cases h
      exact grown_put_vacant ht (locateWith_vacant hlocate)
  | fault f =>
    rw [hlocate] at h
    cases h
  | found a =>
    rw [hlocate] at h
    obtain ⟨node, hget, hnode⟩ := locate_settled ht hlocate
    dsimp only at h
    rw [hget] at h
    cases node with
    | folder => cases h
    | link target => exact absurd rfl (hnode target)
    | special =>
      cases h
      exact .refl ht
    | file old =>
      cases h
      exact grown_put_file ht hget

theorem save_grown (ht : Orderly t here) (path text : String) :
    Grown here t (t.save here path text).1 := by
  unfold save
  dsimp only
  split
  · exact .refl ht
  · next hwrite => exact write_grown ht hwrite

theorem ensureFolder_grown (ht : Orderly t here) (path : String) :
    Grown here t (t.ensureFolder here path).1 := by
  unfold ensureFolder makeFolder
  cases hlocate : t.locateWith true here path with
  | vacant parent name slash =>
    exact grown_put_vacant ht (locateWith_vacant hlocate)
  | fault f =>
    dsimp only
    split <;> exact .refl ht
  | found a =>
    dsimp only
    split <;> exact .refl ht

theorem makeFoldersIn_grown (ht : Orderly t here) (n : Nat) (path : String) :
    Grown here t (t.makeFoldersIn here n path).1 := by
  induction n generalizing path with
  | zero => exact .refl ht
  | succ n ih =>
    have hnext := fun p => (ih p).trans (ensureFolder_grown (ih p).orderly path)
    rw [makeFoldersIn]
    dsimp only
    split
    · have hhead := ih (splitLast path).1
      have hpath := hnext (splitLast path).1
      split
      · next t' f where_ hmade =>
        rw [hmade] at hhead hpath
        split
        · split
          · exact hhead
          · exact hpath
        · exact hhead
      · next t' hmade =>
        rw [hmade] at hhead hpath
        split
        · exact hhead
        · exact hpath
    · exact ensureFolder_grown ht path

theorem makeFolders_grown (ht : Orderly t here) (path : String) :
    Grown here t (t.makeFolders here path).1 := makeFoldersIn_grown ht _ path

end CMakeDocs.FileTree
