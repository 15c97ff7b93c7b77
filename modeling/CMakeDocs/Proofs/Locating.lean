import CMakeDocs.Proofs.Paths
import Mathlib.Data.List.Perm.Subperm
import Mathlib.Data.List.Nodup
import Mathlib.Data.List.Range

/-!
# Where paths lead

A path is followed part by part. Each name leads one level down or through a link, and there are
only so many levels and so many links. So a path that leads somewhere has a limited number of names
at its end.
-/
namespace CMakeDocs.FileTree

variable {t t' : FileTree} {last : Bool} {onLink onLink' : Address → List String → Located}
  {place a : Address} {part : String} {rest ps ns : List String}

/-- A part that leads on to something of that name. -/
structure Passable (part : String) : Prop where
  nonempty : part ≠ ""
  not_here : part ≠ "."
  not_up : part ≠ ".."
  fits : ¬ nameLimit < part.utf8ByteSize

/-- What becomes of a path by its first part, if that is no fault. -/
inductive Stride (t : FileTree) (last : Bool) (onLink : Address → List String → Located)
    (place : Address) (part : String) (rest : List String) : Located → Prop where
  | stay (hpart : part = "" ∨ part = ".") :
      Stride t last onLink place part rest (locateFrom t last onLink place rest)
  | up (hpart : part = "..") :
      Stride t last onLink place part rest (locateFrom t last onLink place.dropLast rest)
  | vacant (hpart : Passable part) (hget : t.get? (place ++ [part]) = none)
      (hrest : rest.all (· = "") = true) :
      Stride t last onLink place part rest (.vacant place part (!rest.isEmpty))
  | atLink {target : String} (hpart : Passable part)
      (hget : t.get? (place ++ [part]) = some (.link target))
      (hlast : (last && rest.isEmpty) = true) :
      Stride t last onLink place part rest (.found (place ++ [part]))
  | through {target : String} (hpart : Passable part)
      (hget : t.get? (place ++ [part]) = some (.link target))
      (hlast : (last && rest.isEmpty) = false) :
      Stride t last onLink place part rest
        (onLink (if Path.isAbsolute target then [] else place) (Path.parts target ++ rest))
  | down {node : Node} (hpart : Passable part) (hget : t.get? (place ++ [part]) = some node)
      (hnode : ∀ target, node ≠ .link target) :
      Stride t last onLink place part rest (locateFrom t last onLink (place ++ [part]) rest)

theorem locateFrom_stay (hplace : t.get? place = some .folder) (hpart : part = "" ∨ part = ".") :
    locateFrom t last onLink place (part :: rest) = locateFrom t last onLink place rest := by
  rw [locateFrom, if_neg (by simp [hplace]), if_pos (by simpa using hpart)]

theorem locateFrom_up (hplace : t.get? place = some .folder) :
    locateFrom t last onLink place (".." :: rest) =
      locateFrom t last onLink place.dropLast rest := by
  rw [locateFrom, if_neg (by simp [hplace]), if_neg (by simp), if_pos rfl]

theorem locateFrom_passable (hplace : t.get? place = some .folder) (hpart : Passable part) :
    locateFrom t last onLink place (part :: rest) =
      match t.get? (place ++ [part]) with
      | none => if rest.all (· = "") then .vacant place part (!rest.isEmpty) else .fault .notFound
      | some (.link target) =>
        if last && rest.isEmpty then .found (place ++ [part])
        else onLink (if Path.isAbsolute target then [] else place) (Path.parts target ++ rest)
      | some _ => locateFrom t last onLink (place ++ [part]) rest := by
  have hskip : ¬ (decide (part = "") || decide (part = ".")) = true := by
    simp [hpart.nonempty, hpart.not_here]
  rw [locateFrom, if_neg (by simp [hplace])]
  exact (if_neg hskip).trans ((if_neg hpart.not_up).trans (if_neg hpart.fits))

/-- A path that is no fault is followed from a folder. The outcome of the stride is kept apart, so
that its cases can be told. -/
theorem exists_stride {r : Located} (h : locateFrom t last onLink place (part :: rest) = r)
    (hr : ∀ f, r ≠ .fault f) :
    t.get? place = some .folder ∧ ∃ r', Stride t last onLink place part rest r' ∧ r' = r := by
  have hplace : t.get? place = some .folder := by
    by_contra hnot
    exact hr .notFolder (h.symm.trans (by rw [locateFrom, if_pos hnot]))
  refine ⟨hplace, _, ?_, h⟩
  by_cases hstay : part = "" ∨ part = "."
  · rw [locateFrom_stay hplace hstay]
    exact .stay hstay
  by_cases hup : part = ".."
  · subst hup
    rw [locateFrom_up hplace]
    exact .up rfl
  have hfits : ¬ nameLimit < part.utf8ByteSize := by
    intro hlong
    refine hr .nameTooLong (h.symm.trans ?_)
    rw [locateFrom, if_neg (by simp [hplace]), if_neg (by simpa using hstay), if_neg hup,
      if_pos hlong]
  have hpart : Passable part := ⟨fun h => hstay (.inl h), fun h => hstay (.inr h), hup, hfits⟩
  rw [locateFrom_passable hplace hpart] at h ⊢
  cases hget : t.get? (place ++ [part]) with
  | none =>
    rw [hget] at h
    dsimp only at h ⊢
    by_cases hrest : rest.all (· = "") = true
    · rw [if_pos hrest]
      exact .vacant hpart hget hrest
    · exact absurd (h.symm.trans (if_neg hrest)) (hr .notFound)
  | some node =>
    cases node with
    | link target =>
      dsimp only
      by_cases hlast : (last && rest.isEmpty) = true
      · rw [if_pos hlast]
        exact .atLink hpart hget hlast
      · rw [if_neg hlast]
        exact .through hpart hget (Bool.eq_false_iff.mpr hlast)
    | file text => exact .down hpart hget (by simp)
    | folder => exact .down hpart hget (by simp)
    | special => exact .down hpart hget (by simp)

/-- A place that everything on the way to exists. -/
def Standing (t : FileTree) (place : Address) : Prop :=
  ∀ n < place.length, (t.get? (place.take (n + 1))).isSome

theorem standing_nil : Standing t [] := by
  intro n hn
  simp at hn

theorem Standing.concat (h : Standing t place) (hget : (t.get? (place ++ [part])).isSome) :
    Standing t (place ++ [part]) := by
  intro n hn
  rw [List.length_append, List.length_singleton] at hn
  by_cases hlast : n = place.length
  · rw [hlast, List.take_of_length_le (by simp)]
    exact hget
  · have hlt : n < place.length := by omega
    rw [List.take_append_of_le_length hlt]
    exact h n hlt

theorem Standing.dropLast (h : Standing t place) : Standing t place.dropLast := by
  intro n hn
  rw [List.length_dropLast] at hn
  rw [List.dropLast_eq_take, List.take_take, Nat.min_eq_left (by omega)]
  exact h n (by omega)

/-- Behind a link the way goes on from where it stands or from the root. -/
theorem Standing.start (h : Standing t place) (absolute : Bool) :
    Standing t (if absolute = true then [] else place) := by
  cases absolute with
  | true => exact standing_nil
  | false => exact h

theorem mem_of_isSome_get? (hne : a ≠ []) (h : (t.get? a).isSome) : a ∈ t.nodes.map Prod.fst := by
  rw [get?, if_neg hne, List.lookup_isSome_iff] at h
  obtain ⟨kv, hkv, heq⟩ := h
  exact List.mem_map.mpr ⟨kv, hkv, (eq_of_beq heq).symm⟩

/-- The places on the way are all different. -/
theorem Standing.length_le (h : Standing t place) : place.length ≤ t.nodes.length := by
  let above := (List.range place.length).map fun n => place.take (n + 1)
  have hnodup : above.Nodup := by
    refine List.Nodup.map_on ?_ List.nodup_range
    intro m hm n hn htake
    rw [List.mem_range] at hm hn
    rw [List.take_eq_take_iff] at htake
    omega
  have hsub : above ⊆ t.nodes.map Prod.fst := by
    intro b hb
    obtain ⟨n, hn, rfl⟩ := List.mem_map.mp hb
    rw [List.mem_range] at hn
    refine mem_of_isSome_get? ?_ (h n hn)
    rw [Ne, List.take_eq_nil_iff]
    rintro (h0 | rfl)
    · omega
    · simp at hn
  have hle := (List.subperm_of_subset hnodup hsub).length_le
  simpa [above] using hle

/-- Names alone: each of them leads down until a link is met. -/
theorem locateFrom_names_bound (bound : Nat)
    (hlink : ∀ start ps ns, Standing t start → (∀ name ∈ ns, Path.IsName name) →
      onLink start (ps ++ ns) = .found a → ns.length ≤ bound)
    (hplace : Standing t place) (hns : ∀ name ∈ ns, Path.IsName name)
    (h : locateFrom t last onLink place ns = .found a) :
    ns.length + place.length ≤ t.nodes.length + 1 + bound := by
  induction ns generalizing place with
  | nil =>
    have hlength := hplace.length_le
    rw [List.length_nil]
    omega
  | cons name ns ih =>
    obtain ⟨hname, hrest⟩ := List.forall_mem_cons.mp hns
    have hlength := hplace.length_le
    obtain ⟨-, r, hstride, hr⟩ := exists_stride h (by simp)
    rw [List.length_cons]
    cases hstride with
    | stay hpart =>
      rcases hpart with hpart | hpart
      · exact absurd hpart hname.nonempty
      · exact absurd hpart hname.not_here
    | up hpart => exact absurd hpart hname.not_up
    | vacant => cases hr
    | atLink hpart hget hlast =>
      have hnil : ns = [] := by simpa using (Bool.and_eq_true_iff.mp hlast).2
      rw [hnil, List.length_nil]
      omega
    | through hpart hget hlast =>
      have hbound := hlink _ _ _ (hplace.start _) hrest hr
      omega
    | down hpart hget hnode =>
      have hnext := ih (hplace.concat (by simp [hget])) hrest hr
      rw [List.length_append, List.length_singleton] at hnext
      omega

/-- Names behind other parts, which may lead up and down. -/
theorem locateFrom_bound (bound : Nat)
    (hlink : ∀ start ps ns, Standing t start → (∀ name ∈ ns, Path.IsName name) →
      onLink start (ps ++ ns) = .found a → ns.length ≤ bound)
    (hplace : Standing t place) (hns : ∀ name ∈ ns, Path.IsName name)
    (h : locateFrom t last onLink place (ps ++ ns) = .found a) :
    ns.length ≤ t.nodes.length + 1 + bound := by
  induction ps generalizing place with
  | nil =>
    have hbound := locateFrom_names_bound bound hlink hplace hns h
    omega
  | cons part ps ih =>
    obtain ⟨-, r, hstride, hr⟩ := exists_stride h (by simp)
    cases hstride with
    | stay hpart => exact ih hplace hr
    | up hpart => exact ih hplace.dropLast hr
    | vacant => cases hr
    | atLink hpart hget hlast =>
      have hnil : ps ++ ns = [] := by simpa using (Bool.and_eq_true_iff.mp hlast).2
      rw [(List.append_eq_nil_iff.mp hnil).2, List.length_nil]
      omega
    | through hpart hget hlast =>
      have hr : onLink _ (Path.parts _ ++ (ps ++ ns)) = .found a := hr
      rw [← List.append_assoc] at hr
      have hbound := hlink _ _ _ (hplace.start _) hns hr
      omega
    | down hpart hget hnode => exact ih (hplace.concat (by simp [hget])) hr

theorem locateThrough_bound {n : Nat} (hplace : Standing t place)
    (hns : ∀ name ∈ ns, Path.IsName name)
    (h : locateThrough t last n place (ps ++ ns) = .found a) :
    ns.length ≤ (n + 1) * (t.nodes.length + 1) := by
  induction n generalizing place ps ns with
  | zero =>
    have hbound := locateFrom_bound 0 (fun _ _ _ _ _ hfault => by cases hfault) hplace
      hns h
    omega
  | succ n ih =>
    have hbound := locateFrom_bound _ (fun _ _ _ hstart hnames hfound => ih hstart hnames hfound)
      hplace hns h
    rw [Nat.succ_mul]
    omega

/-- A folder below another one is not too far away from it. -/
theorem length_le_of_isFolder {root : String} {folder : Address}
    (hroot : Path.isAbsolute root = true) (hns : ∀ name ∈ ns, Path.IsName name)
    (h : t.isFolder folder (Path.below root ns) = true) :
    ns.length ≤ (linkLimit + 1) * (t.nodes.length + 1) := by
  by_cases hnil : ns = []
  · rw [hnil, List.length_nil]
    exact Nat.zero_le _
  obtain ⟨before, hbefore⟩ := Path.parts_below root
  have hnode : t.node? folder (Path.below root ns) = some .folder := of_decide_eq_true h
  cases hlocate : t.locate folder (Path.below root ns) with
  | vacant parent name slash => simp [node?, hlocate] at hnode
  | fault f => simp [node?, hlocate] at hnode
  | found a =>
    rw [locate, locateWith] at hlocate
    cases hfault : pathFault? (Path.below root ns) with
    | some f => simp [hfault] at hlocate
    | none =>
      rw [hfault] at hlocate
      dsimp only at hlocate
      rw [if_pos (Path.isAbsolute_below hroot ns), hbefore ns hnil hns] at hlocate
      exact locateThrough_bound standing_nil hns hlocate

end CMakeDocs.FileTree
