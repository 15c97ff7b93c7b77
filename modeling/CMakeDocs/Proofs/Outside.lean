import CMakeDocs.Proofs.Downward
import CMakeDocs.Proofs.Growing

/-!
# Writing outside a tree

What is written at a folder and below it makes its tree grow. Another tree is outside of that if it
looks the same afterwards, from its root down. Where a path leads somewhere, all folders above it
are there, and what it leads to is on the list of the last one.
-/
namespace CMakeDocs

/-- A text has nothing that cannot be encoded just if each of its characters can. -/
theorem Text.unencodable?_eq_none {s : String} :
    unencodable? s = none ↔ ∀ c ∈ s.toList, isEncodable c = true := by
  have hlist : ∀ cs : List Char, (((cs.drop (cs.takeWhile isEncodable).length).takeWhile
      fun c => !isEncodable c).length = 0 ↔ ∀ c ∈ cs, isEncodable c = true) := by
    intro cs
    induction cs with
    | nil => simp
    | cons c cs ih =>
      by_cases hc : isEncodable c = true
      · rw [List.takeWhile_cons_of_pos hc, List.length_cons, List.drop_succ_cons, ih]
        simp [hc]
      · rw [List.takeWhile_cons_of_neg hc]
        simp [hc]
  unfold unencodable?
  dsimp only
  rw [← hlist]
  split
  · next hcount => simpa using hcount
  · next hcount => simpa using hcount

namespace FileTree

variable {t t' t'' : FileTree} {last : Bool} {onLink : Address → List String → Located}
  {place a here : Address} {path output root p q text : String} {xs ys zs ms : List String}

/-- What a tree can become when folders are made and files are written at a folder and below it. -/
inductive WrittenBelow (here : Address) (output : String) (t : FileTree) : FileTree → Prop where
  | refl : WrittenBelow here output t t
  | folders {t' : FileTree} {ms : List String} {path : String}
      (h : WrittenBelow here output t t') (hpath : Path.Downward output ms path) :
      WrittenBelow here output t (t'.makeFolders here path).1
  | file {t' : FileTree} {ms : List String} {path : String} (text : String)
      (h : WrittenBelow here output t t') (hpath : Path.Downward output ms path) :
      WrittenBelow here output t (t'.save here path text).1

theorem WrittenBelow.trans (h : WrittenBelow here output t t')
    (h' : WrittenBelow here output t' t'') : WrittenBelow here output t t'' := by
  induction h' with
  | refl => exact h
  | folders _ hpath ih => exact ih.folders hpath
  | file text _ hpath ih => exact ih.file text hpath

theorem WrittenBelow.grown (ht : Orderly t here) (h : WrittenBelow here output t t') :
    Grown here t t' := by
  induction h with
  | refl => exact .refl ht
  | folders _ _ ih => exact ih.trans (makeFolders_grown ih.orderly _)
  | file text _ _ ih => exact ih.trans (save_grown ih.orderly _ text)

/-- A tree that looks as it does in another file tree, from a root down. -/
structure SameBelow (here : Address) (root : String) (t t' : FileTree) : Prop where
  node : ∀ ns, (∀ name ∈ ns, Path.IsName name) →
    t'.node? here (Path.below root ns) = t.node? here (Path.below root ns)
  names : ∀ ns, (∀ name ∈ ns, Path.IsName name) →
    t'.namesAt? here (Path.below root ns) = t.namesAt? here (Path.below root ns)
  link : ∀ ns, (∀ name ∈ ns, Path.IsName name) →
    t'.isLink here (Path.below root ns) = t.isLink here (Path.below root ns)

theorem locateFrom_blank (hplace : t.get? place = some .folder) (hzs : ∀ z ∈ zs, z = "") :
    locateFrom t last onLink place zs = .found place := by
  induction zs with
  | nil => rfl
  | cons z zs ih =>
    obtain ⟨hz, hzs⟩ := List.forall_mem_cons.mp hzs
    rw [locateFrom_stay hplace (.inl hz), ih hzs]

/-- What the first parts of a path lead to, and what all of them lead to: a folder, and what is
found by following the other parts from there. -/
def LeadsThrough (t : FileTree) (ys : List String) (above whole : Located) : Prop :=
  ∃ a onLink, above = .found a ∧ t.get? a = some .folder ∧ whole = locateFrom t false onLink a ys

/-- Where parts lead somewhere through others, these lead to a folder. -/
theorem locateFrom_left (hys : ∃ y ∈ ys, y ≠ "") (hzs : ∀ z ∈ zs, z = "")
    (hlink : ∀ start ps, (∀ f, onLink start (ps ++ ys) ≠ .fault f) →
      LeadsThrough t ys (onLink start (ps ++ zs)) (onLink start (ps ++ ys)))
    (h : ∀ f, locateFrom t false onLink place (xs ++ ys) ≠ .fault f) :
    LeadsThrough t ys (locateFrom t false onLink place (xs ++ zs))
      (locateFrom t false onLink place (xs ++ ys)) := by
  induction xs generalizing place with
  | nil =>
    obtain ⟨y, ys', rfl⟩ : ∃ y ys', ys = y :: ys' := by
      obtain ⟨y, hy, -⟩ := hys
      exact List.exists_cons_of_ne_nil (List.ne_nil_of_mem hy)
    obtain ⟨hfolder, -⟩ := exists_stride rfl h
    exact ⟨place, onLink, locateFrom_blank hfolder hzs, hfolder, rfl⟩
  | cons x xs ih =>
    rw [List.cons_append] at h
    rw [List.cons_append, List.cons_append]
    obtain ⟨hfolder, r, hstride, hr⟩ := exists_stride rfl h
    rw [← hr] at h
    cases hstride with
    | stay hpart =>
      rw [locateFrom_stay hfolder hpart, locateFrom_stay hfolder hpart]
      exact ih h
    | up hpart =>
      rw [hpart, locateFrom_up hfolder, locateFrom_up hfolder]
      exact ih h
    | vacant hpart hget hrest =>
      -- Something that is not there could only be the last part.
      obtain ⟨y, hy, hne⟩ := hys
      have hempty := List.all_eq_true.mp hrest y (List.mem_append_right xs hy)
      exact absurd (by simpa using hempty) hne
    | atLink hpart hget hlast => simp at hlast
    | through hpart hget hlast =>
      rw [← List.append_assoc] at h
      have hnext := hlink _ _ h
      rw [locateFrom_passable hfolder hpart, locateFrom_passable hfolder hpart, hget]
      simpa [List.append_assoc] using hnext
    | @down node hpart hget hnode =>
      rw [locateFrom_passable hfolder hpart, locateFrom_passable hfolder hpart, hget]
      cases node with
      | link target => exact absurd rfl (hnode target)
      | file text => exact ih h
      | folder => exact ih h
      | special => exact ih h

theorem locateThrough_left {n : Nat} (hys : ∃ y ∈ ys, y ≠ "") (hzs : ∀ z ∈ zs, z = "")
    (h : ∀ f, locateThrough t false n place (xs ++ ys) ≠ .fault f) :
    LeadsThrough t ys (locateThrough t false n place (xs ++ zs))
      (locateThrough t false n place (xs ++ ys)) := by
  induction n generalizing place xs with
  | zero => exact locateFrom_left hys hzs (fun _ _ hfault => absurd rfl (hfault _)) h
  | succ n ih => exact locateFrom_left hys hzs (fun _ _ hnext => ih hnext) h

/-- Nothing is wrong with a path just if all this can be said of its text. -/
theorem pathFault?_eq_none : pathFault? path = none ↔
    (∀ c ∈ path.toList, Text.isEncodable c = true) ∧ '\x00' ∉ path.toList ∧ path ≠ "" ∧
      path.utf8ByteSize ≤ pathLimit := by
  unfold pathFault?
  rw [← Text.unencodable?_eq_none]
  cases Text.unencodable? path with
  | some range => simp
  | none =>
    by_cases hnull : '\x00' ∈ path.toList
    · simp [hnull]
    by_cases hempty : path = ""
    · simp [hempty]
    by_cases hlimit : pathLimit < path.utf8ByteSize
    · simp [hnull, hempty, hlimit]
    · simp [hnull, hempty, hlimit, Nat.le_of_not_lt hlimit]

/-- Nothing is wrong with the start of a path with which nothing is wrong, unless it is empty. -/
theorem pathFault?_of_append (hp : p ≠ "") (h : pathFault? (p ++ q) = none) :
    pathFault? p = none := by
  rw [pathFault?_eq_none, String.toList_append, String.utf8ByteSize_append] at h
  obtain ⟨hencodable, hnull, -, hlimit⟩ := h
  rw [pathFault?_eq_none]
  refine ⟨fun c hc => hencodable c (List.mem_append_left _ hc), ?_, hp, by omega⟩
  exact fun hmem => hnull (List.mem_append_left _ hmem)

/-- The parts of a path, apart from an empty one at its end, come first in what is joined to it. -/
theorem exists_parts_join (hp : p ≠ "") (hq : Path.isAbsolute q = false) :
    ∃ xs zs, Path.parts p = xs ++ zs ∧ (∀ z ∈ zs, z = "") ∧
      Path.parts (Path.join p q) = xs ++ Path.parts q := by
  rcases Path.join_cases p hq with ⟨hempty, -⟩ | ⟨before, rfl, hjoin⟩ | ⟨-, -, hjoin⟩
  · exact absurd hempty hp
  · have hparts := Path.parts_slash before ""
    have hnone : Path.parts "" = [""] := rfl
    rw [String.append_empty, hnone] at hparts
    refine ⟨Path.parts before, [""], hparts, by simp, ?_⟩
    rw [hjoin, Path.parts_slash]
  · refine ⟨Path.parts p, [], (List.append_nil _).symm, by simp, ?_⟩
    rw [hjoin, Path.parts_slash]

theorem locate_of_isFolder (h : t.isFolder here p = true) (f : FileFault) :
    t.locate here p ≠ .fault f := by
  intro hfault
  have hnode : t.node? here p = some .folder := of_decide_eq_true h
  rw [node?, hfault] at hnode
  cases hnode

/-- Where a path leads somewhere below another one, it leads through that one. -/
theorem leadsThrough_join (hp : p ≠ "") (hq : Path.isAbsolute q = false)
    (hname : ∃ part ∈ Path.parts q, part ≠ "")
    (h : ∀ f, t.locate here (Path.join p q) ≠ .fault f) :
    LeadsThrough t (Path.parts q) (t.locate here p) (t.locate here (Path.join p q)) := by
  obtain ⟨rest, hrest⟩ : ∃ rest, Path.join p q = p ++ rest := Path.exists_join_eq_append hq
  have hfault : pathFault? (Path.join p q) = none := by
    by_contra hsome
    obtain ⟨f, hf⟩ := Option.ne_none_iff_exists'.mp hsome
    exact h f (by rw [locate, locateWith, hf])
  have hpfault : pathFault? p = none := pathFault?_of_append hp (hrest ▸ hfault)
  obtain ⟨xs, zs, hparts, hzs, hjoin⟩ := exists_parts_join hp hq
  have hwhole : t.locate here (Path.join p q) = locateThrough t false linkLimit
      (if Path.isAbsolute p then [] else here) (xs ++ Path.parts q) := by
    rw [locate, locateWith, hfault, hjoin, Path.isAbsolute_join_relative hq hp]
  have habove : t.locate here p = locateThrough t false linkLimit
      (if Path.isAbsolute p then [] else here) (xs ++ zs) := by
    rw [locate, locateWith, hpfault, hparts]
  rw [hwhole] at h ⊢
  rw [habove]
  exact locateThrough_left hname hzs h

/-- Where a path leads somewhere below another one, that one leads to a folder. -/
theorem isFolder_of_join (hp : p ≠ "") (hq : Path.isAbsolute q = false)
    (hname : ∃ part ∈ Path.parts q, part ≠ "")
    (h : ∀ f, t.locate here (Path.join p q) ≠ .fault f) : t.isFolder here p = true := by
  obtain ⟨a, -, habove, ha, -⟩ := leadsThrough_join hp hq hname h
  refine decide_eq_true ?_
  rw [node?, habove]
  exact ha

/-- What a path leads to is on the list of the folder above. -/
theorem exists_mem_namesAt? (hp : p ≠ "") (hq : Path.IsName q)
    (h : t.isPresent here (Path.join p q) = true) :
    ∃ names, t.namesAt? here p = some names ∧ q ∈ names := by
  obtain ⟨node, hnode⟩ := Option.isSome_iff_exists.mp h
  rw [node?] at hnode
  have hparts := Path.parts_of_no_slash hq.no_slash
  have hfault : ∀ f, t.locate here (Path.join p q) ≠ .fault f := by
    intro f hf
    rw [hf] at hnode
    cases hnode
  obtain ⟨a, onLink, habove, ha, hwhole⟩ := leadsThrough_join hp hq.relative
    ⟨q, by rw [hparts]; exact List.mem_singleton_self q, hq.nonempty⟩ hfault
  rw [hparts] at hwhole
  refine ⟨t.names a, by rw [namesAt?, habove]; exact if_pos ha, ?_⟩
  have hlisted : (t.get? (a ++ [q])).isSome := by
    rw [hwhole] at hfault hnode
    obtain ⟨-, r, hstride, hr⟩ := exists_stride rfl hfault
    cases hstride with
    | stay hpart => exact absurd hpart (not_or_intro hq.nonempty hq.not_here)
    | up hpart => exact absurd hpart hq.not_up
    | vacant hpart hget hrest =>
      rw [← hr] at hnode
      cases hnode
    | atLink hpart hget hlast => rw [hget, Option.isSome_some]
    | through hpart hget hlast => rw [hget, Option.isSome_some]
    | down hpart hget hnode => rw [hget, Option.isSome_some]
  obtain ⟨kv, hkv, hplace⟩ := List.mem_map.mp (mem_of_isSome_get? (by simp) hlisted)
  refine List.mem_filterMap.mpr ⟨kv, hkv, ?_⟩
  rw [hplace, nameIn?, List.getLast?_concat]
  exact if_pos rfl

end FileTree

/-- A folder for pages that lies outside a tree: whatever is made or written at it and below it, the
tree looks the same. -/
def World.OutputOutside (w : World) (output root : String) : Prop :=
  ∀ t, FileTree.WrittenBelow w.place output w.files t → FileTree.SameBelow w.place root w.files t

/-- No blank stands in front of a path. It would be taken off the paths of pages, and not off the
path of their folder. -/
def Path.StartsVisibly (path : String) : Prop :=
  ∃ c cs, path.toList = c :: cs ∧ Text.isBlank c = false

theorem Path.StartsVisibly.ne_empty {path : String} (h : Path.StartsVisibly path) : path ≠ "" := by
  obtain ⟨c, cs, hlist, -⟩ := h
  rintro rfl
  simp at hlist

theorem Path.startsVisibly_of_isAbsolute {path : String} (h : Path.isAbsolute path = true) :
    Path.StartsVisibly path := by
  obtain ⟨cs, hcs⟩ := List.head?_eq_some_iff.mp (of_decide_eq_true h)
  exact ⟨'/', cs, hcs, by decide⟩

end CMakeDocs
