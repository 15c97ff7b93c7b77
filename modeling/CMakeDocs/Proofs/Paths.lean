import CMakeDocs.Proofs.Lines
import CMakeDocs.World
import Mathlib.Data.List.Induction

/-!
# Paths by their names

A path leads through the names between its slashes. Joining paths joins their names, and normalizing
a path keeps the names at its end. So the way from a folder to something below it is given by the
names in between, and a path below a folder is determined by them.
-/
namespace CMakeDocs.Path

/-- A text that can name a file or a folder. -/
structure IsName (name : String) : Prop where
  nonempty : name ≠ ""
  not_here : name ≠ "."
  not_up : name ≠ ".."
  no_slash : '/' ∉ name.toList

instance (name : String) : Decidable (IsName name) :=
  decidable_of_iff (name ≠ "" ∧ name ≠ "." ∧ name ≠ ".." ∧ '/' ∉ name.toList)
    ⟨fun h => ⟨h.1, h.2.1, h.2.2.1, h.2.2.2⟩,
      fun h => ⟨h.nonempty, h.not_here, h.not_up, h.no_slash⟩⟩

/-- The parts of a path that are not empty. -/
def names (path : String) : List String := (parts path).filter (· ≠ "")

variable {path first second root name : String} {ns : List String}

theorem isName_concat (h : ∀ other ∈ ns, IsName other) (hname : IsName name) :
    ∀ other ∈ ns ++ [name], IsName other := by
  intro other hother
  rcases List.mem_append.mp hother with hother | hother
  · exact h other hother
  · rw [List.mem_singleton.mp hother]
    exact hname

theorem parts_slash (first second : String) :
    parts (first ++ "/" ++ second) = parts first ++ parts second := by
  have hlist : (first ++ "/" ++ second).toList = first.toList ++ '/' :: second.toList := by simp
  rw [parts, hlist, Text.splitChars_append, List.map_append]
  rfl

theorem parts_of_no_slash (h : '/' ∉ name.toList) : parts name = [name] := by
  rw [parts, Text.splitChars_of_not_mem h]
  simp

theorem no_slash_of_mem_parts {part : String} (h : part ∈ parts path) : '/' ∉ part.toList := by
  obtain ⟨piece, hpiece, rfl⟩ := List.mem_map.mp h
  rw [String.toList_ofList]
  exact Text.not_mem_of_mem_splitChars hpiece

theorem names_slash (first second : String) :
    names (first ++ "/" ++ second) = names first ++ names second := by
  rw [names, parts_slash, List.filter_append]
  rfl

theorem names_name (h : IsName name) : names name = [name] := by
  rw [names, parts_of_no_slash h.no_slash]
  simp [h.nonempty]

theorem IsName.relative (h : IsName name) : isAbsolute name = false := by
  refine decide_eq_false ?_
  intro hhead
  exact h.no_slash (List.mem_of_mem_head? hhead)

/-- What stands between two paths that are joined. -/
theorem join_cases (first : String) (h : isAbsolute second = false) :
    (first = "" ∧ join first second = second) ∨
      (∃ before, first = before ++ "/" ∧ join first second = before ++ "/" ++ second) ∨
        (first ≠ "" ∧ first.toList.getLast? ≠ some '/' ∧
          join first second = first ++ "/" ++ second) := by
  rw [join, if_neg (by simp [h])]
  by_cases hempty : first = ""
  · exact .inl ⟨hempty, by simp [hempty]⟩
  by_cases hlast : first.toList.getLast? = some '/'
  · obtain ⟨before, hbefore⟩ := List.getLast?_eq_some_iff.mp hlast
    have hfirst : first = String.ofList before ++ "/" := by
      refine String.toList_injective ?_
      rw [hbefore]
      simp
    refine .inr (.inl ⟨String.ofList before, hfirst, ?_⟩)
    rw [if_pos (by simp [hlast]), ← hfirst]
  · refine .inr (.inr ⟨hempty, hlast, ?_⟩)
    rw [if_neg (by simp [hempty, hlast])]

theorem names_join (first : String) (h : isAbsolute second = false) :
    names (join first second) = names first ++ names second := by
  rcases join_cases first h with ⟨rfl, hjoin⟩ | ⟨before, rfl, hjoin⟩ | ⟨-, -, hjoin⟩
  · rw [hjoin]
    rfl
  · have hbefore := names_slash before ""
    rw [String.append_empty] at hbefore
    have hnone : names "" = [] := rfl
    rw [hjoin, names_slash, hbefore, hnone, List.append_nil]
  · rw [hjoin, names_slash]

theorem isAbsolute_join (h : isAbsolute first = true) (second : String) :
    isAbsolute (join first second) = true := by
  by_cases hsecond : isAbsolute second = true
  · rw [join, if_pos hsecond, hsecond]
  · have hhead : first.toList.head? = some '/' := of_decide_eq_true h
    obtain ⟨rest, hfirst⟩ := List.head?_eq_some_iff.mp hhead
    refine decide_eq_true ?_
    rcases join_cases first (Bool.eq_false_iff.mpr hsecond) with
      ⟨rfl, -⟩ | ⟨before, hbefore, hjoin⟩ | ⟨-, -, hjoin⟩
    · simp at hfirst
    · rw [hjoin, ← hbefore, String.toList_append, hfirst]
      rfl
    · rw [hjoin, String.toList_append, String.toList_append, hfirst]
      rfl

theorem join_of_absolute (first : String) (h : isAbsolute second = true) :
    join first second = second := by
  rw [join, if_pos h]

/-- The path that leads through names from a folder. -/
def below (root : String) (ns : List String) : String := ns.foldl join root

theorem below_concat (root : String) (ns : List String) (name : String) :
    below root (ns ++ [name]) = join (below root ns) name := by
  rw [below, List.foldl_append]
  rfl

theorem isAbsolute_below (h : isAbsolute root = true) (ns : List String) :
    isAbsolute (below root ns) = true := by
  induction ns generalizing root with
  | nil => exact h
  | cons name ns ih => exact ih (isAbsolute_join h name)

theorem names_below (root : String) (h : ∀ name ∈ ns, IsName name) :
    names (below root ns) = names root ++ ns := by
  induction ns generalizing root with
  | nil => exact (List.append_nil _).symm
  | cons name ns ih =>
    obtain ⟨hname, hns⟩ := List.forall_mem_cons.mp h
    have hjoin : names (join root name) = names root ++ [name] := by
      rw [names_join root hname.relative, names_name hname]
    have hbelow : names (below (join root name) ns) = names (join root name) ++ ns := ih _ hns
    rw [hjoin, List.append_assoc] at hbelow
    exact hbelow

theorem below_injective {ms : List String} (hns : ∀ name ∈ ns, IsName name)
    (hms : ∀ name ∈ ms, IsName name) (h : below root ns = below root ms) : ns = ms := by
  have hnames := congrArg names h
  rw [names_below root hns, names_below root hms] at hnames
  exact List.append_cancel_left hnames

theorem join_below_inj {other : String} (hns : ∀ name ∈ ns, IsName name) (hname : IsName name)
    (hother : IsName other) (h : join (below root ns) name = join (below root ns) other) :
    name = other := by
  rw [← below_concat, ← below_concat] at h
  have hlists := below_injective (isName_concat hns hname) (isName_concat hns hother) h
  exact List.singleton_inj.mp (List.append_cancel_left hlists)

/-- A name is a part by itself, and behind a slash nothing else changes. -/
theorem parts_join_name (root : String) :
    ∃ before, ∀ name, IsName name → parts (join root name) = before ++ [name] := by
  by_cases hroot : ∃ p, root = p ++ "/"
  · obtain ⟨p, rfl⟩ := hroot
    refine ⟨parts p, fun name hname => ?_⟩
    rcases join_cases (p ++ "/") hname.relative with ⟨hempty, -⟩ | ⟨q, hq, hjoin⟩ | ⟨-, hlast, -⟩
    · simp at hempty
    · have hsame : p = q := by
        refine String.toList_injective ?_
        simpa using congrArg String.toList hq
      rw [hjoin, parts_slash, parts_of_no_slash hname.no_slash, hsame]
    · simp at hlast
  · by_cases hempty : root = ""
    · refine ⟨[], fun name hname => ?_⟩
      rcases join_cases root hname.relative with ⟨-, hjoin⟩ | ⟨p, hp, -⟩ | ⟨hne, -⟩
      · rw [hjoin, parts_of_no_slash hname.no_slash, List.nil_append]
      · exact absurd ⟨p, hp⟩ hroot
      · exact absurd hempty hne
    · refine ⟨parts root, fun name hname => ?_⟩
      rcases join_cases root hname.relative with ⟨h, -⟩ | ⟨p, hp, -⟩ | ⟨-, -, hjoin⟩
      · exact absurd h hempty
      · exact absurd ⟨p, hp⟩ hroot
      · rw [hjoin, parts_slash, parts_of_no_slash hname.no_slash]

/-- A path whose last part is not empty gets one part more. -/
theorem parts_join_of_getLast {last : String} (hlast : (parts first).getLast? = some last)
    (hne : last ≠ "") (hname : IsName name) : parts (join first name) = parts first ++ [name] := by
  rcases join_cases first hname.relative with ⟨rfl, -⟩ | ⟨before, rfl, -⟩ | ⟨-, -, hjoin⟩
  · exact absurd (Option.some.inj hlast).symm hne
  · have hparts := parts_slash before ""
    have hnone : parts "" = [""] := rfl
    rw [String.append_empty, hnone] at hparts
    rw [hparts, List.getLast?_concat] at hlast
    exact absurd (Option.some.inj hlast).symm hne
  · rw [hjoin, parts_slash, parts_of_no_slash hname.no_slash]

/-- The parts of a path below a folder end in the names that it leads through. -/
theorem parts_below (root : String) :
    ∃ before, ∀ ns, ns ≠ [] → (∀ name ∈ ns, IsName name) →
      parts (below root ns) = before ++ ns := by
  obtain ⟨before, hbefore⟩ := parts_join_name root
  refine ⟨before, fun ns => ?_⟩
  -- The names are taken from the end, as the path is made.
  induction ns using List.reverseRecOn with
  | nil => exact fun h => absurd rfl h
  | append_singleton ns name ih =>
    intro _ hall
    have hname : IsName name := hall name (by simp)
    have hothers : ∀ other ∈ ns, IsName other := fun other hother =>
      hall other (List.mem_append_left _ hother)
    rw [below_concat]
    by_cases hns : ns = []
    · subst hns
      exact hbefore name hname
    · have hparts := ih hns hothers
      have hlast : (parts (below root ns)).getLast? = some (ns.getLast hns) := by
        rw [hparts, List.getLast?_append, List.getLast?_eq_some_getLast hns]
        rfl
      have hne := (hothers _ (List.getLast_mem hns)).nonempty
      rw [parts_join_of_getLast hlast hne hname, hparts, List.append_assoc]

theorem normalizeParts_skip (absolute : Bool) (done rest : List String) {part : String}
    (h : (decide (part = "") || decide (part = ".")) = true) :
    normalizeParts absolute done (part :: rest) = normalizeParts absolute done rest := by
  rw [normalizeParts.eq_def]
  exact if_pos h

theorem normalizeParts_push (absolute : Bool) (done rest : List String) {part : String}
    (h : ¬ (decide (part = "") || decide (part = ".")) = true) (hup : part ≠ "..") :
    normalizeParts absolute done (part :: rest) = normalizeParts absolute (part :: done) rest := by
  rw [normalizeParts.eq_def]
  exact (if_neg h).trans (if_neg hup)

/-- Parts that stay in place can be left out. -/
theorem normalizeParts_filter (absolute : Bool) (done ps : List String) {keep : String → Bool}
    (h : ∀ part, keep part = false → part = "" ∨ part = ".") :
    normalizeParts absolute done (ps.filter keep) = normalizeParts absolute done ps := by
  have hup : keep ".." = true := by
    by_contra hkeep
    rcases h ".." (Bool.eq_false_iff.mpr hkeep) with hup | hup <;> simp at hup
  fun_induction normalizeParts absolute done ps with
  | case1 => rfl
  | case2 done part rest hpart ih =>
    by_cases hkeep : keep part = true
    · rw [List.filter_cons_of_pos hkeep, normalizeParts_skip _ _ _ hpart, ih]
    · rw [List.filter_cons_of_neg hkeep, ih]
  | case3 rest _ ih => simpa [normalizeParts, hup] using ih
  | case4 rest before _ ih => simpa [normalizeParts, hup] using ih
  | case5 rest last before hlast _ ih => simpa [normalizeParts, hup, hlast] using ih
  | case6 done part rest hpart hnot ih =>
    have hkeep : keep part = true := by
      by_contra hkeep
      exact hpart (by simpa using h part (Bool.eq_false_iff.mpr hkeep))
    rw [List.filter_cons_of_pos hkeep, normalizeParts_push _ _ _ hpart hnot, ih]

theorem normalizeParts_names (absolute : Bool) (done : List String) (path : String) :
    normalizeParts absolute done (names path) = normalizeParts absolute done (parts path) :=
  normalizeParts_filter absolute done (parts path) fun part hpart => .inl (by simpa using hpart)

/-- Names at the end of a path stay as they are. -/
theorem normalizeParts_append (absolute : Bool) (done ps : List String)
    (h : ∀ name ∈ ns, IsName name) :
    normalizeParts absolute done (ps ++ ns) = normalizeParts absolute done ps ++ ns := by
  fun_induction normalizeParts absolute done ps with
  | case1 done =>
    rw [List.nil_append]
    induction ns generalizing done with
    | nil => rw [normalizeParts, List.append_nil]
    | cons name ns ih =>
      obtain ⟨hname, hns⟩ := List.forall_mem_cons.mp h
      rw [normalizeParts_push _ _ _ (by simp [hname.nonempty, hname.not_here]) hname.not_up,
        ih hns, List.reverse_cons, List.append_assoc]
      rfl
  | case2 done part rest hpart ih => rw [List.cons_append, normalizeParts_skip _ _ _ hpart, ih]
  | case3 rest _ ih => simpa [normalizeParts] using ih
  | case4 rest before _ ih => simpa [normalizeParts] using ih
  | case5 rest last before hlast _ ih => simpa [normalizeParts, hlast] using ih
  | case6 done part rest hpart hup ih =>
    rw [List.cons_append, normalizeParts_push _ _ _ hpart hup, ih]

/-- From the root on, only names are left. -/
theorem isName_of_mem_normalizeParts {done ps : List String} (hdone : ∀ name ∈ done, IsName name)
    (hps : ∀ part ∈ ps, '/' ∉ part.toList) {name : String}
    (h : name ∈ normalizeParts true done ps) : IsName name := by
  fun_induction normalizeParts true done ps with
  | case1 done => exact hdone name (List.mem_reverse.mp h)
  | case2 done part rest hpart ih =>
    exact ih hdone (List.forall_mem_cons.mp hps).2 h
  | case3 rest _ ih => exact ih (by simp) (List.forall_mem_cons.mp hps).2 h
  | case4 rest before _ ih => exact absurd rfl (hdone ".." (by simp)).not_up
  | case5 rest last before hlast _ ih =>
    exact ih (List.forall_mem_cons.mp hdone).2 (List.forall_mem_cons.mp hps).2 h
  | case6 done part rest hpart hup ih =>
    obtain ⟨hslash, hrest⟩ := List.forall_mem_cons.mp hps
    have hpart' : part ≠ "" ∧ part ≠ "." := by simpa using hpart
    refine ih ?_ hrest h
    exact List.forall_mem_cons.mpr ⟨⟨hpart'.1, hpart'.2, hup, hslash⟩, hdone⟩

theorem names_intercalate (h : ∀ name ∈ ns, IsName name) : names ("/".intercalate ns) = ns := by
  induction ns with
  | nil => rfl
  | cons name ns ih =>
    obtain ⟨hname, hns⟩ := List.forall_mem_cons.mp h
    cases ns with
    | nil => rw [String.intercalate_singleton, names_name hname]
    | cons other ns =>
      rw [String.intercalate_cons_cons, names_slash, names_name hname, ih hns]
      rfl

/-- The path from the root with the given names. -/
theorem normalize_eq (h : isAbsolute path = true) :
    normalize path = rootText path ++ "/".intercalate (normalizeParts true [] (names path)) := by
  have hroot : rootText path ≠ "" := by
    obtain ⟨rest, hrest⟩ := List.head?_eq_some_iff.mp (of_decide_eq_true h)
    rw [rootText, hrest, List.takeWhile_cons_of_pos (by decide), List.length_cons]
    split <;> simp_all
  rw [normalize, h, normalizeParts_names, if_neg]
  intro hempty
  exact hroot (String.append_eq_empty_iff.mp hempty).1

theorem names_normalize (h : isAbsolute path = true) :
    names (normalize path) = normalizeParts true [] (names path) := by
  have hall : ∀ name ∈ normalizeParts true [] (names path), IsName name := fun name hname => by
    refine isName_of_mem_normalizeParts (by simp) ?_ hname
    intro part hpart
    exact no_slash_of_mem_parts (List.mem_filter.mp hpart).1
  have hrest := names_intercalate hall
  have hcount : rootText path = "" ∨ rootText path = "/" ∨ rootText path = "//" := by
    unfold rootText
    split <;> simp
  rw [normalize_eq h]
  rcases hcount with hroot | hroot | hroot <;> rw [hroot]
  · rw [String.empty_append, hrest]
  · have hslash := names_slash "" ("/".intercalate (normalizeParts true [] (names path)))
    rw [String.empty_append, hrest] at hslash
    exact hslash
  · have hslash := names_slash "/" ("/".intercalate (normalizeParts true [] (names path)))
    rw [hrest] at hslash
    exact hslash

/-- The way through names. -/
def way (ns : List String) : String := if ns.isEmpty then "." else "/".intercalate ns

theorem dropCommon_append (base ns : List String) : dropCommon (base ++ ns) base = (ns, []) := by
  induction base with
  | nil => cases ns <;> rfl
  | cons name base ih => rw [List.cons_append, dropCommon, if_pos rfl, ih]

theorem relative_of_names {start : String} (h : names path = names start ++ ns) :
    relative path start = way ns := by
  have hdrop : dropCommon (names path) (names start) = (ns, []) := by
    rw [h, dropCommon_append]
  unfold names at hdrop
  rw [relative]
  dsimp only
  rw [hdrop]
  rfl

end CMakeDocs.Path

namespace CMakeDocs.World

variable {w : World} {root : String} {ns : List String}

/-- The names of an absolute path that ends in names. -/
theorem names_absolute (hcurrent : Path.isAbsolute w.current = true) (path : String) :
    Path.names (w.absolute path) =
      Path.normalizeParts true [] (Path.names (Path.join w.current path)) :=
  Path.names_normalize (Path.isAbsolute_join hcurrent path)

/-- The way from a folder to something below it. -/
theorem relative_below (hcurrent : Path.isAbsolute w.current = true)
    (hroot : Path.isAbsolute root = true) (hns : ∀ name ∈ ns, Path.IsName name) :
    w.relative (Path.below root ns) root = Path.way ns := by
  refine Path.relative_of_names ?_
  have hbelow := Path.isAbsolute_below hroot ns
  rw [names_absolute hcurrent, names_absolute hcurrent, Path.join_of_absolute _ hbelow,
    Path.join_of_absolute _ hroot, Path.names_below root hns, Path.normalizeParts_append _ _ _ hns]

end CMakeDocs.World
