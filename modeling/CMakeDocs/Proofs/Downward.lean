import CMakeDocs.Proofs.Paths
import CMakeDocs.Text.Blank
import Mathlib.Data.List.TakeWhile

/-!
# Paths that lead down

A path leads down from a folder if it is joined to it without going up. Then its absolute form is
that of the folder with the names after it, whatever stands in between that stays in place. So two
such paths are the same just if they lead through the same names.
-/
namespace CMakeDocs

namespace Text

theorem dropEnd_of_last {p : Char → Bool} {cs : List Char}
    (h : ∀ c, cs.getLast? = some c → p c = false) : dropEnd p cs = cs := by
  rcases List.eq_nil_or_concat cs with rfl | ⟨before, c, rfl⟩
  · rfl
  · have hc : p c = false := h c (by simp)
    rw [List.concat_eq_append, dropEnd, List.reverse_append, List.reverse_singleton,
      List.singleton_append, List.dropWhile_cons_of_neg (by simp [hc])]
    simp

/-- What is dropped at the end of a text is a row of the character. -/
theorem exists_append_dropEnd (c : Char) (cs : List Char) :
    ∃ n, cs = dropEnd (· = c) cs ++ List.replicate n c := by
  have hall : ∀ x ∈ cs.reverse.takeWhile (· = c), x = c := fun x hx => by
    simpa using List.mem_takeWhile_imp hx
  refine ⟨(cs.reverse.takeWhile (· = c)).length, ?_⟩
  calc cs
    _ = (cs.reverse.takeWhile (· = c) ++ cs.reverse.dropWhile (· = c)).reverse := by
      rw [List.takeWhile_append_dropWhile, List.reverse_reverse]
    _ = dropEnd (· = c) cs ++ (cs.reverse.takeWhile (· = c)).reverse := List.reverse_append
    _ = _ := by rw [List.eq_replicate_of_mem hall, List.reverse_replicate, List.length_replicate]

theorem trim_of_ends {s : String} (hfirst : ∀ c, s.toList.head? = some c → isBlank c = false)
    (hlast : ∀ c, s.toList.getLast? = some c → isBlank c = false) : trim s = s := by
  have hdrop : s.toList.dropWhile isBlank = s.toList := by
    cases hs : s.toList with
    | nil => rfl
    | cons c cs =>
      have hc : isBlank c = false := hfirst c (by simp [hs])
      exact List.dropWhile_cons_of_neg (by simp [hc])
  rw [trim, hdrop, dropEnd_of_last hlast, String.ofList_toList]

end Text

namespace Path

variable {path first second name output p q : String} {ns ms : List String}

/-- The names that a path leads through, without those that stay in place. -/
def moves (path : String) : List String := (names path).filter (· ≠ ".")

theorem moves_join (first : String) (h : isAbsolute second = false) :
    moves (join first second) = moves first ++ moves second := by
  rw [moves, names_join first h, List.filter_append]
  rfl

theorem moves_of_names (hnames : names path = ns) (h : ∀ name ∈ ns, IsName name) :
    moves path = ns := by
  rw [moves, hnames, List.filter_eq_self]
  intro name hname
  simpa using (h name hname).not_here

theorem moves_below (root : String) (h : ∀ name ∈ ns, IsName name) :
    moves (below root ns) = moves root ++ ns := by
  have hkept : ns.filter (· ≠ ".") = ns := by
    rw [List.filter_eq_self]
    intro name hname
    simpa using (h name hname).not_here
  rw [moves, names_below root h, List.filter_append, hkept]
  rfl

theorem not_up_mem_append (hup : ".." ∉ ms) (h : ∀ name ∈ ns, IsName name) : ".." ∉ ms ++ ns := by
  intro hmem
  rcases List.mem_append.mp hmem with hmem | hmem
  · exact hup hmem
  · exact (h _ hmem).not_up rfl

theorem normalizeParts_moves (absolute : Bool) (done : List String) (path : String) :
    normalizeParts absolute done (moves path) = normalizeParts absolute done (names path) :=
  normalizeParts_filter absolute done (names path) fun part hpart => .inr (by simpa using hpart)

theorem moves_way (h : ∀ name ∈ ns, IsName name) : moves (way ns) = ns := by
  cases ns with
  | nil => decide
  | cons name ns =>
    have hway : way (name :: ns) = "/".intercalate (name :: ns) := rfl
    rw [hway, moves_of_names (names_intercalate h) h]

theorem isAbsolute_append (hfirst : first ≠ "") (second : String) :
    isAbsolute (first ++ second) = isAbsolute first := by
  unfold isAbsolute
  obtain ⟨c, cs, hlist⟩ := List.exists_cons_of_ne_nil fun hnil : first.toList = [] =>
    hfirst (String.toList_injective hnil)
  rw [String.toList_append, hlist]
  rfl

theorem isAbsolute_join_relative (h : isAbsolute second = false) (hfirst : first ≠ "") :
    isAbsolute (join first second) = isAbsolute first := by
  rcases join_cases first h with ⟨hempty, -⟩ | ⟨before, hbefore, hjoin⟩ | ⟨-, -, hjoin⟩
  · exact absurd hempty hfirst
  · rw [hjoin, ← hbefore, isAbsolute_append hfirst]
  · rw [hjoin, String.append_assoc, isAbsolute_append hfirst]

theorem join_empty_left (h : isAbsolute second = false) : join "" second = second := by
  rcases join_cases "" h with ⟨-, hjoin⟩ | ⟨before, hbefore, -⟩ | ⟨hne, -, -⟩
  · exact hjoin
  · simp at hbefore
  · exact absurd rfl hne

theorem join_ne_empty (h : isAbsolute second = false) (hfirst : first ≠ "") :
    join first second ≠ "" := by
  rcases join_cases first h with ⟨hempty, -⟩ | ⟨before, hbefore, hjoin⟩ | ⟨-, -, hjoin⟩
  · exact absurd hempty hfirst
  · rw [hjoin]
    simp
  · rw [hjoin]
    simp

/-- A path is a first part of what is joined to it. -/
theorem exists_join_eq_append (h : isAbsolute second = false) :
    ∃ rest, join first second = first ++ rest := by
  rcases join_cases first h with ⟨rfl, hjoin⟩ | ⟨before, hbefore, hjoin⟩ | ⟨-, -, hjoin⟩
  · exact ⟨second, by simpa using hjoin⟩
  · exact ⟨second, by rw [hjoin, hbefore]⟩
  · exact ⟨"/" ++ second, by rw [hjoin, String.append_assoc]⟩

/-- What is joined to a path is a last part of it. -/
theorem exists_join_eq_prepend (first : String) (h : isAbsolute second = false) :
    ∃ before, join first second = before ++ second := by
  rcases join_cases first h with ⟨-, hjoin⟩ | ⟨before, -, hjoin⟩ | ⟨-, -, hjoin⟩
  · exact ⟨"", by simpa using hjoin⟩
  · exact ⟨before ++ "/", hjoin⟩
  · exact ⟨first ++ "/", hjoin⟩

/-- Joining something to a path adds no slash in front. -/
theorem takeWhile_join (hfirst : first ≠ "") (h : isAbsolute second = false) :
    (join first second).toList.takeWhile (· = '/') = first.toList.takeWhile (· = '/') := by
  rcases join_cases first h with ⟨hempty, -⟩ | ⟨before, hbefore, hjoin⟩ | ⟨-, hlast, hjoin⟩
  · exact absurd hempty hfirst
  · have hsecond : second.toList.takeWhile (· = '/') = [] := by
      cases hs : second.toList with
      | nil => rfl
      | cons c cs =>
        have hc : c ≠ '/' := by simpa [isAbsolute, hs] using h
        exact List.takeWhile_cons_of_neg (by simpa using hc)
    rw [hjoin, ← hbefore, String.toList_append, List.takeWhile_append, hsecond, List.append_nil]
    split
    · next hlen => exact ((List.takeWhile_prefix _).eq_of_length hlen).symm
    · rfl
  · rw [hjoin, String.append_assoc, String.toList_append, List.takeWhile_append, if_neg]
    intro hlen
    -- The path is not made of slashes alone, since it does not end in one.
    have hall := List.takeWhile_eq_self_iff.mp ((List.takeWhile_prefix _).eq_of_length hlen)
    have hne : first.toList ≠ [] := fun hnil => hfirst (String.toList_injective hnil)
    have hslash := hall _ (List.getLast_mem hne)
    rw [List.getLast?_eq_some_getLast hne] at hlast
    exact hlast (by simpa using hslash)

theorem rootText_join (hfirst : first ≠ "") (h : isAbsolute second = false) :
    rootText (join first second) = rootText first := by
  rw [rootText, takeWhile_join hfirst h, rootText]

theorem names_append_slashes (path : String) (n : Nat) :
    names (path ++ String.ofList (List.replicate n '/')) = names path := by
  induction n generalizing path with
  | zero => simp
  | succ n ih =>
    have hlist : path ++ String.ofList (List.replicate (n + 1) '/') =
        path ++ "/" ++ String.ofList (List.replicate n '/') := by
      refine String.toList_injective ?_
      simp [List.replicate_succ]
    have hslash := names_slash path ""
    rw [String.append_empty] at hslash
    have hnone : names "" = [] := rfl
    rw [hlist, ih, hslash, hnone, List.append_nil]

theorem baseName_of_no_slash (h : '/' ∉ path.toList) : baseName path = path := by
  rw [baseName, parts_of_no_slash h]
  rfl

theorem baseName_slash (before : String) {last : String} (h : '/' ∉ last.toList) :
    baseName (before ++ "/" ++ last) = last := by
  rw [baseName, parts_slash, parts_of_no_slash h, List.getLastD_eq_getLast?, List.getLast?_concat]
  rfl

/-- The folder of a path and the slashes behind it make up everything before the last part. -/
theorem exists_slashes (before : String) {last : String} (h : '/' ∉ last.toList) :
    ∃ n, before ++ "/" =
        folderName (before ++ "/" ++ last) ++ String.ofList (List.replicate n '/') ∧
      folderName (before ++ "/" ++ last) ≠ "" := by
  have hhead : (before ++ "/" ++ last).toList.take
      ((before ++ "/" ++ last).toList.length - last.length) = before.toList ++ ['/'] := by
    rw [String.toList_append, List.length_append, String.length_toList, String.length_toList,
      Nat.add_sub_cancel, ← String.length_toList, List.take_left]
    simp
  have hlist : (before ++ "/").toList = before.toList ++ ['/'] := by simp
  unfold folderName
  dsimp only
  rw [baseName_slash before h, hhead]
  split
  · refine ⟨0, String.toList_injective ?_, ?_⟩
    · simp
    · rw [← hlist, String.ofList_toList]
      simp
  · next htrimmed =>
    obtain ⟨n, hn⟩ := Text.exists_append_dropEnd '/' (before.toList ++ ['/'])
    refine ⟨n, String.toList_injective ?_, ?_⟩
    · rw [hlist, String.toList_append, String.toList_ofList, String.toList_ofList]
      exact hn
    · intro hempty
      have hnil := congrArg String.toList hempty
      rw [String.toList_ofList] at hnil
      exact htrimmed (by rw [hnil]; rfl)

theorem folderName_of_no_slash (h : '/' ∉ path.toList) : folderName path = "" := by
  have hhead : path.toList.take (path.toList.length - (baseName path).length) = [] := by
    rw [baseName_of_no_slash h, String.length_toList, Nat.sub_self, List.take_zero]
  unfold folderName
  dsimp only
  rw [hhead]
  rfl

/-- The folder of a path and its last part have the names of the path. -/
theorem names_folderName (path : String) :
    names (folderName path) ++ names (baseName path) = names path := by
  by_cases h : '/' ∈ path.toList
  · obtain ⟨before, last, rfl, hlast⟩ := Text.exists_last_of_mem "/" rfl h
    obtain ⟨n, hn, -⟩ := exists_slashes before hlast
    have hbefore : names (before ++ "/") = names before := names_append_slashes before 1
    rw [hn, names_append_slashes] at hbefore
    rw [hbefore, baseName_slash before hlast, names_slash]
  · rw [folderName_of_no_slash h, baseName_of_no_slash h]
    rfl

theorem isAbsolute_folderName (path : String) :
    isAbsolute (folderName path) = isAbsolute path := by
  by_cases h : '/' ∈ path.toList
  · obtain ⟨before, last, rfl, hlast⟩ := Text.exists_last_of_mem "/" rfl h
    obtain ⟨n, hn, hfolder⟩ := exists_slashes before hlast
    have habsolute := isAbsolute_append hfolder (String.ofList (List.replicate n '/'))
    rw [← hn] at habsolute
    have hne : before ++ "/" ≠ "" := by simp
    rw [← habsolute, isAbsolute_append hne last]
  · rw [folderName_of_no_slash h]
    refine (decide_eq_false ?_).symm
    intro hhead
    exact h (List.mem_of_mem_head? hhead)

theorem baseName_below {root : String} (hns : ∀ name ∈ ns, IsName name) (hname : IsName name) :
    baseName (below root (ns ++ [name])) = name := by
  obtain ⟨before, hbefore⟩ := parts_below root
  have hparts := hbefore (ns ++ [name]) (by simp) (isName_concat hns hname)
  rw [baseName, hparts, List.getLastD_eq_getLast?, ← List.append_assoc, List.getLast?_concat]
  rfl

theorem intercalate_concat (name other : String) (ns : List String) :
    "/".intercalate (other :: ns ++ [name]) = "/".intercalate (other :: ns) ++ "/" ++ name := by
  induction ns generalizing other with
  | nil =>
    rw [List.singleton_append, String.intercalate_cons_cons, String.intercalate_singleton,
      String.intercalate_singleton]
  | cons next ns ih =>
    have hnext := ih next
    rw [List.cons_append] at hnext
    rw [List.cons_append, List.cons_append, String.intercalate_cons_cons, hnext,
      String.intercalate_cons_cons]
    simp only [String.append_assoc]

theorem baseName_way (ns : List String) (hname : IsName name) :
    baseName (way (ns ++ [name])) = name := by
  have hway : way (ns ++ [name]) = "/".intercalate (ns ++ [name]) := if_neg (by simp)
  rw [hway]
  cases ns with
  | nil =>
    rw [List.nil_append, String.intercalate_singleton, baseName_of_no_slash hname.no_slash]
  | cons other ns => rw [intercalate_concat, baseName_slash _ hname.no_slash]

/-- The folder of a way leads through all names but the last one. -/
theorem moves_folderName_way (hns : ∀ name ∈ ns, IsName name) (hname : IsName name) :
    moves (folderName (way (ns ++ [name]))) = ns := by
  have hway : way (ns ++ [name]) = "/".intercalate (ns ++ [name]) := if_neg (by simp)
  have hboth := names_folderName (way (ns ++ [name]))
  rw [baseName_way ns hname, names_name hname, hway, names_intercalate (isName_concat hns hname),
    ← hway] at hboth
  exact moves_of_names (List.append_cancel_right hboth) hns

theorem isAbsolute_way (h : ∀ name ∈ ns, IsName name) : isAbsolute (way ns) = false := by
  cases ns with
  | nil => decide
  | cons name ns =>
    have hname := h name List.mem_cons_self
    obtain ⟨rest, hrest⟩ : ∃ rest, way (name :: ns) = name ++ rest := by
      cases ns with
      | nil => exact ⟨"", by simp [way]⟩
      | cons other ns =>
        refine ⟨"/" ++ "/".intercalate (other :: ns), ?_⟩
        rw [← String.append_assoc]
        exact String.intercalate_cons_cons
    rw [hrest, isAbsolute_append hname.nonempty, hname.relative]

theorem exists_mem_parts_way (h : ∀ name ∈ ns, IsName name) :
    ∃ part ∈ parts (way ns), part ≠ "" := by
  obtain ⟨part, hpart⟩ : ∃ part, part ∈ names (way ns) := by
    cases ns with
    | nil => exact ⟨".", by decide⟩
    | cons name ns =>
      have hway : way (name :: ns) = "/".intercalate (name :: ns) := rfl
      rw [hway, names_intercalate h]
      exact ⟨name, List.mem_cons_self⟩
  obtain ⟨hmem, hne⟩ := List.mem_filter.mp hpart
  exact ⟨part, hmem, by simpa using hne⟩

/-- A path that leads down from a folder through names. -/
inductive Downward (folder : String) : List String → String → Prop where
  | here : Downward folder [] folder
  | down {ms ns : List String} {path more : String} (h : Downward folder ms path)
      (hrelative : isAbsolute more = false) (hmoves : moves more = ns)
      (hnames : ∀ name ∈ ns, IsName name) : Downward folder (ms ++ ns) (join path more)

theorem Downward.isName (h : Downward output ms p) : ∀ name ∈ ms, IsName name := by
  induction h with
  | here => simp
  | down _ _ _ hnames ih =>
    intro name hname
    rcases List.mem_append.mp hname with hname | hname
    · exact ih name hname
    · exact hnames name hname

theorem Downward.ne_empty (h : Downward output ms p) (houtput : output ≠ "") : p ≠ "" := by
  induction h with
  | here => exact houtput
  | down _ hrelative _ _ ih => exact join_ne_empty hrelative ih

theorem Downward.isAbsolute_eq (h : Downward output ms p) (houtput : output ≠ "") :
    isAbsolute p = isAbsolute output := by
  induction h with
  | here => rfl
  | down h hrelative _ _ ih =>
    rw [isAbsolute_join_relative hrelative (h.ne_empty houtput), ih]

theorem Downward.moves_eq (h : Downward output ms p) : moves p = moves output ++ ms := by
  induction h with
  | here => rw [List.append_nil]
  | down _ hrelative hmoves _ ih => rw [moves_join _ hrelative, ih, hmoves, List.append_assoc]

theorem Downward.rootText_eq (h : Downward output ms p) (houtput : output ≠ "") :
    rootText p = rootText output := by
  induction h with
  | here => rfl
  | down h hrelative _ _ ih => rw [rootText_join (h.ne_empty houtput) hrelative, ih]

/-- A path that leads down starts with the text of the folder. -/
theorem Downward.exists_eq_append (h : Downward output ms p) : ∃ rest, p = output ++ rest := by
  induction h with
  | here => exact ⟨"", by simp⟩
  | down _ hrelative _ _ ih =>
    obtain ⟨rest, hrest⟩ := ih
    obtain ⟨more, hmore⟩ := exists_join_eq_append hrelative
    exact ⟨rest ++ more, by rw [hmore, hrest, String.append_assoc]⟩

end Path

namespace World

open CMakeDocs.Path

variable {w : World} {output p q : String} {ms ns : List String}

theorem moves_join_downward (houtput : output ≠ "") (h : Downward output ms p) :
    moves (join w.current p) = moves (join w.current output) ++ ms := by
  have hsame := h.isAbsolute_eq houtput
  cases habsolute : isAbsolute output with
  | true =>
    rw [habsolute] at hsame
    rw [join_of_absolute _ habsolute, join_of_absolute _ hsame, h.moves_eq]
  | false =>
    rw [habsolute] at hsame
    rw [moves_join _ habsolute, moves_join _ hsame, h.moves_eq, List.append_assoc]

theorem rootText_join_downward (hcurrent : isAbsolute w.current = true) (houtput : output ≠ "")
    (h : Downward output ms p) :
    rootText (join w.current p) = rootText (join w.current output) := by
  have hsame := h.isAbsolute_eq houtput
  cases habsolute : isAbsolute output with
  | true =>
    rw [habsolute] at hsame
    rw [join_of_absolute _ habsolute, join_of_absolute _ hsame, h.rootText_eq houtput]
  | false =>
    rw [habsolute] at hsame
    have hne : w.current ≠ "" := by
      intro hempty
      rw [hempty] at hcurrent
      cases hcurrent
    rw [rootText_join hne habsolute, rootText_join hne hsame]

theorem names_absolute_downward (hcurrent : isAbsolute w.current = true) (houtput : output ≠ "")
    (h : Downward output ms p) : names (w.absolute p) = names (w.absolute output) ++ ms := by
  rw [names_absolute hcurrent, names_absolute hcurrent, ← normalizeParts_moves,
    ← normalizeParts_moves, moves_join_downward houtput h, normalizeParts_append _ _ _ h.isName]

/-- Paths that lead down from a folder are the same just if they lead through the same names. -/
theorem absolute_downward_inj (hcurrent : isAbsolute w.current = true) (houtput : output ≠ "")
    (hp : Downward output ms p) (hq : Downward output ns q) :
    w.absolute p = w.absolute q ↔ ms = ns := by
  constructor
  · intro h
    have hnames := congrArg names h
    rw [names_absolute_downward hcurrent houtput hp, names_absolute_downward hcurrent houtput hq]
      at hnames
    exact List.append_cancel_left hnames
  · rintro rfl
    have hsame : moves (join w.current p) = moves (join w.current q) := by
      rw [moves_join_downward houtput hp, moves_join_downward houtput hq]
    rw [absolute, absolute, Path.absolute, Path.absolute,
      normalize_eq (isAbsolute_join hcurrent p), normalize_eq (isAbsolute_join hcurrent q),
      rootText_join_downward hcurrent houtput hp, rootText_join_downward hcurrent houtput hq,
      ← normalizeParts_moves, ← normalizeParts_moves, hsame]

end World

end CMakeDocs
