import CMakeDocs.Proofs.Stems
import Mathlib.Data.List.Basic
import Mathlib.Tactic.Ring

/-!
# Titles and module paths

What stands below a root is titled by its way from there, behind the name of the root and a
separator. The way has slashes between its names whatever the separator is, and the root itself has
the way `.`, which is told from a name only by a look at the separator. So a title is the module
path that the names give on the first level, or where the separator is a slash, and that of the root
where it is a dot. An ending is taken off a title only if it is written in small letters.
-/
namespace CMakeDocs

namespace Text

variable {sep : String} {ns : List String}

theorem length_intercalate (sep name : String) (ns : List String) :
    (sep.intercalate (name :: ns)).length =
      ((name :: ns).map String.length).sum + ns.length * sep.length := by
  induction ns generalizing name with
  | nil => simp
  | cons next ns ih =>
    rw [String.intercalate_cons_cons, String.length_append, String.length_append, ih,
      List.map_cons, List.map_cons, List.sum_cons, List.sum_cons, List.map_cons, List.sum_cons,
      List.length_cons]
    ring

/-- Names that are joined by slashes are joined by a separator just if there is no place for one, or
if it is a slash. -/
theorem intercalate_slash_eq_iff (h : ns ≠ []) :
    "/".intercalate ns = sep.intercalate ns ↔ ns.length = 1 ∨ sep = "/" := by
  match ns with
  | [name] => simp
  | first :: second :: ns =>
    refine ⟨fun hsame => .inr ?_, fun hslash => ?_⟩
    · have hlength : (ns.length + 1) * sep.length = (ns.length + 1) * 1 := by
        have hboth := congrArg String.length hsame
        rw [length_intercalate, length_intercalate, Nat.add_left_cancel_iff] at hboth
        exact hboth.symm
      have hone : sep.length = "/".length := Nat.eq_of_mul_eq_mul_left (Nat.succ_pos _) hlength
      rw [String.intercalate_cons_cons, String.intercalate_cons_cons, String.append_assoc,
        String.append_assoc] at hsame
      have hlists := congrArg String.toList hsame
      simp only [String.toList_append, List.append_cancel_left_eq] at hlists
      exact String.toList_injective (List.append_inj hlists hone.symm).1.symm
    · rw [hslash.resolve_left (by simp)]

end Text

namespace Site

variable {top sep name before : String} {ns : List String}

theorem dropEnding_append (before : String) : dropEnding (before ++ ".cmake") = before := by
  refine String.toList_injective ?_
  simp [dropEnding]

/-- Nothing is taken off where the ending is another one. -/
theorem dropEnding_eq_self (hending : ¬ ".cmake".toList <:+ name.toList)
    (hlast : name.toList.getLast? ≠ some '\n') : dropEnding name = name := by
  have hline : ¬ ".cmake".toList ++ ['\n'] <:+ name.toList := by
    rintro ⟨rest, hrest⟩
    rw [← List.append_assoc] at hrest
    exact hlast (by rw [← hrest, List.getLast?_concat])
  unfold dropEnding
  dsimp only
  rw [if_neg (by rwa [List.isSuffixOf_iff_suffix]), if_neg (by rwa [List.isSuffixOf_iff_suffix])]

theorem length_dropEnding_le (name : String) : (dropEnding name).length ≤ name.length := by
  have hlength : name.length = name.toList.length := String.length_toList.symm
  unfold dropEnding
  dsimp only
  split
  · rw [String.length_ofList, hlength]
    exact List.length_take_le' _ _
  · split
    · next hsuffix =>
      have hle := (List.isSuffixOf_iff_suffix.mp hsuffix).length_le
      rw [String.length_ofList, hlength, List.length_append, List.length_take]
      simp only [List.length_append, List.length_singleton] at hle ⊢
      omega
    · exact le_refl _

/-- The names from the root on, with a separator between them. -/
def modulePath (top sep : String) (ns : List String) : String := sep.intercalate (top :: ns)

/-- The title of what stands at the end of some names. -/
def pathTitle (top sep : String) (ns : List String) : String :=
  if Path.way ns = sep then top else top ++ sep ++ Path.way ns

/-- The title of the page of a file. -/
def pageTitle (top sep : String) (ns : List String) (name : String) : String :=
  dropEnding (pathTitle top sep (ns ++ [name]))

theorem way_of_ne_nil (h : ns ≠ []) : Path.way ns = "/".intercalate ns := if_neg (by simpa using h)

theorem modulePath_of_ne_nil (h : ns ≠ []) :
    modulePath top sep ns = top ++ sep ++ sep.intercalate ns :=
  String.intercalate_cons_of_ne_nil h

/-- A title that is not longer than the name of the root is no module path. -/
theorem ne_modulePath {title : String} (hsep : sep ≠ "") (hns : ns ≠ [])
    (h : title.length ≤ top.length) : title ≠ modulePath top sep ns := by
  have hpos : 0 < sep.length := by
    rw [← String.length_toList]
    exact List.length_pos_iff.mpr fun hnil => hsep (String.toList_injective hnil)
  rw [modulePath_of_ne_nil hns]
  rintro rfl
  rw [String.length_append, String.length_append] at h
  omega

theorem way_ne_empty (h : ∀ part ∈ ns, Path.IsName part) : Path.way ns ≠ "" := by
  intro hempty
  obtain ⟨part, hpart, hne⟩ := Path.exists_mem_parts_way h
  rw [hempty] at hpart
  exact hne (by simpa [Path.parts, Text.splitChars] using hpart)

theorem pathTitle_of_ne (h : Path.way ns ≠ sep) :
    pathTitle top sep ns = top ++ sep ++ Path.way ns := if_neg h

/-- The root is titled with its name just if the separator is a dot. -/
theorem pathTitle_root_iff : pathTitle top sep [] = top ↔ sep = "." := by
  have hway : Path.way [] = "." := rfl
  constructor
  · intro h
    by_contra hsep
    rw [pathTitle_of_ne (fun hdot => hsep (hdot.symm.trans hway)), hway] at h
    have hlength := congrArg String.length h
    rw [String.length_append, String.length_append] at hlength
    have hone : ".".length = 1 := rfl
    omega
  · rintro rfl
    exact if_pos hway

theorem pathTitle_eq_iff (hne : ns ≠ []) (hns : ∀ part ∈ ns, Path.IsName part) :
    pathTitle top sep ns = modulePath top sep ns ↔
      Path.way ns ≠ sep ∧ (ns.length = 1 ∨ sep = "/") := by
  by_cases hway : Path.way ns = sep
  · have hsep : sep ≠ "" := hway ▸ way_ne_empty hns
    have htitle : pathTitle top sep ns = top := if_pos hway
    simp [hway, htitle, ne_modulePath hsep hne (le_refl top.length)]
  · rw [pathTitle_of_ne hway, modulePath_of_ne_nil hne, way_of_ne_nil hne, and_iff_right (by
      rwa [← way_of_ne_nil hne]), ← Text.intercalate_slash_eq_iff hne]
    exact String.append_right_inj _

/-- An ending is the last part of a way. -/
theorem way_concat_append (ns : List String) (before ending : String) :
    Path.way (ns ++ [before ++ ending]) = "/".intercalate (ns ++ [before]) ++ ending := by
  rw [way_of_ne_nil (by simp)]
  cases ns with
  | nil => simp
  | cons first ns =>
    rw [String.intercalate_append_of_ne_nil (by simp) (by simp),
      String.intercalate_append_of_ne_nil (by simp) (by simp), String.intercalate_singleton,
      String.intercalate_singleton, String.append_assoc, String.append_assoc, String.append_assoc]

theorem endsInSmallCMake_iff :
    endsInSmallCMake name = true ↔ ∃ before, name = before ++ ".cmake" := by
  rw [endsInSmallCMake, List.isSuffixOf_iff_suffix]
  constructor
  · rintro ⟨before, hbefore⟩
    exact ⟨String.ofList before, String.toList_injective (by simp [← hbefore])⟩
  · rintro ⟨before, rfl⟩
    exact ⟨before.toList, by simp⟩

theorem pageTitle_eq_iff (hns : ∀ part ∈ ns, Path.IsName part) (hname : Path.IsName name)
    (hending : endsInSmallCMake name = true) :
    pageTitle top sep ns name = modulePath top sep (ns ++ [Path.stem name]) ↔
      Path.way (ns ++ [name]) ≠ sep ∧ (ns = [] ∨ sep = "/") := by
  obtain ⟨before, rfl⟩ := endsInSmallCMake_iff.mp hending
  have hstem : Path.stem (before ++ ".cmake") = before := by
    rw [show ".cmake" = "." ++ "cmake" from rfl, ← String.append_assoc]
    exact Path.stem_dot before (by decide)
  have hne : ns ++ [before] ≠ [] := by simp
  rw [hstem, pageTitle]
  by_cases hway : Path.way (ns ++ [before ++ ".cmake"]) = sep
  · have hsep : sep ≠ "" := hway ▸ way_ne_empty (Path.isName_concat hns hname)
    have htitle : pathTitle top sep (ns ++ [before ++ ".cmake"]) = top := if_pos hway
    simp [hway, htitle, ne_modulePath hsep hne (length_dropEnding_le top)]
  · have hlength : (ns ++ [before]).length = 1 ↔ ns = [] := by simp
    rw [pathTitle_of_ne hway, way_concat_append, ← String.append_assoc, dropEnding_append,
      modulePath_of_ne_nil hne, and_iff_right (by rwa [← way_concat_append]), ← hlength,
      ← Text.intercalate_slash_eq_iff hne]
    exact String.append_right_inj _

/-- An ending with large letters stays. -/
theorem pageTitle_eq_pathTitle (hcmake : endsInCMake name = true)
    (hending : endsInSmallCMake name = false) (hway : Path.way (ns ++ [name]) ≠ sep) :
    pageTitle top sep ns name = pathTitle top sep (ns ++ [name]) := by
  obtain ⟨before, hbefore⟩ : ∃ before, pathTitle top sep (ns ++ [name]) = before ++ name := by
    have hconcat := way_concat_append ns "" name
    rw [String.empty_append] at hconcat
    rw [pathTitle_of_ne hway, hconcat]
    exact ⟨_, (String.append_assoc ..).symm⟩
  obtain ⟨rest, hrest⟩ : ∃ rest, rest ++ ".cmake".toList = name.toList.map Text.small := by
    rw [endsInCMake, List.isSuffixOf_iff_suffix, Text.toSmall] at hcmake
    obtain ⟨rest, hrest⟩ := hcmake
    exact ⟨rest, by rw [hrest]; simp⟩
  have hshort : ".cmake".toList.length ≤ name.toList.length := by
    have hlength := congrArg List.length hrest
    rw [List.length_append, List.length_map] at hlength
    omega
  rw [pageTitle, hbefore]
  refine dropEnding_eq_self ?_ ?_
  · intro hsuffix
    rw [String.toList_append] at hsuffix
    have hsmall := List.suffix_of_suffix_length_le hsuffix (List.suffix_append _ _) hshort
    rw [endsInSmallCMake, List.isSuffixOf_iff_suffix.mpr hsmall] at hending
    cases hending
  · -- Letter case aside, the last letter is that of the ending.
    intro hlast
    have hne : name.toList ≠ [] := by
      intro hnil
      rw [hnil] at hshort
      cases hshort
    rw [String.toList_append, List.getLast?_append_of_ne_nil _ hne] at hlast
    have hletter := congrArg List.getLast? hrest
    rw [List.getLast?_map, hlast, List.getLast?_append_of_ne_nil _ (by simp)] at hletter
    exact absurd hletter (by decide)

/-- When titles are module paths. -/
structure TitleRules (top sep : String) : Prop where
  root : pathTitle top sep [] = modulePath top sep [] ↔ sep = "."
  folder : ∀ ns, ns ≠ [] → (∀ part ∈ ns, Path.IsName part) →
    (pathTitle top sep ns = modulePath top sep ns ↔
      Path.way ns ≠ sep ∧ (ns.length = 1 ∨ sep = "/"))
  file : ∀ ns name, (∀ part ∈ ns, Path.IsName part) → Path.IsName name →
    endsInSmallCMake name = true →
    (pageTitle top sep ns name = modulePath top sep (ns ++ [Path.stem name]) ↔
      Path.way (ns ++ [name]) ≠ sep ∧ (ns = [] ∨ sep = "/"))
  /-- Only an ending in small letters is left out of a title. -/
  ending : ∀ ns name, endsInCMake name = true → endsInSmallCMake name = false →
    Path.way (ns ++ [name]) ≠ sep →
    pageTitle top sep ns name = pathTitle top sep (ns ++ [name])
  /-- A file that is called like an extension may have the title of its folder. -/
  bare : sep = "." → pageTitle top sep [] "cmake" = top

theorem titleRules (top sep : String) : TitleRules top sep where
  root := by
    rw [modulePath, String.intercalate_singleton]
    exact pathTitle_root_iff
  folder _ := pathTitle_eq_iff
  file _ _ := pageTitle_eq_iff
  ending _ _ := pageTitle_eq_pathTitle
  bare := by
    rintro rfl
    have hway : Path.way ([] ++ ["cmake"]) ≠ "." := by decide
    rw [pageTitle, pathTitle_of_ne hway, String.append_assoc]
    exact dropEnding_append top

end Site

end CMakeDocs
