import CMakeDocs.Proofs.Downward
import CMakeDocs.Site

/-!
# Stems

The stem of a name is what stands before its last dot. A name without a dot has an empty one, and
is all extension. That is where the two ways to tell a CMake file from another differ: by its
extension, the name `cmake` is one of a CMake file, although it does not end in `.cmake`.
-/
namespace CMakeDocs

variable {name before last : String}

namespace Path

theorem splitDots_dot (before : String) (h : '.' ∉ last.toList) :
    Text.splitDots (before ++ "." ++ last) = Text.splitDots before ++ [last] := by
  have hlist : (before ++ "." ++ last).toList = before.toList ++ '.' :: last.toList := by simp
  rw [Text.splitDots, hlist, Text.splitChars_append, Text.splitChars_of_not_mem h, List.map_append]
  simp [Text.splitDots]

theorem stem_dot (before : String) (h : '.' ∉ last.toList) :
    stem (before ++ "." ++ last) = before := by
  refine String.toList_injective ?_
  have hmark : ".".toList = ['.'] := rfl
  rw [stem, splitDots_dot before h, List.dropLast_concat, Text.toList_intercalate hmark,
    Text.splitDots, List.map_map]
  have hid : String.toList ∘ String.ofList = id := by
    funext cs
    simp
  rw [hid, List.map_id, Text.joinChars_splitChars]

theorem extension_dot (before : String) (h : '.' ∉ last.toList) :
    extension (before ++ "." ++ last) = last := by
  rw [extension, splitDots_dot before h, List.getLastD_eq_getLast?, List.getLast?_concat]
  rfl

theorem splitDots_of_no_dot (h : '.' ∉ name.toList) : Text.splitDots name = [name] := by
  rw [Text.splitDots, Text.splitChars_of_not_mem h]
  simp

theorem stem_of_no_dot (h : '.' ∉ name.toList) : stem name = "" := by
  rw [stem, splitDots_of_no_dot h]
  rfl

theorem extension_of_no_dot (h : '.' ∉ name.toList) : extension name = name := by
  rw [extension, splitDots_of_no_dot h]
  rfl

theorem no_slash_stem (h : '/' ∉ name.toList) : '/' ∉ (stem name).toList := by
  by_cases hdot : '.' ∈ name.toList
  · obtain ⟨before, last, rfl, hlast⟩ := Text.exists_last_of_mem "." rfl hdot
    rw [stem_dot before hlast]
    intro hmem
    exact h (by simp [hmem])
  · rw [stem_of_no_dot hdot]
    simp

/-- A page has a name like that of any file. -/
theorem isName_page (h : '/' ∉ name.toList) : IsName (name ++ ".rst") := by
  have hlength : (name ++ ".rst").length = name.length + 4 := by
    rw [String.length_append]
    rfl
  refine ⟨?_, ?_, ?_, ?_⟩
  · intro hsame
    rw [hsame] at hlength
    simp at hlength
  · intro hsame
    rw [hsame] at hlength
    have hone : ".".length = 1 := rfl
    omega
  · intro hsame
    rw [hsame] at hlength
    have htwo : "..".length = 2 := rfl
    omega
  · simp [h]

end Path

namespace Text

theorem small_eq_dot {c : Char} : small c = '.' ↔ c = '.' := by
  constructor
  · intro h
    unfold small at h
    split at h
    · cases h
    · unfold Char.toLower at h
      split at h
      · next hletter =>
        -- The small letters come after the dot.
        have hfirst : 65 ≤ c.val.toNat := hletter.1
        have hlast : c.val.toNat ≤ 90 := hletter.2
        have hval : (c.val + 32).toNat = 46 := congrArg Char.toNat h
        rw [UInt32.toNat_add] at hval
        have hstep : (32 : UInt32).toNat = 32 := rfl
        omega
      · exact h
  · rintro rfl
    decide

theorem dot_mem_toSmall : '.' ∈ (toSmall name).toList ↔ '.' ∈ name.toList := by
  rw [toSmall, String.toList_ofList, List.mem_map]
  constructor
  · rintro ⟨c, hc, hsmall⟩
    rwa [← small_eq_dot.mp hsmall]
  · intro h
    exact ⟨'.', h, small_eq_dot.mpr rfl⟩

theorem toSmall_dot (before last : String) :
    toSmall (before ++ "." ++ last) = toSmall before ++ "." ++ toSmall last := by
  refine String.toList_injective ?_
  have hdot : small '.' = '.' := small_eq_dot.mpr rfl
  simp [toSmall, hdot]

end Text

namespace Site

/-- By its extension, a file is a CMake file if its name ends in `.cmake`, and besides if it is
`cmake`. -/
theorem isCMakeName_iff : isCMakeName name = true ↔
    endsInCMake name = true ∨ Text.toSmall name = "cmake" := by
  unfold isCMakeName endsInCMake
  rw [decide_eq_true_iff, List.isSuffixOf_iff_suffix]
  by_cases hdot : '.' ∈ name.toList
  · obtain ⟨before, last, rfl, hlast⟩ := Text.exists_last_of_mem "." rfl hdot
    have hsmall : '.' ∉ (Text.toSmall last).toList := fun hmem =>
      hlast (Text.dot_mem_toSmall.mp hmem)
    have hextension := Path.extension_dot (Text.toSmall before) hsmall
    rw [Path.extension_dot before hlast]
    constructor
    · intro hcmake
      rw [Text.toSmall_dot, hcmake]
      exact .inl ⟨(Text.toSmall before).toList, by simp⟩
    · rintro (⟨rest, hrest⟩ | hsame)
      · -- Both dots are the last one, so the same text stands behind them.
        have hwhole : Text.toSmall (before ++ "." ++ last) =
            String.ofList rest ++ "." ++ "cmake" := by
          refine String.toList_injective ?_
          rw [← hrest]
          simp
        rw [← Text.toSmall_dot, hwhole, Path.extension_dot _ (by decide)] at hextension
        exact hextension.symm
      · have hmem : '.' ∈ (Text.toSmall (before ++ "." ++ last)).toList :=
          Text.dot_mem_toSmall.mpr hdot
        rw [hsame] at hmem
        exact absurd hmem (by decide)
  · rw [Path.extension_of_no_dot hdot]
    refine ⟨.inr, ?_⟩
    rintro (hsuffix | hsame)
    · have hmem : '.' ∈ (Text.toSmall name).toList := hsuffix.subset (by decide)
      exact absurd (Text.dot_mem_toSmall.mp hmem) hdot
    · exact hsame

end Site

end CMakeDocs
