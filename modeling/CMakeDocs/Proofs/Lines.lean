import CMakeDocs.Text.Lines

/-!
# Lines

Cutting a text into lines undoes joining lines that have no line feed in them. A part without a
line feed that occurs in a text occurs in one of its lines.
-/
namespace CMakeDocs.Text

variable {sep : Char}

theorem splitChars_of_not_mem {cs : List Char} (h : sep ∉ cs) : splitChars sep cs = [cs] := by
  induction cs with
  | nil => rfl
  | cons c cs ih =>
    have hc : sep ≠ c := List.ne_of_not_mem_cons h
    have hcs : sep ∉ cs := List.not_mem_of_not_mem_cons h
    rw [splitChars, ih hcs]
    simp [Ne.symm hc]

theorem splitChars_append_sep {cs : List Char} (h : sep ∉ cs) (rest : List Char) :
    splitChars sep (cs ++ sep :: rest) = cs :: splitChars sep rest := by
  induction cs with
  | nil =>
    rw [List.nil_append, splitChars]
    split
    · next hnil => exact absurd hnil (splitChars_ne_nil sep rest)
    · next hcons => simp [hcons]
  | cons c cs ih =>
    have hc : sep ≠ c := List.ne_of_not_mem_cons h
    have hcs : sep ∉ cs := List.not_mem_of_not_mem_cons h
    rw [List.cons_append, splitChars, ih hcs]
    simp [Ne.symm hc]

/-- Cutting at a separator leaves two texts that are cut by themselves. -/
theorem splitChars_append (cs rest : List Char) :
    splitChars sep (cs ++ sep :: rest) = splitChars sep cs ++ splitChars sep rest := by
  induction cs with
  | nil => exact splitChars_append_sep (List.not_mem_nil) rest
  | cons c cs ih =>
    obtain ⟨piece, pieces, hcs⟩ := List.exists_cons_of_ne_nil (splitChars_ne_nil sep cs)
    rw [List.cons_append, splitChars, ih, splitChars, hcs, List.cons_append]
    dsimp only
    split <;> rfl

theorem not_mem_of_mem_splitChars {cs piece : List Char} (h : piece ∈ splitChars sep cs) :
    sep ∉ piece := by
  induction cs generalizing piece with
  | nil => simp_all [splitChars]
  | cons c cs ih =>
    obtain ⟨first, pieces, hcs⟩ := List.exists_cons_of_ne_nil (splitChars_ne_nil sep cs)
    rw [hcs] at ih
    rw [splitChars, hcs] at h
    dsimp only at h
    by_cases hc : c = sep
    · rw [if_pos hc] at h
      rcases List.mem_cons.mp h with rfl | h
      · exact List.not_mem_nil
      · exact ih h
    · rw [if_neg hc] at h
      rcases List.mem_cons.mp h with rfl | h
      · exact List.not_mem_cons_of_ne_of_not_mem (Ne.symm hc) (ih List.mem_cons_self)
      · exact ih (List.mem_cons_of_mem first h)

theorem splitChars_joinChars {ls : List (List Char)} (hne : ls ≠ []) (h : ∀ l ∈ ls, sep ∉ l) :
    splitChars sep (joinChars sep ls) = ls := by
  induction ls with
  | nil => exact absurd rfl hne
  | cons l ls ih =>
    obtain ⟨hl, hls⟩ := List.forall_mem_cons.mp h
    cases ls with
    | nil => exact splitChars_of_not_mem hl
    | cons l' ls =>
      rw [joinChars, splitChars_append_sep hl, ih (by simp) hls]
      simp

theorem joinChars_concat (ls : List (List Char)) (last : List Char) :
    joinChars sep (ls ++ [last]) = ls.flatMap (· ++ [sep]) ++ last := by
  induction ls with
  | nil => rfl
  | cons l ls ih =>
    obtain ⟨l', ls', hls⟩ : ∃ l' ls', ls ++ [last] = l' :: ls' :=
      List.exists_cons_of_ne_nil (by simp)
    rw [List.cons_append, hls, joinChars, ← hls, ih]
    · simp
    · simp

theorem toList_intercalate {mark : String} (hmark : mark.toList = [sep]) (ls : List String) :
    (mark.intercalate ls).toList = joinChars sep (ls.map String.toList) := by
  induction ls with
  | nil => rfl
  | cons l ls ih =>
    cases ls with
    | nil => simp [joinChars]
    | cons l' ls =>
      rw [String.intercalate_cons_cons, String.toList_append, String.toList_append, ih, hmark]
      simp [joinChars]

theorem toList_unlines (ls : List String) :
    (unlines ls).toList = joinChars '\n' (ls.map String.toList) := toList_intercalate rfl ls

/-- A text is split at the last place of a character. -/
theorem exists_last_of_mem {s : String} (mark : String) (hmark : mark.toList = [sep])
    (h : sep ∈ s.toList) :
    ∃ before last, s = before ++ mark ++ last ∧ sep ∉ last.toList := by
  obtain ⟨last, before, hsplit, hlast⟩ := List.eq_append_cons_of_mem (List.mem_reverse.mpr h)
  refine ⟨String.ofList before.reverse, String.ofList last.reverse, ?_, by simpa using hlast⟩
  refine String.toList_injective ?_
  have hlist := congrArg List.reverse hsplit
  rw [List.reverse_reverse] at hlist
  simp [hlist, hmark]

/-- Lines without a line feed are the lines of the text that they make up. -/
theorem lines_unlines {ls : List String} (hne : ls ≠ []) (h : ∀ l ∈ ls, '\n' ∉ l.toList) :
    lines (unlines ls) = ls := by
  rw [lines, toList_unlines, splitChars_joinChars (by simpa using hne) (by simpa using h)]
  simp

/-- The lines of a text make it up again. -/
theorem unlines_lines (s : String) : unlines (lines s) = s := by
  refine String.toList_injective ?_
  rw [toList_unlines, lines, List.map_map]
  simpa [Function.comp_def] using joinChars_splitChars '\n' s.toList

/-- The given lines with a line feed behind each of them. -/
def endedLines (ls : List String) : String := String.join (ls.map (· ++ "\n"))

theorem endedLines_cons (l : String) (ls : List String) :
    endedLines (l :: ls) = l ++ "\n" ++ endedLines ls := by
  simp [endedLines]

theorem endedLines_append (ls ms : List String) :
    endedLines (ls ++ ms) = endedLines ls ++ endedLines ms := by
  simp [endedLines]

theorem toList_endedLines (ls : List String) :
    (endedLines ls).toList = (ls.map String.toList).flatMap (· ++ ['\n']) := by
  induction ls with
  | nil => rfl
  | cons l ls ih => simp [endedLines_cons, ih]

theorem unlines_newline {ls : List String} (hne : ls ≠ []) :
    unlines ls ++ "\n" = endedLines ls := by
  induction ls with
  | nil => exact absurd rfl hne
  | cons l ls ih =>
    cases ls with
    | nil => simp [unlines, endedLines]
    | cons l' ls =>
      rw [endedLines_cons, ← ih (by simp), unlines, String.intercalate_cons_cons, unlines]
      simp [String.append_assoc]

theorem unlines_concat_empty (ls : List String) : unlines (ls ++ [""]) = endedLines ls := by
  refine String.toList_injective ?_
  rw [toList_unlines, List.map_append, List.map_singleton, joinChars_concat, toList_endedLines]
  exact List.append_nil _

theorem occursIn_iff {part cs : List Char} : occursIn part cs = true ↔ part <:+: cs := by
  induction cs with
  | nil => simp [occursIn]
  | cons c cs ih =>
    rw [occursIn, Bool.or_eq_true, ih, List.isPrefixOf_iff_prefix, List.infix_cons_iff]

theorem isPrefixOf_append_sep {part : List Char} (h : sep ∉ part) (cs rest : List Char) :
    part.isPrefixOf (cs ++ sep :: rest) = part.isPrefixOf cs := by
  induction part generalizing cs with
  | nil => simp
  | cons p part ih =>
    have hp : sep ≠ p := List.ne_of_not_mem_cons h
    have hpart : sep ∉ part := List.not_mem_of_not_mem_cons h
    cases cs with
    | nil => simp [List.isPrefixOf, Ne.symm hp]
    | cons c cs => simp [List.isPrefixOf, ih hpart]

theorem occursIn_append_sep {part : List Char} (hne : part ≠ []) (h : sep ∉ part)
    (cs rest : List Char) :
    occursIn part (cs ++ sep :: rest) = (occursIn part cs || occursIn part rest) := by
  induction cs with
  | nil =>
    have hstart := isPrefixOf_append_sep h [] rest
    cases part with
    | nil => exact absurd rfl hne
    | cons p part =>
      rw [List.nil_append] at hstart ⊢
      rw [occursIn.eq_2, hstart]
      simp [List.isPrefixOf, occursIn]
  | cons c cs ih =>
    rw [List.cons_append, occursIn, ih, occursIn, ← List.cons_append, isPrefixOf_append_sep h,
      Bool.or_assoc]

/-- A line feed at the end of a text has no part in what occurs in it. -/
theorem contains_append_newline {part : String} (hne : part.toList ≠ []) (h : '\n' ∉ part.toList)
    (s : String) : contains part (s ++ "\n") = contains part s := by
  have hnil : occursIn part.toList [] = false := by
    rw [occursIn]
    exact List.isEmpty_eq_false_iff.mpr hne
  rw [contains, contains, String.toList_append]
  exact (occursIn_append_sep hne h s.toList []).trans (by rw [hnil, Bool.or_false])

end CMakeDocs.Text
