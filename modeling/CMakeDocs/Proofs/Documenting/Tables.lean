import CMakeDocs.Proofs.Documenting.Tame

/-!
# Tables

A table is written from the start of its lines, wherever it stands. The line below its rows is made
of marks as soon as there is anything to show, so a table keeps to an indentation only if nothing
in it takes a place.
-/
namespace CMakeDocs.Rst

open Text (OneLine endedLines)

section Results

variable {ε α β : Type}

theorem exists_of_bind_ok {x : Except ε α} {f : α → Except ε β} {b : β}
    (h : (x >>= f) = .ok b) : ∃ a, x = .ok a ∧ f a = .ok b := by
  cases x with
  | error e => cases h
  | ok a => exact ⟨a, rfl, h⟩

theorem eq_ok_of_lift {x : Except Misuse α} {a : α} (h : (liftM x : Except Error α) = .ok a) :
    x = .ok a := by
  cases x with
  | error e => cases h
  | ok b =>
    cases h
    rfl

theorem of_mapM_ok {f : α → Except ε β} {as : List α} {bs : List β} (h : as.mapM f = .ok bs) :
    bs.length = as.length ∧ ∀ b ∈ bs, ∃ a, f a = .ok b := by
  induction as generalizing bs with
  | nil =>
    cases h
    simp
  | cons a as ih =>
    rw [List.mapM_cons] at h
    obtain ⟨b, hb, h⟩ := exists_of_bind_ok h
    obtain ⟨more, hmore, h⟩ := exists_of_bind_ok h
    cases h
    obtain ⟨hlength, hmade⟩ := ih hmore
    rw [List.length_cons, List.length_cons, hlength, List.forall_mem_cons]
    exact ⟨rfl, ⟨a, hb⟩, hmade⟩

end Results

namespace Table

variable {t : Table} {columns : Nat} {rows headings v : Value} {items : List Value}

/-- There is nothing in a table without columns, and nothing in a heading without places. -/
structure Regular (t : Table) : Prop where
  width_eq_zero : t.rows.headD [] = [] → t.width = 0
  text_eq_empty : ∀ h ∈ t.headings, h.places = 0 → h.text = ""

theorem greatest_eq_zero_iff (ns : List Nat) : greatest ns = 0 ↔ ∀ n ∈ ns, n = 0 := by
  have hfold : ∀ m, ns.foldl max m = 0 ↔ m = 0 ∧ ∀ n ∈ ns, n = 0 := by
    induction ns with
    | nil => simp
    | cons n ns ih =>
      intro m
      rw [List.foldl_cons, ih, List.forall_mem_cons, ← and_assoc]
      exact and_congr_left' (by omega)
  rw [greatest, hfold, and_iff_right rfl]

theorem width_eq_zero_iff (t : Table) :
    t.width = 0 ↔ (∀ row ∈ t.rows, ∀ cell ∈ row, cell = "") ∧ ∀ h ∈ t.headings, h.places = 0 := by
  rw [width, greatest_eq_zero_iff, List.forall_mem_append, List.forall_mem_map,
    List.forall_mem_map, List.forall_mem_flatten]
  simp only [String.length_eq_zero_iff]

theorem exists_sequence_of_count {n : Nat} (h : v.count = .ok n) :
    ∃ items, v.sequence? = some items ∧ items.length = n := by
  unfold Value.count at h
  cases hv : v.sequence? with
  | none => simp [hv] at h
  | some items => exact ⟨items, rfl, by simpa [hv] using h⟩

theorem sequence_of_iterate (h : v.iterate = .ok items) : v.sequence? = some items := by
  unfold Value.iterate at h
  cases hv : v.sequence? with
  | none => simp [hv] at h
  | some found => simpa [hv] using h

/-- What has a first item can be gone through, and there is something in it. -/
theorem ne_nil_of_item {first : Value} (hfirst : v.item 0 = .ok first)
    (h : v.sequence? = some items) : items ≠ [] := by
  rintro rfl
  cases v with
  | text s =>
    have hs : s.toList = [] := by simpa [Value.sequence?] using h
    simp [Value.item, Value.itemAt?, hs] at hfirst
  | list items =>
    obtain rfl : items = [] := by simpa [Value.sequence?] using h
    simp [Value.item, Value.itemAt?] at hfirst
  | record => simp [Value.item] at hfirst
  | _ => simp [Value.item] at hfirst

/-- The rows of a table are as long as its columns are many. -/
theorem lengths_of_rowsOf {vs : List Value} {cells : List (List String)}
    (h : rowsOf columns vs = .ok cells) :
    cells.length = vs.length ∧ ∀ row ∈ cells, row.length = columns := by
  induction vs generalizing cells with
  | nil =>
    cases h
    simp
  | cons row vs ih =>
    obtain ⟨count, hcount, h⟩ := exists_of_bind_ok h
    by_cases hcolumns : count = columns
    · rw [if_neg (not_not_intro hcolumns)] at h
      obtain ⟨items, hitems, h⟩ := exists_of_bind_ok h
      obtain ⟨more, hmore, h⟩ := exists_of_bind_ok h
      obtain ⟨items', hsequence, hlength⟩ := exists_sequence_of_count (eq_ok_of_lift hcount)
      obtain rfl : items = items' :=
        Option.some.inj ((sequence_of_iterate (eq_ok_of_lift hitems)).symm.trans hsequence)
      obtain ⟨hmoreLength, hrows⟩ := ih hmore
      cases h
      rw [List.length_cons, List.length_cons, hmoreLength, List.forall_mem_cons, List.length_map]
      exact ⟨rfl, hlength.trans hcolumns, hrows⟩
    · rw [if_pos hcolumns] at h
      cases h

theorem text_of_places {h : ColumnHeading} (hv : ColumnHeading.ofValue? v = .ok h)
    (hplaces : h.places = 0) : h.text = "" := by
  unfold ColumnHeading.ofValue? at hv
  split at hv
  · cases hv
    exact String.length_eq_zero_iff.mp hplaces
  · split at hv
    · cases hv
    · cases hv
      obtain rfl := List.length_eq_zero_iff.mp hplaces
      rfl
  · split at hv
    · cases hv
      rfl
    · cases hv
  · cases hv

theorem regular_of_ofValues (h : ofValues? rows headings = .ok t) : t.Regular := by
  obtain ⟨first, hfirst, h⟩ := exists_of_bind_ok h
  obtain ⟨columns, -, h⟩ := exists_of_bind_ok h
  obtain ⟨count, hcount, h⟩ := exists_of_bind_ok h
  by_cases hheadings : (count ≠ 0 && count ≠ columns) = true
  · rw [if_pos hheadings] at h
    cases h
  rw [if_neg hheadings] at h
  obtain ⟨items, hitems, h⟩ := exists_of_bind_ok h
  obtain ⟨cells, hcells, h⟩ := exists_of_bind_ok h
  obtain ⟨titles, htitles, h⟩ := exists_of_bind_ok h
  obtain ⟨-, -, h⟩ := exists_of_bind_ok h
  obtain ⟨hs, hhs, h⟩ := exists_of_bind_ok h
  cases h
  obtain ⟨hhsLength, hmade⟩ := of_mapM_ok (eq_ok_of_lift hhs)
  refine ⟨fun hempty => ?_, fun h hmem hplaces => ?_⟩
  · obtain ⟨hlength, hrows⟩ := lengths_of_rowsOf hcells
    obtain ⟨row, more, rfl⟩ := List.exists_cons_of_ne_nil (List.ne_nil_of_length_pos (hlength ▸
      List.length_pos_iff.mpr (ne_nil_of_item (eq_ok_of_lift hfirst)
        (sequence_of_iterate (eq_ok_of_lift hitems)))))
    obtain rfl : row = [] := hempty
    -- Without columns there are no headings either.
    obtain rfl : columns = 0 := (hrows [] List.mem_cons_self).symm
    obtain ⟨titles', hsequence, htitlesLength⟩ := exists_sequence_of_count (eq_ok_of_lift hcount)
    obtain rfl : titles = titles' :=
      Option.some.inj ((sequence_of_iterate (eq_ok_of_lift htitles)).symm.trans hsequence)
    have hcountZero : count = 0 := by simpa using hheadings
    obtain rfl : hs = [] :=
      List.length_eq_zero_iff.mp (hhsLength.trans (htitlesLength.trans hcountZero))
    refine (width_eq_zero_iff _).mpr ⟨fun row hrow cell hcell => ?_, by simp⟩
    obtain rfl := List.length_eq_zero_iff.mp (hrows row hrow)
    exact absurd hcell List.not_mem_nil
  · obtain ⟨v, hv⟩ := hmade h hmem
    exact text_of_places hv hplaces

variable {level : Int} {text : String}

/-- A text of spaces is a blank line. -/
theorem indentedBy_spaces (level : Int) (h : ∀ c ∈ text.toList, c = ' ') :
    IndentedBy level text := by
  have hline : '\n' ∉ text.toList := fun hmem => absurd (h _ hmem) (by decide)
  intro line hmem
  rw [Text.lines, Text.splitChars_of_not_mem hline] at hmem
  obtain rfl : line = text := by simpa using hmem
  exact .inl fun c hc => h c hc ▸ by decide

theorem not_indentedBy_mark (h : 1 ≤ level) (rest : String) : ¬ IndentedBy level ("=" ++ rest) := by
  intro hindented
  rw [IndentedBy, Text.lines_append (by decide)] at hindented
  rcases hindented _ List.mem_cons_self with hblank | hbegins
  · exact absurd (hblank '=' (by simp)) (by decide)
  · obtain ⟨n, hn⟩ : ∃ n, 3 * level.toNat = n + 1 := ⟨3 * level.toNat - 1, by omega⟩
    rw [indentation, String.toList_ofList, hn, List.replicate_succ] at hbegins
    simp at hbegins

theorem spaces_paddedText {width places : Nat} (h : text = "") :
    ∀ c ∈ (paddedText width text places).toList, c = ' ' := by
  intro c hc
  rw [paddedText, h, String.empty_append, String.toList_ofList] at hc
  rcases List.mem_append.mp hc with hc | hc
  · exact List.eq_of_mem_replicate hc
  · simpa using hc

theorem spaces_lineText {width : Nat} {cells : List String} (h : ∀ cell ∈ cells, cell = "") :
    ∀ c ∈ (lineText width cells).toList, c = ' ' := by
  intro c hc
  rw [lineText, String.toList_join, List.flatMap_map] at hc
  obtain ⟨cell, hcell, hc⟩ := List.mem_flatMap.mp hc
  exact spaces_paddedText (h cell hcell) c hc

theorem spaces_borderText (columns : Nat) : ∀ c ∈ (borderText 0 columns).toList, c = ' ' :=
  spaces_lineText fun _ hcell => List.eq_of_mem_replicate hcell

theorem exists_borderText {width columns : Nat} (hwidth : width ≠ 0) (hcolumns : columns ≠ 0) :
    ∃ rest, borderText width columns = "=" ++ rest := by
  obtain ⟨w, rfl⟩ := Nat.exists_eq_succ_of_ne_zero hwidth
  obtain ⟨n, rfl⟩ := Nat.exists_eq_succ_of_ne_zero hcolumns
  have hmarks : String.ofList (List.replicate w.succ '=') =
      "=" ++ String.ofList (List.replicate w '=') := by
    refine String.toList_injective ?_
    simp [List.replicate_succ]
  rw [borderText, lineText, List.replicate_succ, List.map_cons, String.join_cons, paddedText,
    hmarks, String.append_assoc, String.append_assoc]
  exact ⟨_, rfl⟩

theorem text_eq (t : Table) :
    t.text = endedLines ([borderText t.width t.headings.length,
      String.join (t.headings.map fun h => paddedText t.width h.text h.places),
      borderText t.width t.headings.length] ++ t.rows.map (lineText t.width) ++
        [borderText t.width (t.rows.headD []).length]) := by
  simp [text, headingsText, rowsText, endedLines, Function.comp_def, String.append_assoc]

/-- A table inside of something is indented just if nothing in it takes a place. -/
theorem indentedBy_text_iff (ht : t.Regular) (h : 1 ≤ level) :
    IndentedBy level t.text ↔ t.width = 0 := by
  rw [text_eq, indentedBy_endedLines]
  constructor
  · intro hlines
    by_contra hwidth
    have hcolumns : t.rows.headD [] ≠ [] := fun hempty => hwidth (ht.width_eq_zero hempty)
    obtain ⟨rest, hrest⟩ :=
      exists_borderText hwidth (fun hlength => hcolumns (List.length_eq_zero_iff.mp hlength))
    have hlast := hlines (borderText t.width (t.rows.headD []).length) (by simp)
    rw [hrest] at hlast
    exact not_indentedBy_mark h rest hlast
  · intro hwidth
    obtain ⟨hcells, hplaces⟩ := t.width_eq_zero_iff.mp hwidth
    have hborder (columns : Nat) : IndentedBy level (borderText t.width columns) :=
      hwidth ▸ indentedBy_spaces level (spaces_borderText columns)
    intro line hline
    simp only [List.cons_append, List.nil_append, List.mem_cons, List.mem_append, List.mem_map,
      List.not_mem_nil, or_false] at hline
    rcases hline with rfl | rfl | rfl | ⟨row, hrow, rfl⟩ | rfl
    · exact hborder _
    · refine indentedBy_spaces level fun c hc => ?_
      rw [String.toList_join, List.flatMap_map] at hc
      obtain ⟨h, hmem, hc⟩ := List.mem_flatMap.mp hc
      exact spaces_paddedText (ht.text_eq_empty h hmem (hplaces h hmem)) c hc
    · exact hborder _
    · exact indentedBy_spaces level (spaces_lineText (hcells row hrow))
    · exact hborder _

end Table

end CMakeDocs.Rst
