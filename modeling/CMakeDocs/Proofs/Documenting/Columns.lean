import CMakeDocs.Proofs.Documenting.Tables
import Mathlib.Order.Bounds.Basic

/-!
# The columns of a table

The lines of a table are cut at the same places, whatever stands in it: a column is as wide as the
longest item of the whole table, and two spaces follow. So what a line shows can be found again by
the number of its column. A line below the rows closes the table in every case. The line above is
one of the headings, so there is none if there are no headings.
-/
namespace CMakeDocs

namespace Text

/-- The lines of a text that are not blank. -/
def shownLines (s : String) : List String := (lines s).filter fun line => !line.toList.all isBlank

theorem lines_of_oneLine {s : String} (h : OneLine s) : lines s = [s] := by
  rw [lines, splitChars_of_not_mem h, List.map_singleton, String.ofList_toList]

theorem lines_endedLines (ls : List String) : lines (endedLines ls) = ls.flatMap lines ++ [""] := by
  induction ls with
  | nil => rfl
  | cons l ls ih => rw [endedLines_cons, lines_newline, ih, List.flatMap_cons, List.append_assoc]

theorem lines_endedLines_of_oneLine {ls : List String} (h : ∀ l ∈ ls, OneLine l) :
    lines (endedLines ls) = ls ++ [""] := by
  have hsingle : ls.flatMap lines = ls.flatMap fun l => [l] :=
    List.flatMap_congr fun l hl => lines_of_oneLine (h l hl)
  rw [lines_endedLines, hsingle, List.flatMap_singleton']

theorem shownLines_endedLines (ls : List String) :
    shownLines (endedLines ls) = ls.flatMap shownLines := by
  rw [shownLines, lines_endedLines, List.filter_append, List.filter_flatMap]
  exact List.append_nil _

theorem shownLines_of_oneLine {s : String} (h : OneLine s) :
    shownLines s = if s.toList.all isBlank then [] else [s] := by
  rw [shownLines, lines_of_oneLine h, List.filter_singleton]
  cases s.toList.all isBlank <;> rfl

end Text

namespace Rst.Table

open Text (OneLine endedLines shownLines)

/-- The table of rows of values, with texts as headings. -/
def ofRows? (rows : List (List Value)) (headings : List String) : Except Error Table :=
  ofValues? (.list (rows.map .list)) (.list (headings.map .text))

/-- Some row is longer or shorter than the first one, or the headings are. -/
def Uneven (rows : List (List Value)) (headings : List String) (columns : Nat) : Prop :=
  (∃ row ∈ rows, row.length ≠ columns) ∨ headings ≠ [] ∧ headings.length ≠ columns

/-- A table that shows rows of values below headings. -/
def showing (rows : List (List Value)) (headings : List String) : Table :=
  ⟨rows.map fun row => row.map Value.shown, headings.map ColumnHeading.ofText⟩

variable {rows : List (List Value)} {headings : List String} {first : List Value} {columns : Nat}

theorem rowsOf_lists (columns : Nat) (rows : List (List Value)) :
    rowsOf columns (rows.map .list) = if ∀ row ∈ rows, row.length = columns then
      .ok (rows.map fun row => row.map Value.shown) else .error .columnCount := by
  induction rows with
  | nil => simp [rowsOf]
  | cons row rows ih =>
    have hstep : rowsOf columns (.list row :: rows.map .list) =
        if row.length ≠ columns then .error .columnCount
        else (rowsOf columns (rows.map .list)).bind fun more =>
          .ok (row.map Value.shown :: more) := rfl
    rw [List.map_cons, hstep, ih]
    by_cases hrow : row.length = columns
    · rw [if_neg (not_not_intro hrow)]
      simp only [List.forall_mem_cons, hrow, true_and]
      split <;> rfl
    · rw [if_pos hrow]
      simp only [List.forall_mem_cons, hrow, false_and, if_false]

theorem mapM_ofText (headings : List String) :
    (headings.map Value.text).mapM ColumnHeading.ofValue? =
      .ok (headings.map ColumnHeading.ofText) := by
  induction headings with
  | nil => rfl
  | cons h headings ih =>
    rw [List.map_cons, List.mapM_cons, ih]
    rfl

theorem mapM_count_texts (headings : List String) :
    (headings.map Value.text).mapM Value.count =
      .ok (headings.map String.length) := by
  induction headings with
  | nil => rfl
  | cons h headings ih =>
    have hcount : (Value.text h).count = .ok h.length := by
      simp [Value.count, Value.sequence?, String.length_toList]
    rw [List.map_cons, List.mapM_cons, hcount, ih]
    rfl

theorem ofRows?_eq (hfirst : rows.head? = some first) (headings : List String) :
    ofRows? rows headings =
      if headings ≠ [] ∧ headings.length ≠ first.length then .error .headingCount
      else if ∀ row ∈ rows, row.length = first.length then .ok (showing rows headings)
      else .error .columnCount := by
  obtain ⟨more, rfl⟩ : ∃ more, rows = first :: more := List.head?_eq_some_iff.mp hfirst
  have hstep : ofRows? (first :: more) headings =
      if (headings.map Value.text).length ≠ 0 &&
          (headings.map Value.text).length ≠ first.length then
        .error .headingCount
      else (rowsOf first.length ((first :: more).map .list)).bind fun cells =>
        (liftM ((headings.map Value.text).mapM Value.count) : Except Error _).bind fun _ =>
          (liftM ((headings.map Value.text).mapM ColumnHeading.ofValue?) : Except Error _).bind
            fun titles => .ok ⟨cells, titles⟩ := rfl
  have hcounted : ((headings.map Value.text).length ≠ 0 &&
      (headings.map Value.text).length ≠ first.length) = true ↔
      headings ≠ [] ∧ headings.length ≠ first.length := by
    simp
  rw [hstep, mapM_count_texts, mapM_ofText, rowsOf_lists, if_congr hcounted rfl rfl]
  refine if_congr Iff.rfl rfl ?_
  split <;> rfl

theorem not_uneven_iff (headings : List String) (columns : Nat) :
    ¬ Uneven rows headings columns ↔
      (∀ row ∈ rows, row.length = columns) ∧ (headings = [] ∨ headings.length = columns) := by
  rw [Uneven, not_or, Classical.or_iff_not_imp_left]
  simp only [not_exists, not_and, not_not]

/-- A table is refused just if it is uneven. -/
theorem ofRows?_of_uneven (hfirst : rows.head? = some first)
    (h : Uneven rows headings first.length) :
    ofRows? rows headings = .error .headingCount ∨ ofRows? rows headings = .error .columnCount := by
  rw [ofRows?_eq hfirst]
  by_cases hheadings : headings ≠ [] ∧ headings.length ≠ first.length
  · exact .inl (if_pos hheadings)
  · obtain ⟨row, hrow, hlength⟩ := h.resolve_right hheadings
    rw [if_neg hheadings, if_neg fun hall => hlength (hall row hrow)]
    exact .inr rfl

theorem ofRows?_of_even (hfirst : rows.head? = some first)
    (h : ¬ Uneven rows headings first.length) :
    ofRows? rows headings = .ok (showing rows headings) := by
  obtain ⟨hrows, -⟩ := (not_uneven_iff headings first.length).mp h
  rw [ofRows?_eq hfirst, if_neg fun hheadings => h (.inr hheadings), if_pos hrows]

/-- What stands in a table. -/
def items (rows : List (List Value)) (headings : List String) : List String :=
  rows.flatten.map Value.shown ++ headings

/-- A width is the greatest length of some texts. -/
def IsWidth (texts : List String) (width : Nat) : Prop :=
  IsGreatest (insert 0 {n | ∃ text ∈ texts, text.length = n}) width

theorem isGreatest_greatest (ns : List Nat) : IsGreatest (insert 0 {n | n ∈ ns}) (greatest ns) := by
  have hfold : ∀ m, IsGreatest (insert m {n | n ∈ ns}) (ns.foldl max m) := by
    induction ns with
    | nil => simp [IsGreatest, upperBounds]
    | cons n ns ih =>
      intro m
      obtain ⟨hmem, hbound⟩ := ih (max m n)
      refine ⟨?_, fun k hk => ?_⟩
      · rcases hmem with hmax | hlater
        · rw [List.foldl_cons, hmax]
          rcases Nat.le_total m n with hle | hle
          · exact .inr (by simp [Nat.max_eq_right hle])
          · exact .inl (Nat.max_eq_left hle)
        · exact .inr (List.mem_cons_of_mem n hlater)
      · have hfirst : max m n ≤ (n :: ns).foldl max m := hbound (.inl rfl)
        rcases hk with rfl | hk
        · exact Nat.le_trans (Nat.le_max_left k n) hfirst
        · rcases List.mem_cons.mp hk with rfl | hk
          · exact Nat.le_trans (Nat.le_max_right m k) hfirst
          · exact hbound (.inr hk)
  exact hfold 0

theorem isWidth_showing (rows : List (List Value)) (headings : List String) :
    IsWidth (items rows headings) (showing rows headings).width := by
  have hwidth : (showing rows headings).width =
      greatest ((items rows headings).map String.length) := by
    have hcells : (showing rows headings).rows.flatten = rows.flatten.map Value.shown :=
      List.map_flatten.symm
    have hplaces : (showing rows headings).headings.map ColumnHeading.places =
        headings.map String.length := List.map_map
    rw [width, hcells, hplaces, items, List.map_append]
  rw [IsWidth, hwidth]
  simpa using isGreatest_greatest ((items rows headings).map String.length)

variable {width : Nat} {cells : List String} {cell line : String}

/-- A text with the spaces that fill its column. -/
def padded (width : Nat) (text : String) : List Char :=
  text.toList ++ List.replicate (width + 2 - text.length) ' '

/-- What stands in a column of a line. -/
def columnAt (width j : Nat) (line : String) : List Char :=
  (line.toList.drop (j * (width + 2))).take (width + 2)

/-- A text without the spaces at its end. -/
def withoutSpaces (s : String) : String := String.ofList (Text.dropEnd (· = ' ') s.toList)

/-- The texts of the columns of a line, without the spaces at their ends. -/
def readLine (width columns : Nat) (line : String) : List String :=
  (List.range columns).map fun j => withoutSpaces (String.ofList (columnAt width j line))

/-- Texts stand in the columns of a line, each in its own. -/
structure InColumns (width : Nat) (cells : List String) (line : String) : Prop where
  length : line.length = cells.length * (width + 2)
  column : ∀ (j : Nat) (cell : String), cells[j]? = some cell →
    columnAt width j line = padded width cell

/-- A line of marks below or above each column. -/
def IsBorder (width columns : Nat) (line : String) : Prop :=
  line.toList = (List.replicate columns (List.replicate width '=' ++ [' ', ' '])).flatten

instance (width columns : Nat) (line : String) : Decidable (IsBorder width columns line) :=
  inferInstanceAs (Decidable (_ = _))

theorem length_padded (h : cell.length ≤ width) : (padded width cell).length = width + 2 := by
  rw [padded, List.length_append, List.length_replicate, String.length_toList]
  omega

theorem toList_paddedText (h : cell.length ≤ width) :
    (paddedText width cell cell.length).toList = padded width cell := by
  have hspaces : List.replicate (width + 2 - cell.length) ' ' =
      List.replicate (width - cell.length) ' ' ++ [' ', ' '] := by
    rw [Nat.sub_add_comm h, List.replicate_add]
    rfl
  rw [paddedText, String.toList_append, String.toList_ofList, padded, hspaces]

theorem toList_lineText_cons (h : cell.length ≤ width) (cells : List String) :
    (lineText width (cell :: cells)).toList =
      padded width cell ++ (lineText width cells).toList := by
  rw [lineText, List.map_cons, String.join_cons, String.toList_append, toList_paddedText h,
    lineText]

theorem length_lineText (h : ∀ cell ∈ cells, cell.length ≤ width) :
    (lineText width cells).length = cells.length * (width + 2) := by
  induction cells with
  | nil => simp [lineText]
  | cons cell cells ih =>
    obtain ⟨hcell, hcells⟩ := List.forall_mem_cons.mp h
    rw [← String.length_toList, toList_lineText_cons hcell, List.length_append, length_padded hcell,
      String.length_toList, ih hcells, List.length_cons, Nat.succ_mul, Nat.add_comm]

theorem columnAt_lineText (h : ∀ cell ∈ cells, cell.length ≤ width) {j : Nat}
    (hj : cells[j]? = some cell) : columnAt width j (lineText width cells) = padded width cell := by
  induction cells generalizing j with
  | nil => simp at hj
  | cons first cells ih =>
    obtain ⟨hfirst, hcells⟩ := List.forall_mem_cons.mp h
    have hlength := length_padded hfirst
    rw [columnAt, toList_lineText_cons hfirst]
    cases j with
    | zero =>
      obtain rfl : first = cell := by simpa using hj
      rw [Nat.zero_mul, List.drop_zero, List.take_left' hlength]
    | succ j =>
      rw [Nat.succ_mul, Nat.add_comm (j * _), ← List.drop_drop, List.drop_left' hlength]
      exact ih hcells hj

theorem inColumns_lineText (h : ∀ cell ∈ cells, cell.length ≤ width) :
    InColumns width cells (lineText width cells) :=
  ⟨length_lineText h, fun _ _ hj => columnAt_lineText h hj⟩

theorem withoutSpaces_padded (width : Nat) (cell : String) :
    withoutSpaces (String.ofList (padded width cell)) = withoutSpaces cell := by
  have hspaces : ∀ c ∈ List.replicate (width + 2 - cell.length) ' ', decide (c = ' ') = true :=
    fun c hc => decide_eq_true (List.eq_of_mem_replicate hc)
  rw [withoutSpaces, String.toList_ofList, Text.dropEnd, padded, List.reverse_append,
    List.reverse_replicate, List.dropWhile_append_of_pos hspaces, withoutSpaces, Text.dropEnd]

/-- What stands in the columns of a line is read there again. -/
theorem InColumns.readLine_eq (h : InColumns width cells line) :
    readLine width cells.length line = cells.map withoutSpaces := by
  refine List.ext_getElem? fun j => ?_
  rw [readLine, List.getElem?_map, List.getElem?_map]
  cases hj : cells[j]? with
  | none =>
    rw [List.getElem?_eq_none (by simpa using List.getElem?_eq_none_iff.mp hj)]
    rfl
  | some cell =>
    have hlt := (List.getElem?_eq_some_iff.mp hj).1
    rw [List.getElem?_range hlt, Option.map_some, Option.map_some, h.column j cell hj,
      withoutSpaces_padded]

theorem isBorder_borderText (width columns : Nat) :
    IsBorder width columns (borderText width columns) := by
  have hlength : (String.ofList (List.replicate width '=')).length ≤ width := by simp
  have hmarks : padded width (String.ofList (List.replicate width '=')) =
      List.replicate width '=' ++ [' ', ' '] := by
    simp [padded, List.replicate]
  induction columns with
  | zero => rfl
  | succ columns ih =>
    rw [IsBorder, borderText, List.replicate_succ, toList_lineText_cons hlength, hmarks,
      List.replicate_succ, List.flatten_cons, ← ih, borderText]

theorem length_borderText (width columns : Nat) :
    (borderText width columns).length = columns * (width + 2) := by
  rw [borderText, length_lineText, List.length_replicate]
  intro cell hcell
  rw [List.eq_of_mem_replicate hcell]
  simp

theorem IsWidth.length_le {texts : List String} {text : String} (h : IsWidth texts width)
    (hmem : text ∈ texts) : text.length ≤ width :=
  h.2 (.inr ⟨text, hmem, rfl⟩)

theorem mem_items_of_cell {row : List Value} {v : Value} (headings : List String)
    (hrow : row ∈ rows) (hv : v ∈ row) : v.shown ∈ items rows headings :=
  List.mem_append_left _ (List.mem_map_of_mem (List.mem_flatten_of_mem hrow hv))

theorem mem_items_of_heading (rows : List (List Value)) {h : String} (hmem : h ∈ headings) :
    h ∈ items rows headings := List.mem_append_right _ hmem

theorem oneLine_lineText (width : Nat) (h : ∀ cell ∈ cells, OneLine cell) :
    OneLine (lineText width cells) := by
  induction cells with
  | nil => simp [lineText, OneLine]
  | cons cell cells ih =>
    obtain ⟨hcell, hcells⟩ := List.forall_mem_cons.mp h
    have hspaces : '\n' ∉ List.replicate (width - cell.length) ' ' ++ [' ', ' '] := by simp
    rw [lineText, List.map_cons, String.join_cons, paddedText]
    exact Text.oneLine_append.mpr ⟨Text.oneLine_append.mpr ⟨hcell, Text.oneLine_ofList hspaces⟩,
      ih hcells⟩

theorem oneLine_borderText (width columns : Nat) : OneLine (borderText width columns) := by
  refine oneLine_lineText width fun cell hcell => ?_
  rw [List.eq_of_mem_replicate hcell]
  exact Text.oneLine_ofList (by simp)

/-- The line of a row. -/
def rowLine (width : Nat) (row : List Value) : String := lineText width (row.map Value.shown)

/-- The lines of a table: the headings between two borders, the rows, and a border. -/
def tableLines (width : Nat) (rows : List (List Value)) (headings : List String) : List String :=
  [borderText width headings.length, lineText width headings, borderText width headings.length] ++
    rows.map (rowLine width) ++ [borderText width (rows.headD []).length]

theorem text_showing (rows : List (List Value)) (headings : List String) :
    (showing rows headings).text =
      endedLines (tableLines (showing rows headings).width rows headings) := by
  generalize hwidth : (showing rows headings).width = width
  have hheadings :
      (showing rows headings).headings.map (fun h => paddedText width h.text h.places) =
        headings.map fun h => paddedText width h h.length := List.map_map
  have hrows : (showing rows headings).rows.map (lineText width) = rows.map (rowLine width) :=
    List.map_map
  have hcount : (showing rows headings).headings.length = headings.length := List.length_map _
  have hcolumns : ((showing rows headings).rows.headD []).length = (rows.headD []).length := by
    cases rows with
    | nil => rfl
    | cons row rows => exact List.length_map _
  rw [text_eq, hwidth, hheadings, hrows, hcolumns, hcount, tableLines, lineText]

theorem cases_of_mem_tableLines (h : line ∈ tableLines width rows headings) :
    line = borderText width headings.length ∨ line = lineText width headings ∨
      (∃ row ∈ rows, line = rowLine width row) ∨
        line = borderText width (rows.headD []).length := by
  simp only [tableLines, List.mem_append, List.mem_cons, List.mem_map, List.not_mem_nil, or_false,
    @eq_comm _ _ line] at h
  rcases h with ((h | h | h) | h) | h
  · exact .inl h
  · exact .inr (.inl h)
  · exact .inl h
  · exact .inr (.inr (.inl h))
  · exact .inr (.inr (.inr h))

theorem oneLine_tableLines (width : Nat) (hcells : ∀ row ∈ rows, ∀ v ∈ row, OneLine v.shown)
    (hheadings : ∀ h ∈ headings, OneLine h) : ∀ l ∈ tableLines width rows headings, OneLine l := by
  intro l hl
  rcases cases_of_mem_tableLines hl with rfl | rfl | ⟨row, hrow, rfl⟩ | rfl
  · exact oneLine_borderText _ _
  · exact oneLine_lineText width hheadings
  · exact oneLine_lineText width (List.forall_mem_map.mpr (hcells row hrow))
  · exact oneLine_borderText _ _

theorem inColumns_rowLine (hwidth : IsWidth (items rows headings) width) {row : List Value}
    (hrow : row ∈ rows) : InColumns width (row.map Value.shown) (rowLine width row) :=
  inColumns_lineText (List.forall_mem_map.mpr fun _ hv =>
    hwidth.length_le (mem_items_of_cell headings hrow hv))

theorem inColumns_headings (hwidth : IsWidth (items rows headings) width) :
    InColumns width headings (lineText width headings) :=
  inColumns_lineText fun _ hh => hwidth.length_le (mem_items_of_heading rows hh)

/-- All lines of a table that are not empty have the same length. -/
theorem length_of_mem_tableLines (hfirst : rows.head? = some first)
    (h : ¬ Uneven rows headings first.length) (hwidth : IsWidth (items rows headings) width)
    (hline : line ∈ tableLines width rows headings) :
    line = "" ∨ line.length = first.length * (width + 2) := by
  obtain ⟨hrows, hcount⟩ := (not_uneven_iff headings first.length).mp h
  have hheadD : rows.headD [] = first := by rw [List.headD_eq_head?_getD, hfirst, Option.getD_some]
  rcases cases_of_mem_tableLines hline with rfl | rfl | ⟨row, hrow, rfl⟩ | rfl
  · rcases hcount with rfl | hcount
    · exact .inl rfl
    · exact .inr (by rw [length_borderText, hcount])
  · rcases hcount with rfl | hcount
    · exact .inl rfl
    · exact .inr (by rw [(inColumns_headings hwidth).length, hcount])
  · exact .inr (by rw [(inColumns_rowLine hwidth hrow).length, List.length_map, hrows row hrow])
  · exact .inr (by rw [length_borderText, hheadD])

/-- Rows of values are made into a table just if they are even, and headings are as many as columns
or missing. Then the columns have one width, and all lines are as long as all columns together. What
a row or the headings show stands in the columns of their line, so it can be read from there but
for spaces at its end. -/
theorem contents_in_columns (rows : List (List Value)) (headings : List String)
    (first : List Value) (hfirst : rows.head? = some first)
    (hcells : ∀ row ∈ rows, ∀ v ∈ row, OneLine v.shown) (hheadings : ∀ h ∈ headings, OneLine h) :
    ((ofRows? rows headings = .error .headingCount ∨
      ofRows? rows headings = .error .columnCount) ↔ Uneven rows headings first.length) ∧
    (¬ Uneven rows headings first.length → ∃ t width, ofRows? rows headings = .ok t ∧
      IsWidth (items rows headings) width ∧
      (∀ line ∈ shownLines t.text, line.length = first.length * (width + 2)) ∧
      (∀ (i : Nat) (row : List Value), rows[i]? = some row →
        ∃ line, (Text.lines t.text)[3 + i]? = some line ∧
          InColumns width (row.map Value.shown) line ∧
          readLine width first.length line = row.map fun v => withoutSpaces v.shown) ∧
      (headings ≠ [] → ∃ line, (Text.lines t.text)[1]? = some line ∧
        InColumns width headings line ∧
        readLine width first.length line = headings.map withoutSpaces)) := by
  refine ⟨⟨fun hrefused => ?_, ofRows?_of_uneven hfirst⟩, fun heven => ?_⟩
  · by_contra heven
    rw [ofRows?_of_even hfirst heven] at hrefused
    rcases hrefused with hrefused | hrefused <;> cases hrefused
  · obtain ⟨hrows, hcount⟩ := (not_uneven_iff headings first.length).mp heven
    have hwidth := isWidth_showing rows headings
    refine ⟨_, _, ofRows?_of_even hfirst heven, hwidth, ?_⟩
    rw [text_showing]
    generalize (showing rows headings).width = width at hwidth ⊢
    rw [shownLines, Text.lines_endedLines_of_oneLine (oneLine_tableLines width hcells hheadings)]
    refine ⟨fun line hline => ?_, fun i row hi => ?_, fun hsome => ?_⟩
    · obtain ⟨hmem, hshown⟩ := List.mem_filter.mp hline
      have hne : line ≠ "" := by
        rintro rfl
        cases hshown
      have hmem : line ∈ tableLines width rows headings := by simpa [hne] using hmem
      exact (length_of_mem_tableLines hfirst heven hwidth hmem).resolve_left hne
    · have hrow := List.mem_of_getElem? hi
      have hcolumns := inColumns_rowLine hwidth hrow
      have hread := hcolumns.readLine_eq
      rw [List.length_map, hrows row hrow, List.map_map] at hread
      refine ⟨_, ?_, hcolumns, hread⟩
      -- The rows stand below three lines for the headings, which are there in any case.
      have hlt := (List.getElem?_eq_some_iff.mp hi).1
      rw [List.getElem?_append_left (by simp [tableLines]; omega), tableLines, List.append_assoc,
        List.getElem?_append_right (by simp), List.getElem?_append_left (by simpa using hlt)]
      simp [hi]
    · have hcolumns := inColumns_headings hwidth
      have hread := hcolumns.readLine_eq
      rw [hcount.resolve_left hsome] at hread
      exact ⟨_, rfl, hcolumns, hread⟩

def wideAndNarrow : List (List Value) := [[.int 10, .text "a b"], [.text "", .null]]

theorem wideAndNarrow_in_columns :
    ¬ Uneven wideAndNarrow ["n", "text"] 2 ∧
      (∀ row ∈ wideAndNarrow, ∀ v ∈ row, OneLine v.shown) ∧ (∀ h ∈ ["n", "text"], OneLine h) ∧
      ∃ t width line, ofRows? wideAndNarrow ["n", "text"] = .ok t ∧
        (Text.lines t.text)[3]? = some line ∧ line.length = 2 * (width + 2) ∧
        readLine width 2 line = ["10", "a b"] := by
  have heven : ¬ Uneven wideAndNarrow ["n", "text"] 2 :=
    (not_uneven_iff ["n", "text"] 2).mpr ⟨by decide, by decide⟩
  have hcells : ∀ row ∈ wideAndNarrow, ∀ v ∈ row, OneLine v.shown := by decide
  have hheadings : ∀ h ∈ ["n", "text"], OneLine h := by decide
  obtain ⟨-, htable⟩ := contents_in_columns wideAndNarrow ["n", "text"] [.int 10, .text "a b"] rfl
    hcells hheadings
  obtain ⟨t, width, hmade, -, -, hrows, -⟩ := htable heven
  obtain ⟨line, hline, hcolumns, hread⟩ := hrows 0 _ rfl
  exact ⟨heven, hcells, hheadings, t, width, line, hmade, hline, hcolumns.length,
    hread.trans (by decide)⟩

theorem shownLines_borderText (hwidth : width ≠ 0) (hcolumns : columns ≠ 0) :
    shownLines (borderText width columns) = [borderText width columns] := by
  obtain ⟨rest, hrest⟩ := exists_borderText hwidth hcolumns
  have hmark : Text.isBlank '=' = false := by decide
  have hshown : (borderText width columns).toList.all Text.isBlank = false := by
    simp [hrest, hmark]
  rw [Text.shownLines_of_oneLine (oneLine_borderText width columns), hshown]
  rfl

theorem rowsText_showing (rows : List (List Value)) (headings : List String) :
    (showing rows headings).rowsText =
      endedLines (rows.map (rowLine (showing rows headings).width)) := by
  rw [rowsText, endedLines, List.map_map]
  exact congrArg String.join List.map_map

/-- What is shown of a table: the headings between their borders, the rows, and a border. -/
theorem shownLines_text (hwidth : (showing rows headings).width = width) (hpositive : width ≠ 0)
    (hcolumns : (rows.headD []).length ≠ 0) :
    shownLines (showing rows headings).text =
      [borderText width headings.length, lineText width headings,
        borderText width headings.length].flatMap shownLines ++
      (shownLines (showing rows headings).rowsText ++
        [borderText width (rows.headD []).length]) := by
  rw [text_showing, rowsText_showing, Text.shownLines_endedLines, Text.shownLines_endedLines,
    hwidth, tableLines, List.flatMap_append, List.flatMap_append, List.flatMap_singleton,
    shownLines_borderText hpositive hcolumns, List.append_assoc]

/-- An even table in which there is something ends with a border. It begins with one just if it has
headings, or if the rows themselves begin with a line that looks like one, or show nothing. -/
theorem bordered_iff (rows : List (List Value)) (headings : List String) (columns : Nat)
    (hrows : rows ≠ []) (hlengths : ∀ row ∈ rows, row.length = columns) (hcolumns : 0 < columns)
    (hheadings : headings = [] ∨ headings.length = columns)
    (hitem : ∃ item ∈ items rows headings, item ≠ "") :
    ∃ t width, ofRows? rows headings = .ok t ∧ IsWidth (items rows headings) width ∧
      (∃ line, (shownLines t.text).getLast? = some line ∧ IsBorder width columns line) ∧
      ((∃ line, (shownLines t.text).head? = some line ∧ IsBorder width columns line) ↔
        headings ≠ [] ∨ ∀ line ∈ (shownLines t.rowsText).head?, IsBorder width columns line) := by
  obtain ⟨first, more, rfl⟩ := List.exists_cons_of_ne_nil hrows
  obtain rfl : first.length = columns := hlengths first List.mem_cons_self
  have heven : ¬ Uneven (first :: more) headings first.length :=
    (not_uneven_iff headings first.length).mpr ⟨hlengths, hheadings⟩
  have hwidth := isWidth_showing (first :: more) headings
  refine ⟨_, _, ofRows?_of_even rfl heven, hwidth, ?_⟩
  generalize hw : (showing (first :: more) headings).width = width at hwidth ⊢
  have hpositive : width ≠ 0 := by
    obtain ⟨item, hmem, hne⟩ := hitem
    have hle := hwidth.length_le hmem
    have hlength : item.length ≠ 0 := fun hzero => hne (String.length_eq_zero_iff.mp hzero)
    omega
  have hcount : first.length ≠ 0 := Nat.ne_of_gt hcolumns
  rw [shownLines_text hw hpositive hcount]
  refine ⟨⟨borderText width first.length, ?_, isBorder_borderText _ _⟩, ?_⟩
  · rw [← List.append_assoc]
    exact List.getLast?_concat
  rcases hheadings with rfl | hheadings
  · -- Without headings the lines in their place are empty.
    have hnone : [borderText width ([] : List String).length, lineText width [],
        borderText width ([] : List String).length].flatMap shownLines = [] := rfl
    rw [hnone, List.nil_append]
    cases hshown : shownLines (showing (first :: more) []).rowsText with
    | nil => simpa using isBorder_borderText width first.length
    | cons line lines => simp
  · have hne : headings ≠ [] := fun hnil => hcount (by rw [← hheadings, hnil]; rfl)
    refine iff_of_true ⟨borderText width first.length, ?_, isBorder_borderText _ _⟩ (.inl hne)
    rw [List.flatMap_cons, hheadings, shownLines_borderText hpositive hcount]
    rfl

/-- A table of one cell and without headings has no line above it. -/
theorem headless_unbordered :
    ofRows? [[.text "a"]] [] = .ok (showing [[.text "a"]] []) ∧
      (showing [[.text "a"]] []).text = "\n\n\na  \n=  \n" ∧
      (shownLines "\n\n\na  \n=  \n").head? = some "a  " ∧ ¬ IsBorder 1 1 "a  " := by
  refine ⟨rfl, ?_⟩
  decide

theorem numbers_bordered :
    (∀ row ∈ [[Value.int 4, .text "b\nc"], [.text "", .null]], row.length = 2) ∧
      ∃ t width, ofRows? [[.int 4, .text "b\nc"], [.text "", .null]] ["x", "y"] = .ok t ∧
        (∃ line, (shownLines t.text).getLast? = some line ∧ IsBorder width 2 line) ∧
        ∃ line, (shownLines t.text).head? = some line ∧ IsBorder width 2 line := by
  have hlengths : ∀ row ∈ [[Value.int 4, .text "b\nc"], [.text "", .null]], row.length = 2 := by
    decide
  obtain ⟨t, width, hmade, -, hlast, hiff⟩ := bordered_iff
    [[.int 4, .text "b\nc"], [.text "", .null]] ["x", "y"] 2 (by simp) hlengths (by decide)
    (.inr rfl) ⟨"x", by simp [items], by decide⟩
  exact ⟨hlengths, t, width, hmade, hlast, hiff.mpr (.inl (by simp))⟩

end Rst.Table

end CMakeDocs
