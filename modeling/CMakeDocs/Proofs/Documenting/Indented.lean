import CMakeDocs.Proofs.Lines
import CMakeDocs.Rst.Block
import CMakeDocs.Text.Blank
import Mathlib.Data.List.Basic

/-!
# Indented text

What belongs to a directive stands below it on lines that are blank or indented. Only a paragraph is
cut into its lines before it is indented; of any other text in a block just the first line is. So a
block keeps to its place if the further lines of its texts are blank or indented by themselves.
-/
namespace CMakeDocs

namespace Text

variable {before : String}

theorem lines_ne_nil (s : String) : lines s ≠ [] := by
  simp [lines, splitChars_ne_nil]

theorem lines_newline (first second : String) :
    lines (first ++ "\n" ++ second) = lines first ++ lines second := by
  have hlist : (first ++ "\n" ++ second).toList = first.toList ++ '\n' :: second.toList := by simp
  rw [lines, hlist, splitChars_append, List.map_append]
  rfl

/-- A text without a line feed goes in front of the first line of another one. -/
theorem lines_append (h : '\n' ∉ before.toList) (s : String) :
    lines (before ++ s) = (before ++ (lines s).headD "") :: (lines s).tail := by
  by_cases hs : '\n' ∈ s.toList
  · obtain ⟨first, rest, hsplit, hfirst⟩ := List.eq_append_cons_of_mem hs
    have hs : s = String.ofList first ++ "\n" ++ String.ofList rest := by
      refine String.toList_injective ?_
      simp [hsplit]
    have hline : lines (String.ofList first) = [String.ofList first] := by
      simp [lines, splitChars_of_not_mem hfirst]
    have hbefore : lines (before ++ String.ofList first) = [before ++ String.ofList first] := by
      rw [lines, splitChars_of_not_mem (by simp [h, hfirst])]
      simp
    rw [hs, ← String.append_assoc, ← String.append_assoc, lines_newline, hbefore, lines_newline,
      hline]
    rfl
  · rw [lines, lines, splitChars_of_not_mem hs, splitChars_of_not_mem (by simp [h, hs])]
    simp

end Text

namespace Rst

/-- A line that is blank or begins with the indentation of a level. -/
def IsIndentedBy (level : Int) (line : String) : Prop :=
  (∀ c ∈ line.toList, Text.isBlank c = true) ∨ (indentation level).toList <+: line.toList

/-- A text whose lines are all blank or indented by a level. -/
def IndentedBy (level : Int) (text : String) : Prop :=
  ∀ line ∈ Text.lines text, IsIndentedBy level line

instance (level : Int) (line : String) : Decidable (IsIndentedBy level line) :=
  decidable_of_iff ((line.toList.all Text.isBlank ||
    (indentation level).toList.isPrefixOf line.toList) = true) (by simp [IsIndentedBy])

instance (level : Int) (text : String) : Decidable (IndentedBy level text) :=
  inferInstanceAs (Decidable (∀ line ∈ Text.lines text, IsIndentedBy level line))

/-- A text whose lines are all blank or indented, by the first level at least, but for the first
one. -/
def Steady (text : String) : Prop := ∀ line ∈ (Text.lines text).tail, IsIndentedBy 1 line

instance (text : String) : Decidable (Steady text) :=
  inferInstanceAs (Decidable (∀ line ∈ (Text.lines text).tail, IsIndentedBy 1 line))

section Texts

variable {before first second text : String} {level deeper : Int}

theorem indentedBy_empty (level : Int) : IndentedBy level "" := by
  intro line hline
  obtain rfl : line = "" := by simpa [Text.lines, Text.splitChars] using hline
  exact .inl (by simp)

theorem indentedBy_newline :
    IndentedBy level (first ++ "\n" ++ second) ↔
      IndentedBy level first ∧ IndentedBy level second := by
  rw [IndentedBy, Text.lines_newline]
  exact List.forall_mem_append

theorem indentedBy_below : IndentedBy level ("\n" ++ text) ↔ IndentedBy level text := by
  have hnewline : IndentedBy level ("" ++ "\n" ++ text) ↔
      IndentedBy level "" ∧ IndentedBy level text := indentedBy_newline
  rw [String.empty_append] at hnewline
  rw [hnewline, and_iff_right (indentedBy_empty level)]

/-- Of lines above a text, each is looked at by itself. -/
theorem indentedBy_endedLines_append (ls : List String) :
    IndentedBy level (Text.endedLines ls ++ text) ↔
      (∀ l ∈ ls, IndentedBy level l) ∧ IndentedBy level text := by
  induction ls with
  | nil => simp [Text.endedLines]
  | cons l ls ih =>
    rw [Text.endedLines_cons, String.append_assoc, indentedBy_newline, ih, List.forall_mem_cons,
      and_assoc]

theorem indentedBy_endedLines (ls : List String) :
    IndentedBy level (Text.endedLines ls) ↔ ∀ l ∈ ls, IndentedBy level l := by
  have happend : IndentedBy level (Text.endedLines ls ++ "") ↔
      (∀ l ∈ ls, IndentedBy level l) ∧ IndentedBy level "" := indentedBy_endedLines_append ls
  rwa [String.append_empty, and_iff_left (indentedBy_empty level)] at happend

theorem steady_append (h : '\n' ∉ before.toList) : Steady (before ++ text) ↔ Steady text := by
  rw [Steady, Text.lines_append h]
  exact Iff.rfl

/-- A text of one line is steady. -/
theorem steady_of_not_mem (h : '\n' ∉ text.toList) : Steady text := by
  intro line hline
  rw [Text.lines, Text.splitChars_of_not_mem h] at hline
  simp at hline

theorem no_newline_indentation (level : Int) : '\n' ∉ (indentation level).toList := by
  intro hmem
  rw [indentation, String.toList_ofList] at hmem
  exact absurd (List.eq_of_mem_replicate hmem) (by decide)

/-- The indentation of a level is one of any level above it. -/
theorem indentation_mono (h : level ≤ deeper) :
    (indentation level).toList <+: (indentation deeper).toList := by
  obtain ⟨more, hmore⟩ : ∃ more, 3 * deeper.toNat = 3 * level.toNat + more :=
    ⟨3 * deeper.toNat - 3 * level.toNat, by omega⟩
  refine ⟨List.replicate more ' ', ?_⟩
  rw [indentation, indentation, String.toList_ofList, String.toList_ofList, hmore,
    List.replicate_add]

theorem IsIndentedBy.mono {line : String} (h : IsIndentedBy deeper line) (hle : level ≤ deeper) :
    IsIndentedBy level line := h.imp_right (indentation_mono hle).trans

theorem isIndentedBy_indentation (h : level ≤ deeper) (line : String) :
    IsIndentedBy level (indentation deeper ++ line) := by
  refine .inr ((indentation_mono h).trans ?_)
  rw [String.toList_append]
  exact List.prefix_append _ _

/-- A line behind an indentation is indented by it. -/
theorem indentedBy_line (h : level ≤ deeper) (hline : '\n' ∉ text.toList) :
    IndentedBy level (indentation deeper ++ text) := by
  intro line hmem
  rw [Text.lines_append (no_newline_indentation deeper), Text.lines,
    Text.splitChars_of_not_mem hline] at hmem
  obtain rfl : line = indentation deeper ++ text := by simpa using hmem
  exact isIndentedBy_indentation h text

/-- Behind an indentation, it is on the further lines of a text whether all of them are. -/
theorem indented_indentation (h : 1 ≤ level) :
    IndentedBy 1 (indentation level ++ text) ↔ Steady text := by
  rw [IndentedBy, Text.lines_append (no_newline_indentation level), List.forall_mem_cons,
    and_iff_right (isIndentedBy_indentation h _)]
  exact Iff.rfl

theorem lines_paragraphText (level : Int) (text : String) :
    Text.lines (paragraphText (indentation level) text) =
      (Text.lines text).map (indentation level ++ ·) := by
  rw [paragraphText, Text.lines_unlines]
  · simpa using Text.lines_ne_nil text
  · intro line hline
    obtain ⟨part, hpart, rfl⟩ := List.mem_map.mp hline
    obtain ⟨cs, hcs, rfl⟩ := List.mem_map.mp hpart
    rw [String.toList_append, String.toList_ofList, List.mem_append, not_or]
    exact ⟨no_newline_indentation level, Text.not_mem_of_mem_splitChars hcs⟩

theorem indentedBy_paragraphText (h : level ≤ deeper) (text : String) :
    IndentedBy level (paragraphText (indentation deeper) text) := by
  intro line hline
  rw [lines_paragraphText] at hline
  obtain ⟨part, -, rfl⟩ := List.mem_map.mp hline
  exact isIndentedBy_indentation h part

theorem optionText_eq (indent name value : String) :
    optionText indent name value = indent ++ optionText "" name value := by
  simp [optionText, String.append_assoc]

theorem indented_optionText (h : 1 ≤ level) (name value : String) :
    IndentedBy 1 (optionText (indentation level) name value) ↔
      Steady (optionText "" name value) := by
  rw [optionText_eq, indented_indentation h]

theorem indented_itemsText (h : 1 ≤ level) (kind : ListKind) (n : Nat) (items : List String) :
    IndentedBy 1 (itemsText kind (indentation level) n items) ↔
      ∀ p ∈ items.zipIdx n, Steady (kind.mark p.2 ++ p.1) := by
  induction items generalizing n with
  | nil => simpa [itemsText] using indentedBy_empty 1
  | cons item items ih =>
    rw [itemsText, indentedBy_newline, ih, String.append_assoc, indented_indentation h,
      List.zipIdx_cons, List.forall_mem_cons]

end Texts

/-- The heading of a directive. -/
def headingLine (name : String) (arguments : List String) : String :=
  ".. " ++ name ++ ":: " ++ ",".intercalate arguments

/-- What stands below the heading of a directive whose body has a level. -/
def belowHeading (level : Int) (options : List (String × String)) (body : String) : String :=
  optionsText (indentation level) options ++ (if body = "" then "" else "\n" ++ body)

theorem directiveText_eq (level : Int) (name : String) (arguments : List String)
    (options : List (String × String)) (body : String) :
    directiveText level name arguments options body =
      "\n" ++ (indentation (level - 1) ++ headingLine name arguments ++ "\n" ++
        belowHeading level options body) := by
  simp only [directiveText, directiveHeadingText, headingLine, belowHeading, String.append_assoc]

theorem belowHeading_cons (level : Int) (o : String × String) (options : List (String × String))
    (body : String) :
    belowHeading level (o :: options) body =
      optionText (indentation level) o.1 o.2 ++ "\n" ++ belowHeading level options body := by
  simp [belowHeading, optionsText, String.append_assoc]

/-- Without options there is just the body, below an empty line. -/
theorem belowHeading_nil (level : Int) (body : String) :
    belowHeading level [] body = if body = "" then "" else "\n" ++ body := by
  simp [belowHeading, optionsText]

theorem indentedBy_belowHeading_nil {level deeper : Int} {body : String} :
    IndentedBy level (belowHeading deeper [] body) ↔ IndentedBy level body := by
  rw [belowHeading_nil]
  split
  · next hempty => rw [hempty]
  · exact indentedBy_below

theorem indented_belowHeading {level : Int} (h : 1 ≤ level) (options : List (String × String))
    (body : String) :
    IndentedBy 1 (belowHeading level options body) ↔
      (∀ o ∈ options, Steady (optionText "" o.1 o.2)) ∧ IndentedBy 1 body := by
  induction options with
  | nil =>
    rw [indentedBy_belowHeading_nil]
    simp
  | cons o options ih =>
    rw [belowHeading_cons, indentedBy_newline, ih, indented_optionText h, List.forall_mem_cons,
      and_assoc]

namespace Block

mutual

/-- A block whose texts, but for paragraphs, are steady. -/
def Keeps : Block → Prop
  | paragraph _ => True
  | field name value => Steady (optionText "" name value)
  | doctest line expected => Steady (">>> " ++ line) ∧ IndentedBy 1 expected
  | list kind items => ∀ p ∈ items.zipIdx 1, Steady (kind.mark p.2 ++ p.1)
  | table t => IndentedBy 1 t.text
  | part heading blocks => IndentedBy 1 (partText heading (textOfAll 0 blocks))
  | directive name arguments options blocks =>
    Steady (headingLine name arguments) ∧ (∀ o ∈ options, Steady (optionText "" o.1 o.2)) ∧
      KeepsAll blocks

def KeepsAll : List Block → Prop
  | [] => True
  | b :: bs => b.Keeps ∧ KeepsAll bs

end

theorem keepsAll_iff (blocks : List Block) : KeepsAll blocks ↔ ∀ b ∈ blocks, b.Keeps := by
  induction blocks with
  | nil => simp [KeepsAll]
  | cons b blocks ih => rw [KeepsAll, ih, List.forall_mem_cons]

mutual

/-- A block inside of something is written on indented lines just if its texts are steady. -/
theorem indented_text_iff {indent : Int} (h : 1 ≤ indent) (b : Block) :
    IndentedBy 1 (b.text indent) ↔ b.Keeps := by
  cases b with
  | paragraph words =>
    rw [text, Keeps]
    exact iff_true_intro (indentedBy_paragraphText h _)
  | field name value => rw [text, Keeps, fieldText, indentedBy_below, indented_optionText h]
  | doctest line expected =>
    have hsplit : doctestText (indentation indent) line expected =
        "\n" ++ (indentation indent ++ (">>> " ++ line) ++ "\n" ++ (expected ++ "\n" ++ "")) := by
      simp only [doctestText, String.append_assoc, String.append_empty]
    rw [text, Keeps, hsplit, indentedBy_below, indentedBy_newline, indentedBy_newline,
      indented_indentation h, and_iff_left (indentedBy_empty 1)]
  | list kind items => rw [text, Keeps, listText, indentedBy_below, indented_itemsText h]
  | table t => rw [text, Keeps]
  | part heading blocks => rw [text, Keeps]
  | directive name arguments options blocks =>
    have hlevel : 1 ≤ indent + 1 := by omega
    rw [text, Keeps, directiveText_eq, indentedBy_below, indentedBy_newline, Int.add_sub_cancel,
      indented_indentation h, indented_belowHeading hlevel, indented_textOfAll_iff hlevel blocks]

theorem indented_textOfAll_iff {indent : Int} (h : 1 ≤ indent) (blocks : List Block) :
    IndentedBy 1 (textOfAll indent blocks) ↔ KeepsAll blocks := by
  cases blocks with
  | nil =>
    rw [textOfAll, KeepsAll]
    exact iff_true_intro (indentedBy_empty 1)
  | cons b blocks =>
    rw [textOfAll, KeepsAll, indentedBy_newline, indented_text_iff h b,
      indented_textOfAll_iff h blocks]

end

end Block

end Rst

end CMakeDocs
