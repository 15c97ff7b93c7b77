import CMakeDocs.Proofs.Documenting.Tables
import CMakeDocs.Proofs.Documenting.Verbatim
import CMakeDocs.Proofs.Documenting.Writers

/-!
# Directives filled in any order

A directive is filled call by call, and so are the directives made in it, in any order. Each of them
has its own level, one more than the directive that it stands in, and what is put into it is
indented by that level. Two things are written as they are: what a doctest expects, and a table. So
the body of every directive is indented just if these are.
-/
namespace CMakeDocs.Rst

open Text (OneLine oneLine_append oneLine_intercalate endedLines)

section Lines

variable {level : Int} {name value : String}

theorem indentedBy_optionText (level : Int) (hname : OneLine name) (hvalue : OneLine value) :
    IndentedBy level (optionText (indentation level) name value) := by
  rw [optionText_eq]
  refine indentedBy_line (Int.le_refl level) ?_
  have hopen : OneLine ("" ++ ":" ++ name) := oneLine_append.mpr ⟨by decide, hname⟩
  exact oneLine_append.mpr ⟨oneLine_append.mpr ⟨hopen, by decide⟩, hvalue⟩

theorem oneLine_mark (kind : ListKind) (n : Nat) : OneLine (kind.mark n) := by
  cases kind with
  | bulleted =>
    have hmark : OneLine "* " := by decide
    exact hmark
  | enumerated =>
    have hdigits : OneLine (toString n) := by
      intro hmem
      have hdigit := Nat.isDigit_of_mem_toDigits (by decide) (Nat.le_refl 10)
        (Nat.toList_repr ▸ hmem)
      exact absurd hdigit (by decide)
    exact oneLine_append.mpr ⟨hdigits, by decide⟩

theorem indentedBy_itemsText (level : Int) (kind : ListKind) (n : Nat) {items : List String}
    (h : ∀ item ∈ items, OneLine item) :
    IndentedBy level (itemsText kind (indentation level) n items) := by
  induction items generalizing n with
  | nil => exact indentedBy_empty level
  | cons item items ih =>
    obtain ⟨hitem, hitems⟩ := List.forall_mem_cons.mp h
    rw [itemsText, indentedBy_newline, String.append_assoc]
    exact ⟨indentedBy_line (Int.le_refl level)
      (oneLine_append.mpr ⟨oneLine_mark kind n, hitem⟩), ih (n + 1) hitems⟩

/-- Options are indented, so it is on the body. -/
theorem indentedBy_belowHeading {options : List (String × String)} {body : String}
    (h : ∀ o ∈ options, OneLine o.1 ∧ OneLine o.2) :
    IndentedBy level (belowHeading level options body) ↔ IndentedBy level body := by
  induction options with
  | nil => exact indentedBy_belowHeading_nil
  | cons o options ih =>
    obtain ⟨ho, hoptions⟩ := List.forall_mem_cons.mp h
    rw [belowHeading_cons, indentedBy_newline, ih hoptions,
      and_iff_right (indentedBy_optionText level ho.1 ho.2)]

/-- The heading of a directive stands on its second line. -/
theorem lines_directiveText (level : Int) {arguments : List String} (hname : OneLine name)
    (harguments : ∀ a ∈ arguments, OneLine a) (options : List (String × String)) (body : String) :
    Text.lines (directiveText level name arguments options body) =
      "" :: (indentation (level - 1) ++ headingLine name arguments) ::
        Text.lines (belowHeading level options body) := by
  have hheading : OneLine (indentation (level - 1) ++ headingLine name arguments) := by
    have hlist : OneLine (",".intercalate arguments) :=
      (oneLine_intercalate (by decide) arguments).mpr harguments
    have hopen : OneLine (".. " ++ name) := oneLine_append.mpr ⟨by decide, hname⟩
    exact oneLine_append.mpr ⟨no_newline_indentation (level - 1),
      oneLine_append.mpr ⟨oneLine_append.mpr ⟨hopen, by decide⟩, hlist⟩⟩
  have hlines : Text.lines (indentation (level - 1) ++ headingLine name arguments) =
      [indentation (level - 1) ++ headingLine name arguments] := by
    rw [Text.lines, Text.splitChars_of_not_mem hheading]
    simp
  have hbelow := Text.lines_newline "" (indentation (level - 1) ++ headingLine name arguments ++
    "\n" ++ belowHeading level options body)
  rw [String.empty_append, Text.lines_newline (_ ++ _), hlines] at hbelow
  rw [directiveText_eq, hbelow]
  rfl

end Lines

namespace Block

/-- A piece whose texts have one line each, apart from those of a paragraph, and from what is
written as it is. -/
def Tidy : Block → Prop
  | paragraph _ => True
  | field name value => OneLine name ∧ OneLine value
  | doctest line _ => OneLine line
  | list _ items => ∀ item ∈ items, OneLine item
  | table t => t.Regular
  | part _ _ | directive _ _ _ _ => False

/-- What a piece shows as it is keeps to a level. -/
def Fits (level : Int) : Block → Prop
  | doctest _ expected => IndentedBy level expected
  | table t => t.width = 0
  | _ => True

instance (level : Int) : (b : Block) → Decidable (b.Fits level)
  | doctest _ expected => inferInstanceAs (Decidable (IndentedBy level expected))
  | table t => inferInstanceAs (Decidable (t.width = 0))
  | paragraph _ | field _ _ | list _ _ | part _ _ | directive _ _ _ _ =>
    inferInstanceAs (Decidable True)

theorem indentedBy_text_iff {level : Int} (h : 1 ≤ level) {b : Block} (hb : b.Tidy) :
    IndentedBy level (b.text level) ↔ b.Fits level := by
  cases b with
  | paragraph words =>
    rw [text]
    exact iff_of_true (indentedBy_paragraphText (Int.le_refl level) words) trivial
  | field name value =>
    rw [text, fieldText, indentedBy_below]
    exact iff_of_true (indentedBy_optionText level hb.1 hb.2) trivial
  | doctest line expected =>
    have hsplit : doctestText (indentation level) line expected =
        "\n" ++ (indentation level ++ (">>> " ++ line) ++ "\n" ++ (expected ++ "\n" ++ "")) := by
      simp only [doctestText, String.append_assoc, String.append_empty]
    have hline : OneLine (">>> " ++ line) := oneLine_append.mpr ⟨by decide, hb⟩
    rw [text, Fits, hsplit, indentedBy_below, indentedBy_newline, indentedBy_newline,
      and_iff_left (indentedBy_empty level),
      and_iff_right (indentedBy_line (Int.le_refl level) hline)]
  | list kind items =>
    rw [text, listText, indentedBy_below]
    exact iff_of_true (indentedBy_itemsText level kind 1 hb) trivial
  | table t => exact Table.indentedBy_text_iff hb h
  | part heading blocks => exact absurd hb id
  | directive name arguments options blocks => exact absurd hb id

end Block

namespace Store

namespace Edit

/-- The piece that an edit adds, if it adds one. -/
def piece? : Edit → Option Block
  | addParagraph (.text text) => some (.paragraph text)
  | addField name value => some (.field name.shown value.shown)
  | addDoctest line expected => some (.doctest line.shown expected.shown)
  | addList kind items => some (.list kind (items.map Value.shown))
  | addTable rows headings => (Table.ofValues? rows headings).toOption.map .table
  | _ => none

/-- An edit that fills a directive with texts of one line, or with something that may have more:
paragraphs, what a doctest expects, tables. -/
def Plain : Edit → Prop
  | addDirective name arguments => OneLine name.shown ∧ ∀ a ∈ arguments, OneLine a.shown
  | addField name value | addOption name value => OneLine name.shown ∧ OneLine value.shown
  | addDoctest line _ => OneLine line.shown
  | addList _ items => ∀ item ∈ items, OneLine item.shown
  | addParagraph _ | addTable _ _ => True
  | addPart _ | clear | setTitle _ => False

/-- What an edit writes as it is keeps to a level. -/
def Fits (level : Int) (e : Edit) : Prop := ∀ b ∈ e.piece?, b.Fits level

instance : (e : Edit) → Decidable e.Plain
  | addDirective name arguments =>
    inferInstanceAs (Decidable (OneLine name.shown ∧ ∀ a ∈ arguments, OneLine a.shown))
  | addField name value | addOption name value =>
    inferInstanceAs (Decidable (OneLine name.shown ∧ OneLine value.shown))
  | addDoctest line _ => inferInstanceAs (Decidable (OneLine line.shown))
  | addList _ items => inferInstanceAs (Decidable (∀ item ∈ items, OneLine item.shown))
  | addParagraph _ | addTable _ _ => inferInstanceAs (Decidable True)
  | addPart _ | clear | setTitle _ => inferInstanceAs (Decidable False)

instance (level : Int) (e : Edit) : Decidable (e.Fits level) :=
  inferInstanceAs (Decidable (∀ b ∈ e.piece?, b.Fits level))

/-- The options that an edit adds. -/
def options : Edit → List (String × String)
  | addOption name value => [(name.shown, value.shown)]
  | _ => []

/-- The elements that an edit adds if the next handle is known. -/
def elements (next : Nat) : Edit → List Element
  | addDirective _ _ => [.child next]
  | e => e.piece?.toList.map .piece

/-- The writers that an edit makes for a level. -/
def made (level : Int) : Edit → List Writer
  | addDirective name arguments =>
    [⟨.directive (arguments.map Value.shown) [], name, 0, level + 1, []⟩]
  | _ => []

variable {e : Edit}

theorem Plain.tidy (he : e.Plain) {b : Block} (hb : e.piece? = some b) : b.Tidy := by
  cases e with
  | addParagraph v =>
    cases v with
    | text words =>
      cases hb
      trivial
    | _ => cases hb
  | addField name value =>
    cases hb
    exact he
  | addDoctest line expected =>
    cases hb
    exact he
  | addList kind items =>
    cases hb
    exact List.forall_mem_map.mpr he
  | addTable rows headings =>
    obtain ⟨t, ht, rfl⟩ := Option.map_eq_some_iff.mp hb
    cases hmade : Table.ofValues? rows headings with
    | error fault =>
      rw [hmade] at ht
      cases ht
    | ok made =>
      rw [hmade] at ht
      cases ht
      exact Table.regular_of_ofValues hmade
  | _ => cases hb

end Edit

variable {s : Store} {handle : Nat} {w : Writer} {e : Edit}

theorem edit_of_none (h : s.writers[handle]? = none) (e : Edit) : (s.edit handle e).1 = s := by
  simp only [edit, h]

/-- All that an edit does to a directive: the directive grows, and there may be a new one. -/
theorem edit_directive (hheaders : s.headers.checkDirective = .ok ())
    (hw : s.writers[handle]? = some w) (hform : w.form.isDirective = true) (he : e.Plain) :
    (s.edit handle e).1 = ⟨s.headers,
      s.writers.modify handle (Writer.grown e.options (e.elements s.writers.length)) ++
        e.made w.indent⟩ := by
  have hgrown (x : Element) : (fun w : Writer => w.add x) = Writer.grown [] [x] :=
    funext fun w => w.add_eq_grown x
  have hsame := Writer.modify_grown_nil s.writers handle
  cases e with
  | addDirective name arguments =>
    have hnew : Writer.newDirective s.headers name arguments w.indent =
        .ok ⟨.directive (arguments.map Value.shown) [], name, 0, w.indent + 1, []⟩ := by
      rw [Writer.newDirective, hheaders]
      rfl
    simp only [edit, hw, hnew]
    exact congrArg (Store.mk s.headers) (by rw [modify, hgrown]; rfl)
  | addParagraph v =>
    cases v with
    | text words =>
      simp [edit, hw, modify, hgrown, Edit.options, Edit.elements, Edit.piece?, Edit.made]
    | _ => simp [edit, hw, hsame, Edit.options, Edit.elements, Edit.piece?, Edit.made]
  | addField | addDoctest | addList =>
    simp [edit, hw, modify, hgrown, Edit.options, Edit.elements, Edit.piece?, Edit.made]
  | addTable rows headings =>
    cases hmade : Table.ofValues? rows headings with
    | error fault =>
      simp only [edit, hw, hmade, Edit.options, Edit.elements, Edit.piece?, Edit.made,
        Except.toOption, Option.map_none, Option.toList_none, List.map_nil, hsame, List.append_nil]
      rfl
    | ok t =>
      simp only [edit, hw, hmade, Edit.options, Edit.elements, Edit.piece?, Edit.made,
        Except.toOption, Option.map_some, Option.toList_some, List.map_cons, List.map_nil,
        List.append_nil, modify, hgrown]
      rfl
  | addOption name value =>
    simp only [edit, hw, addOption_eq, hform, if_true]
    refine (modify_replaced hw (Writer.grown [(name.shown, value.shown)] [])).trans ?_
    simp [modify, Edit.options, Edit.elements, Edit.piece?, Edit.made]
  | addPart | clear | setTitle => exact absurd he id

end Store

/-- A directive whose heading and options have one line each. -/
def Form.Plain : Form → Prop
  | part _ => False
  | directive arguments options =>
    (∀ a ∈ arguments, OneLine a) ∧ ∀ o ∈ options, OneLine o.1 ∧ OneLine o.2

/-- An element belongs into a writer of a level: a child has been made later and is one level
deeper. -/
def Element.Belongs (ws : List Writer) (handle : Nat) (level : Int) : Element → Prop
  | piece b => b.Tidy
  | child i => handle < i ∧ ∃ d, ws[i]? = some d ∧ d.indent = level + 1

def Element.Fits (level : Int) : Element → Prop
  | piece b => b.Fits level
  | child _ => True

/-- A directive among others. -/
structure Writer.PlainIn (ws : List Writer) (handle : Nat) (w : Writer) : Prop where
  title : OneLine w.title.shown
  form : w.form.Plain
  level : 1 ≤ w.indent
  elements : ∀ x ∈ w.elements, x.Belongs ws handle w.indent

namespace Store

/-- There are only directives in a store. -/
structure Plain (s : Store) : Prop where
  headers : s.headers.checkDirective = .ok ()
  writers : ∀ (i : Nat) (w : Writer), s.writers[i]? = some w → w.PlainIn s.writers i

/-- Whatever a store writes as it is keeps to the level that it has there. -/
def Fits (s : Store) : Prop :=
  ∀ (i : Nat) (w : Writer), s.writers[i]? = some w → ∀ x ∈ w.elements, x.Fits w.indent

section Changes

variable {ws new : List Writer} {handle : Nat} {f : Writer → Writer}

theorem getElem?_modify_append (handle : Nat) (f : Writer → Writer) (new : List Writer) {i : Nat}
    {d : Writer} (hd : ws[i]? = some d) :
    (ws.modify handle f ++ new)[i]? = some (if handle = i then f d else d) := by
  have hlt : i < (ws.modify handle f).length := by
    rw [List.length_modify]
    exact (List.getElem?_eq_some_iff.mp hd).1
  rw [List.getElem?_append_left hlt, List.getElem?_modify, hd, Option.map_eq_map, Option.map_some]

/-- What holds of all writers after one of them has been changed and others made. -/
theorem forall_modify_append {P : Nat → Writer → Prop} :
    (∀ i w, (ws.modify handle f ++ new)[i]? = some w → P i w) ↔
      (∀ i w, ws[i]? = some w → P i (if handle = i then f w else w)) ∧
        ∀ i w, new[i]? = some w → P (ws.length + i) w := by
  constructor
  · intro h
    refine ⟨fun i w hw => h i _ (getElem?_modify_append handle f new hw), fun i w hw => h _ w ?_⟩
    rw [List.getElem?_append_right (by simp), List.length_modify, Nat.add_sub_cancel_left, hw]
  · rintro ⟨hold, hnew⟩ i w hw
    by_cases hlt : i < ws.length
    · rw [List.getElem?_append_left (by rwa [List.length_modify]), List.getElem?_modify] at hw
      obtain ⟨v, hv, rfl⟩ := Option.map_eq_some_iff.mp hw
      exact hold i v hv
    · rw [List.getElem?_append_right (by rw [List.length_modify]; omega), List.length_modify] at hw
      have hi := hnew (i - ws.length) w hw
      rwa [Nat.add_sub_cancel' (Nat.le_of_not_lt hlt)] at hi

/-- A writer keeps its level when one of them grows. -/
theorem exists_grown (handle : Nat) (options : List (String × String)) (es : List Element)
    (new : List Writer) {i : Nat} {d : Writer} (hd : ws[i]? = some d) :
    ∃ d', (ws.modify handle (Writer.grown options es) ++ new)[i]? = some d' ∧
      d'.indent = d.indent := by
  refine ⟨_, getElem?_modify_append handle (Writer.grown options es) new hd, ?_⟩
  split <;> rfl

theorem belongs_grown {options : List (String × String)} {es : List Element} {i : Nat} {level : Int}
    {x : Element} (h : x.Belongs ws i level) :
    x.Belongs (ws.modify handle (Writer.grown options es) ++ new) i level := by
  cases x with
  | piece b => exact h
  | child j =>
    obtain ⟨hlt, d, hd, hlevel⟩ := h
    obtain ⟨d', hd', hsame⟩ := exists_grown handle options es new hd
    exact ⟨hlt, d', hd', hsame.trans hlevel⟩

end Changes

variable {s : Store} {handle : Nat} {w : Writer} {e : Edit}

theorem form_withOptions {form : Form} (h : form.Plain) (he : e.Plain) :
    (form.withOptions e.options).Plain := by
  cases form with
  | part heading => exact absurd h id
  | directive arguments options =>
    refine ⟨h.1, List.forall_mem_append.mpr ⟨h.2, ?_⟩⟩
    cases e with
    | addOption name value => exact List.forall_mem_singleton.mpr he
    | _ => exact fun o ho => absurd ho List.not_mem_nil

/-- What an edit adds belongs where it is added. -/
theorem belongs_elements {ws : List Writer} {f : Writer → Writer} {level : Int}
    (hlt : handle < ws.length) (he : e.Plain) :
    ∀ x ∈ e.elements ws.length, x.Belongs (ws.modify handle f ++ e.made level) handle level := by
  intro x hx
  cases e with
  | addDirective name arguments =>
    obtain rfl := List.mem_singleton.mp hx
    refine ⟨hlt, ⟨.directive (arguments.map Value.shown) [], name, 0, level + 1, []⟩, ?_, rfl⟩
    rw [List.getElem?_append_right (by simp), List.length_modify, Nat.sub_self]
    rfl
  | _ =>
    obtain ⟨b, hb, rfl⟩ := List.mem_map.mp hx
    exact he.tidy (Option.mem_toList.mp hb)

theorem plainIn_made {ws : List Writer} {i j : Nat} {level : Int} (hlevel : 1 ≤ level)
    (he : e.Plain) (hw : (e.made level)[i]? = some w) : w.PlainIn ws j := by
  cases e with
  | addDirective name arguments =>
    obtain rfl := List.mem_singleton.mp (List.mem_of_getElem? hw)
    have hdeeper : 1 ≤ level + 1 := by omega
    exact ⟨he.1, ⟨List.forall_mem_map.mpr he.2, by simp⟩, hdeeper, by simp⟩
  | _ => cases hw

theorem isDirective_of_plain {form : Form} (h : form.Plain) : form.isDirective = true := by
  cases form with
  | part heading => exact absurd h id
  | directive arguments options => rfl

theorem Plain.edit_eq (hs : s.Plain) (hw : s.writers[handle]? = some w) (he : e.Plain) :
    (s.edit handle e).1 = ⟨s.headers,
      s.writers.modify handle (Writer.grown e.options (e.elements s.writers.length)) ++
        e.made w.indent⟩ :=
  edit_directive hs.headers hw (isDirective_of_plain (hs.writers handle w hw).form) he

/-- A store of directives stays one, whatever is added to it. -/
theorem plain_edit (hs : s.Plain) (he : e.Plain) : (s.edit handle e).1.Plain := by
  cases hw : s.writers[handle]? with
  | none => rwa [edit_of_none hw]
  | some w =>
    have hplain := hs.writers handle w hw
    have hlt := (List.getElem?_eq_some_iff.mp hw).1
    rw [hs.edit_eq hw he]
    refine ⟨hs.headers, forall_modify_append.mpr ⟨fun i v hv => ?_, fun i v hv => ?_⟩⟩
    · have hbefore := hs.writers i v hv
      have hkept : ∀ x ∈ v.elements, x.Belongs (s.writers.modify handle (Writer.grown e.options
          (e.elements s.writers.length)) ++ e.made w.indent) i v.indent :=
        fun x hx => belongs_grown (hbefore.elements x hx)
      split
      · next hi =>
        obtain rfl := hi
        obtain rfl : w = v := Option.some.inj (hw.symm.trans hv)
        exact ⟨hbefore.title, form_withOptions hbefore.form he, hbefore.level,
          List.forall_mem_append.mpr ⟨hkept, belongs_elements hlt he⟩⟩
      · exact ⟨hbefore.title, hbefore.form, hbefore.level, hkept⟩
    · exact plainIn_made hplain.level he hv

theorem level_edit (handle : Nat) (hs : s.Plain) (he : e.Plain) {i : Nat} {d : Writer}
    (hd : s.writers[i]? = some d) :
    ∃ d', (s.edit handle e).1.writers[i]? = some d' ∧ d'.indent = d.indent := by
  cases hw : s.writers[handle]? with
  | none => exact ⟨d, by rwa [edit_of_none hw], rfl⟩
  | some w =>
    rw [hs.edit_eq hw he]
    exact exists_grown handle _ _ _ hd

theorem fits_elements_iff {level : Int} (next : Nat) :
    (∀ x ∈ e.elements next, x.Fits level) ↔ e.Fits level := by
  cases e with
  | addDirective name arguments => simp [Edit.elements, Element.Fits, Edit.Fits, Edit.piece?]
  | _ => simp [Edit.elements, Element.Fits, Edit.Fits]

theorem fits_edit_iff (hs : s.Plain) (he : e.Plain) (hw : s.writers[handle]? = some w) :
    (s.edit handle e).1.Fits ↔ s.Fits ∧ e.Fits w.indent := by
  have hmade : ∀ (i : Nat) (v : Writer), (e.made w.indent)[i]? = some v →
      ∀ x ∈ v.elements, x.Fits v.indent := by
    intro i v hv x hx
    cases e with
    | addDirective name arguments =>
      obtain rfl := List.mem_singleton.mp (List.mem_of_getElem? hv)
      cases hx
    | _ => cases hv
  rw [hs.edit_eq hw he, Fits, forall_modify_append, and_iff_left hmade,
    ← fits_elements_iff s.writers.length]
  constructor
  · intro h
    refine ⟨fun i v hv x hx => ?_, fun x hx => ?_⟩
    · have hi := h i v hv
      split at hi
      · exact hi x (List.mem_append_left _ hx)
      · exact hi x hx
    · have hhandle := h handle w hw
      rw [if_pos rfl] at hhandle
      exact hhandle x (List.mem_append_right _ hx)
  · rintro ⟨hold, hadded⟩ i v hv
    split
    · next hi =>
      obtain rfl := hi
      obtain rfl : w = v := Option.some.inj (hw.symm.trans hv)
      exact List.forall_mem_append.mpr ⟨hold handle w hw, hadded⟩
    · exact hold i v hv

/-- The store after edits, each of a writer. -/
def run (s : Store) (edits : List (Nat × Edit)) : Store :=
  edits.foldl (fun s p => (s.edit p.1 p.2).1) s

/-- The edits of writers that there are, with the levels of the writers. -/
def leveled (s : Store) : List (Nat × Edit) → List (Int × Edit)
  | [] => []
  | p :: edits =>
    (s.writers[p.1]?.toList.map fun w => (w.indent, p.2)) ++ (s.edit p.1 p.2).1.leveled edits

theorem plain_run {edits : List (Nat × Edit)} (hs : s.Plain) (h : ∀ p ∈ edits, p.2.Plain) :
    (s.run edits).Plain := by
  induction edits generalizing s with
  | nil => exact hs
  | cons p edits ih =>
    obtain ⟨hp, hedits⟩ := List.forall_mem_cons.mp h
    exact ih (plain_edit hs hp) hedits

theorem level_run {edits : List (Nat × Edit)} (hs : s.Plain) (h : ∀ p ∈ edits, p.2.Plain) {i : Nat}
    {d : Writer} (hd : s.writers[i]? = some d) :
    ∃ d', (s.run edits).writers[i]? = some d' ∧ d'.indent = d.indent := by
  induction edits generalizing s d with
  | nil => exact ⟨d, hd, rfl⟩
  | cons p edits ih =>
    obtain ⟨hp, hedits⟩ := List.forall_mem_cons.mp h
    obtain ⟨v, hv, hsame⟩ := level_edit p.1 hs hp hd
    obtain ⟨d', hd', hrest⟩ := ih (plain_edit hs hp) hedits hv
    exact ⟨d', hd', hrest.trans hsame⟩

/-- What is written as it is after a run was there before, or has been added by an edit. -/
theorem fits_run_iff {edits : List (Nat × Edit)} (hs : s.Plain) (h : ∀ p ∈ edits, p.2.Plain) :
    (s.run edits).Fits ↔ s.Fits ∧ ∀ p ∈ s.leveled edits, p.2.Fits p.1 := by
  induction edits generalizing s with
  | nil => simp [run, leveled]
  | cons p edits ih =>
    obtain ⟨hp, hedits⟩ := List.forall_mem_cons.mp h
    rw [run, List.foldl_cons, ← run, ih (plain_edit hs hp) hedits, leveled, List.forall_mem_append,
      ← and_assoc]
    refine and_congr_left' ?_
    cases hw : s.writers[p.1]? with
    | none => simp [edit_of_none hw]
    | some w => simp [fits_edit_iff hs hp hw]

/-- The text of an element in a writer of a level. -/
def elementText (s : Store) (level : Int) : Element → String
  | .piece b => b.text level
  | .child i => s.text i

/-- A directive in another one is written there as it is by itself. -/
theorem text_child {d : Writer} {i : Nat} {level : Int} (hlt : handle < i)
    (hd : s.writers[i]? = some d) (hform : d.form.isDirective = true)
    (hlevel : d.indent = level + 1) :
    (Writer.elementBlock handle (s.later handle) (.child i)).text level = s.text i := by
  rw [elementBlock_child hlt hd, text_of_getElem? hd]
  unfold Writer.toBlock Writer.text
  cases hcase : d.form with
  | part heading => simp [hcase, Form.isDirective] at hform
  | directive arguments options => rw [Block.text, hlevel]

theorem text_eq_directiveText (hs : s.Plain) (hw : s.writers[handle]? = some w)
    {arguments : List String} {options : List (String × String)}
    (hform : w.form = .directive arguments options) :
    s.text handle = directiveText w.indent w.title.shown arguments options
      (endedLines (w.elements.map (s.elementText w.indent))) := by
  have htexts : (w.blocks handle (s.later handle)).map (Block.text w.indent) =
      w.elements.map (s.elementText w.indent) := by
    rw [Writer.blocks, List.map_map]
    refine List.map_congr_left fun x hx => ?_
    cases x with
    | piece b => rfl
    | child i =>
      obtain ⟨hlt, d, hd, hlevel⟩ := (hs.writers handle w hw).elements _ hx
      exact text_child hlt hd (isDirective_of_plain (hs.writers i d hd).form) hlevel
  rw [text_of_getElem? hw, Writer.text, hform, Block.textOfAll_eq, htexts]

/-- The lines of a directive below its heading are indented by its level. -/
def Holds (s : Store) (handle : Nat) (w : Writer) : Prop :=
  ∀ line ∈ (Text.lines (s.text handle)).drop 2, IsIndentedBy w.indent line

/-- The lines of a directive: an empty one, its heading at the level that the directive stands in,
and its body. -/
theorem exists_lines_text (hs : s.Plain) (hw : s.writers[handle]? = some w) :
    ∃ arguments options, w.form = .directive arguments options ∧
      Text.lines (s.text handle) =
        "" :: (indentation (w.indent - 1) ++ headingLine w.title.shown arguments) ::
          Text.lines (belowHeading w.indent options
            (endedLines (w.elements.map (s.elementText w.indent)))) ∧
      (s.Holds handle w ↔ ∀ x ∈ w.elements, IndentedBy w.indent (s.elementText w.indent x)) := by
  have hplain := hs.writers handle w hw
  cases hform : w.form with
  | part heading =>
    have hpart : Form.Plain (.part heading) := hform ▸ hplain.form
    exact absurd hpart id
  | directive arguments options =>
    obtain ⟨harguments, hoptions⟩ : Form.Plain (.directive arguments options) :=
      hform ▸ hplain.form
    have hlines := text_eq_directiveText hs hw hform ▸ lines_directiveText w.indent hplain.title
      harguments options (endedLines (w.elements.map (s.elementText w.indent)))
    refine ⟨arguments, options, rfl, hlines, ?_⟩
    rw [Holds, hlines]
    refine (indentedBy_belowHeading hoptions).trans ?_
    rw [indentedBy_endedLines, List.forall_mem_map]

/-- A directive whose body is indented is itself indented by the level above. -/
theorem indentedBy_child (hs : s.Plain) {level : Int} {d : Writer} {i : Nat}
    (hd : s.writers[i]? = some d) (hlevel : d.indent = level + 1) (h : s.Holds i d) :
    IndentedBy level (s.text i) := by
  obtain ⟨arguments, options, -, hlines, -⟩ := exists_lines_text hs hd
  have hlower : d.indent - 1 = level := by omega
  have hbelow : ∀ line ∈ (Text.lines (s.text i)).drop 2, IsIndentedBy level line := by
    intro line hline
    exact (h line hline).mono (by omega)
  rw [hlines] at hbelow
  rw [IndentedBy, hlines, List.forall_mem_cons, List.forall_mem_cons, hlower]
  exact ⟨.inl (by simp), isIndentedBy_indentation (Int.le_refl level) _, hbelow⟩

/-- All bodies are indented just if what is written as it is keeps to its level. -/
theorem holds_iff_fits (hs : s.Plain) :
    (∀ (i : Nat) (w : Writer), s.writers[i]? = some w → s.Holds i w) ↔ s.Fits := by
  constructor
  · intro h i w hw x hx
    obtain ⟨-, -, -, -, hiff⟩ := exists_lines_text hs hw
    have hplain := hs.writers i w hw
    cases x with
    | piece b =>
      have htidy : b.Tidy := hplain.elements (.piece b) hx
      have htext : IndentedBy w.indent (b.text w.indent) := hiff.mp (h i w hw) (.piece b) hx
      exact (Block.indentedBy_text_iff hplain.level htidy).mp htext
    | child j => trivial
  · intro hfits
    -- A child has a greater handle, so the induction is on how many handles are left.
    have hleft : ∀ n i w, s.writers.length - i = n → s.writers[i]? = some w → s.Holds i w := by
      intro n
      induction n using Nat.strongRecOn with
      | ind n ih =>
        intro i w hn hw
        obtain ⟨-, -, -, -, hiff⟩ := exists_lines_text hs hw
        have hplain := hs.writers i w hw
        refine hiff.mpr fun x hx => ?_
        cases x with
        | piece b =>
          have htidy : b.Tidy := hplain.elements (.piece b) hx
          exact (Block.indentedBy_text_iff hplain.level htidy).mpr (hfits i w hw (.piece b) hx)
        | child j =>
          obtain ⟨hlt, d, hd, hlevel⟩ := hplain.elements _ hx
          have hj := (List.getElem?_eq_some_iff.mp hd).1
          exact indentedBy_child hs hd hlevel (ih _ (by omega) j d rfl hd)
    exact fun i w hw => hleft _ i w rfl hw

/-- The text of a child stands in the text of the directive that it is in. -/
theorem within_child (hs : s.Plain) (hw : s.writers[handle]? = some w) {i : Nat}
    (hi : .child i ∈ w.elements) : Within (s.text i) (s.text handle) := by
  obtain ⟨arguments, options, hform, -, -⟩ := exists_lines_text hs hw
  have hbody : Within (s.text i) (endedLines (w.elements.map (s.elementText w.indent))) :=
    within_endedLines (List.mem_map_of_mem (f := s.elementText w.indent) hi)
  rw [text_eq_directiveText hs hw hform]
  exact hbody.trans (within_directiveText _ _ _ _ _)

/-- A new directive by itself. -/
theorem plain_start {h : Headers} {name : Value} {arguments : List Value} {n : Int}
    (hn : 1 ≤ n) (hw : Writer.newDirective h name arguments (n - 1) = .ok w)
    (hname : OneLine name.shown) (harguments : ∀ a ∈ arguments, OneLine a.shown) :
    (start h w).Plain ∧ w.indent = n ∧ w.elements = [] := by
  obtain ⟨⟨⟩, hheaders, hw⟩ := exists_of_bind_ok hw
  cases hw
  have hlevel : n - 1 + 1 = n := by omega
  have hform : Form.Plain (.directive (arguments.map Value.shown) []) :=
    ⟨List.forall_mem_map.mpr harguments, by simp⟩
  refine ⟨⟨hheaders, fun i v hv => ?_⟩, hlevel, rfl⟩
  obtain rfl := List.mem_singleton.mp (List.mem_of_getElem? hv)
  exact ⟨hname, hform, hlevel.symm ▸ hn, by simp⟩

/-- Directives are filled call by call, by texts of one line, paragraphs, doctests and tables. Each
has its heading on a line of its own and stands in the text of the one that it was made in, one
level deeper. All lines below the headings are blank or indented by three spaces for each level just
if so is, at its place, what every doctest expects, and nothing in any table takes a place. -/
theorem bodies_indented_iff (h : Headers) (name : Value) (arguments : List Value) (n : Int)
    (w : Writer) (edits : List (Nat × Edit)) (hn : 1 ≤ n)
    (hw : Writer.newDirective h name arguments (n - 1) = .ok w) (hname : OneLine name.shown)
    (harguments : ∀ a ∈ arguments, OneLine a.shown) (hedits : ∀ p ∈ edits, p.2.Plain) :
    let s := (start h w).run edits
    (∃ root : Writer, s.writers[0]? = some root ∧ root.indent = n) ∧
      (∀ (i : Nat) (d : Writer), s.writers[i]? = some d →
        (∃ arguments options, d.form = .directive arguments options ∧
          (Text.lines (s.text i)).take 2 =
            ["", indentation (d.indent - 1) ++ headingLine d.title.shown arguments]) ∧
        ∀ j, .child j ∈ d.elements → Within (s.text j) (s.text i) ∧
          ∃ c : Writer, s.writers[j]? = some c ∧ c.indent = d.indent + 1) ∧
      ((∀ (i : Nat) (d : Writer), s.writers[i]? = some d →
        ∀ line ∈ (Text.lines (s.text i)).drop 2, IsIndentedBy d.indent line) ↔
          ∀ p ∈ (start h w).leveled edits, p.2.Fits p.1) := by
  intro s
  obtain ⟨hstart, hlevel, hempty⟩ := plain_start hn hw hname harguments
  have hs : s.Plain := plain_run hstart hedits
  refine ⟨?_, fun i d hd => ⟨?_, fun j hj => ⟨within_child hs hd hj, ?_⟩⟩, ?_⟩
  · obtain ⟨root, hroot, hsame⟩ := level_run hstart hedits (i := 0) (d := w) rfl
    exact ⟨root, hroot, hsame.trans hlevel⟩
  · obtain ⟨arguments, options, hform, hlines, -⟩ := exists_lines_text hs hd
    exact ⟨arguments, options, hform, by rw [hlines]; rfl⟩
  · obtain ⟨-, hchild⟩ := (hs.writers i d hd).elements _ hj
    exact hchild
  · have hnothing : (start h w).Fits := by
      intro i v hv x hx
      obtain rfl := List.mem_singleton.mp (List.mem_of_getElem? hv)
      rw [hempty] at hx
      cases hx
    refine (holds_iff_fits hs).trans ?_
    rw [fits_run_iff hstart hedits, and_iff_right hnothing]

def emptyNote : Writer := ⟨.directive [] [], .text "note", 0, 1, []⟩

/-- What is done to a note and to a warning in it, in turns. -/
def turns : List (Nat × Edit) :=
  [(0, .addDirective (.text "warning") [.text "a"]), (1, .addParagraph (.text "first\nsecond")),
    (0, .addField (.text "type") (.text "str")),
    (1, .addDoctest (.text "1 + 1") (.text "      2")), (1, .addOption (.text "class") (.text "c")),
    (0, .addTable (.list [.list [.text ""]]) (.list []))]

theorem turns_indented :
    Writer.newDirective .preset (.text "note") [] (1 - 1) = .ok emptyNote ∧
      (∀ p ∈ turns, p.2.Plain) ∧
      (∀ p ∈ (start .preset emptyNote).leveled turns, p.2.Fits p.1) ∧
      ∀ (i : Nat) (d : Writer), ((start .preset emptyNote).run turns).writers[i]? = some d →
        ∀ line ∈ (Text.lines (((start .preset emptyNote).run turns).text i)).drop 2,
          IsIndentedBy d.indent line := by
  have hnew : Writer.newDirective .preset (.text "note") [] (1 - 1) = .ok emptyNote := rfl
  have hplain : ∀ p ∈ turns, p.2.Plain := by decide
  have hfits : ∀ p ∈ (start .preset emptyNote).leveled turns, p.2.Fits p.1 := by decide
  obtain ⟨-, -, hiff⟩ := bodies_indented_iff .preset (.text "note") [] 1 emptyNote turns
    (Int.le_refl 1) hnew (by decide) (by simp) hplain
  exact ⟨hnew, hplain, hfits, hiff.mpr hfits⟩

/-- What a doctest expects is not indented. -/
theorem expected_at_margin :
    ((start .preset emptyNote).run [(0, .addDoctest (.text "1 + 1") (.text "2"))]).text 0 =
        "\n.. note:: \n\n\n   >>> 1 + 1\n2\n\n" ∧
      "2" ∈ (Text.lines "\n.. note:: \n\n\n   >>> 1 + 1\n2\n\n").drop 2 ∧
      ¬ IsIndentedBy 1 "2" := by decide

end Store

end CMakeDocs.Rst
