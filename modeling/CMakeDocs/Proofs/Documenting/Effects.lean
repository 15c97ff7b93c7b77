import CMakeDocs.Proofs.Documenting.Bodies

/-!
# What an edit does

An edit does one of a few things to the writer that it is for: it adds a piece, an option or a new
writer, takes everything out, gives another title, or is refused. Which of them depends on what
never changes of the writer, and on nothing that has been written so far. All other writers stay as
they are.
-/
namespace CMakeDocs.Rst

open Store (Edit)

/-- What never changes of a writer. -/
structure Writer.Kind where
  isDirective : Bool
  depth : Int
  indent : Int

def Writer.kind (w : Writer) : Writer.Kind := ⟨w.form.isDirective, w.depth, w.indent⟩

/-- A section with another heading, if there is one. -/
def Form.headed (heading : Option String) : Form → Form
  | part old => part (heading.getD old)
  | directive arguments options => directive arguments options

/-- What can be done to a writer. -/
inductive Effect where
  | refuses (e : Error)
  | adds (b : Block)
  | makes (d : Writer)
  | opts (name value : String)
  | clears
  /-- A title is taken in any case, although it may have no heading, or a fault. -/
  | titles (title : Value) (heading : Option String) (fault : Option Error)

namespace Effect

/-- The writer afterwards; a writer that is made gets the next handle. -/
def apply (effect : Effect) (next : Nat) (w : Writer) : Writer :=
  match effect with
  | refuses _ => w
  | adds b => w.add (.piece b)
  | makes _ => w.add (.child next)
  | opts name value => w.grown [(name, value)] []
  | clears => { w with elements := [] }
  | titles title heading _ => { w with title := title, form := w.form.headed heading }

/-- The writer that is made. -/
def made : Effect → Option Writer
  | makes d => some d
  | _ => none

/-- What is wrong. -/
def fault : Effect → Option Error
  | refuses e => some e
  | titles _ _ fault => fault
  | _ => none

/-- Makes a writer if that is possible. -/
def ofMade : Except Error Writer → Effect
  | .ok d => makes d
  | .error e => refuses e

/-- Adds a piece if that is possible. -/
def ofPiece : Except Error Block → Effect
  | .ok b => adds b
  | .error e => refuses e

/-- Gives a section a title, with the heading of the title if that is possible. -/
def ofHeading (title : Value) : Except Error String → Effect
  | .ok heading => titles title (some heading) none
  | .error e => titles title none (some e)

end Effect

/-- What an edit does to a writer of a kind. -/
def Writer.Kind.effect (h : Headers) (k : Kind) : Edit → Effect
  | .addPart title => .ofMade (newPart h title (k.depth + 1) 0)
  | .addDirective name arguments => .ofMade (newDirective h name arguments k.indent)
  | .addParagraph (.text text) => .adds (.paragraph text)
  | .addParagraph v => .refuses (.misuse (.noLines v))
  | .addField name value => .adds (.field name.shown value.shown)
  | .addDoctest line expected => .adds (.doctest line.shown expected.shown)
  | .addList kind items => .adds (.list kind (items.map Value.shown))
  | .addTable rows headings => .ofPiece ((Table.ofValues? rows headings).map .table)
  | .addOption name value =>
    if k.isDirective then .opts name.shown value.shown else .refuses .noOptions
  | .clear => .clears
  | .setTitle title =>
    if k.isDirective then .titles title none none else .ofHeading title (h.heading k.depth title)

theorem Effect.kind_apply (effect : Effect) (next : Nat) (w : Writer) :
    (effect.apply next w).kind = w.kind := by
  cases effect with
  | refuses | adds | makes | clears => rfl
  | opts name value =>
    rw [apply, Writer.kind, Writer.isDirective_grown]
    rfl
  | titles title heading fault =>
    rw [apply, Writer.kind, Writer.kind]
    cases w.form <;> rfl

namespace Store

variable {s : Store} {handle : Nat} {w : Writer}

/-- The store after something has been done to one of its writers. -/
def after (s : Store) (handle : Nat) (effect : Effect) : Store :=
  ⟨s.headers, s.writers.modify handle (effect.apply s.writers.length) ++ effect.made.toList⟩

@[simp] theorem after_headers (s : Store) (handle : Nat) (effect : Effect) :
    (s.after handle effect).headers = s.headers := rfl

@[simp] theorem after_writers (s : Store) (handle : Nat) (effect : Effect) :
    (s.after handle effect).writers =
      s.writers.modify handle (effect.apply s.writers.length) ++ effect.made.toList := rfl

theorem after_of_not_made (s : Store) (handle : Nat) (effect : Effect)
    (hmade : effect.made = none) :
    s.after handle effect = s.modify handle (effect.apply s.writers.length) := by
  rw [after, hmade, Option.toList_none, List.append_nil, modify]

theorem after_refuses (s : Store) (handle : Nat) (fault : Error) :
    s.after handle (.refuses fault) = s := by
  have hid : (Effect.refuses fault).apply s.writers.length = id := rfl
  rw [after_of_not_made s handle _ rfl, hid, modify, List.modify_id]

/-- A writer may be put in the place of the one that it has come from. -/
theorem after_eq_replaced (hw : s.writers[handle]? = some w) {effect : Effect}
    (hmade : effect.made = none) :
    s.after handle effect = s.modify handle fun _ => effect.apply s.writers.length w := by
  rw [after_of_not_made s handle effect hmade, modify_replaced hw]

theorem attempt_made (s : Store) (handle : Nat) (made : Except Error Writer) :
    s.attempt (made.bind fun d => .ok (s.addChild handle d)) =
      (s.after handle (.ofMade made), (Effect.ofMade made).fault) := by
  cases made with
  | error fault => exact congrArg (·, some fault) (after_refuses s handle fault).symm
  | ok d => rfl

theorem attempt_piece (s : Store) (handle : Nat) (piece : Except Error Block) :
    s.attempt (piece.bind fun b => .ok (s.modify handle (·.add (.piece b)))) =
      (s.after handle (.ofPiece piece), (Effect.ofPiece piece).fault) := by
  cases piece with
  | error fault => exact congrArg (·, some fault) (after_refuses s handle fault).symm
  | ok b => exact congrArg (·, none) (after_of_not_made s handle (.adds b) rfl).symm

theorem made_setTitle (h : Headers) (k : Writer.Kind) (title : Value) :
    (k.effect h (.setTitle title)).made = none := by
  rw [Writer.Kind.effect]
  split
  · rfl
  · cases h.heading k.depth title <;> rfl

theorem retitle_eq (h : Headers) (title : Value) (next : Nat) (w : Writer) :
    w.retitle h title = ((w.kind.effect h (.setTitle title)).apply next w,
      (w.kind.effect h (.setTitle title)).fault) := by
  obtain ⟨form, old, depth, indent, elements⟩ := w
  cases form with
  | directive arguments options => rfl
  | part heading =>
    simp only [Writer.retitle, Writer.Kind.effect, Writer.kind, Form.isDirective]
    cases h.heading depth title <;> rfl

/-- An edit does what the kind of the writer tells, and nothing else. -/
theorem edit_eq_after (hw : s.writers[handle]? = some w) (e : Edit) :
    s.edit handle e =
      (s.after handle (w.kind.effect s.headers e), (w.kind.effect s.headers e).fault) := by
  have hadded (b : Block) : (s.modify handle (·.add (.piece b)), none) =
      (s.after handle (.adds b), (Effect.adds b).fault) := attempt_piece s handle (.ok b)
  cases e with
  | addPart title =>
    simp only [edit, hw]
    exact attempt_made s handle (Writer.newPart s.headers title (w.depth + 1) 0)
  | addDirective name arguments =>
    simp only [edit, hw]
    exact attempt_made s handle (Writer.newDirective s.headers name arguments w.indent)
  | addParagraph v =>
    cases v with
    | text text =>
      simp only [edit, hw]
      exact hadded (.paragraph text)
    | _ =>
      simp only [edit, hw, Writer.Kind.effect, after_refuses, Effect.fault]
  | addField name value =>
    simp only [edit, hw]
    exact hadded (.field name.shown value.shown)
  | addDoctest line expected =>
    simp only [edit, hw]
    exact hadded (.doctest line.shown expected.shown)
  | addList kind items =>
    simp only [edit, hw]
    exact hadded (.list kind (items.map Value.shown))
  | addTable rows headings =>
    simp only [edit, hw]
    rw [Writer.Kind.effect, ← attempt_piece]
    cases Table.ofValues? rows headings <;> rfl
  | addOption name value =>
    simp only [edit, hw, addOption_eq]
    cases hform : w.form.isDirective with
    | true =>
      simp only [Writer.Kind.effect, Writer.kind, hform, if_true]
      rw [after_eq_replaced hw rfl]
      rfl
    | false =>
      simp only [Writer.Kind.effect, Writer.kind, hform, Bool.false_eq_true, if_false,
        after_refuses]
      rfl
  | clear =>
    simp only [edit, hw]
    exact congrArg (·, none) (after_of_not_made s handle .clears rfl).symm
  | setTitle title =>
    simp only [edit, hw, retitle_eq s.headers title s.writers.length w]
    rw [after_eq_replaced hw (made_setTitle s.headers w.kind title)]

theorem headers_edit (s : Store) (handle : Nat) (e : Edit) :
    (s.edit handle e).1.headers = s.headers := by
  cases hw : s.writers[handle]? with
  | none => rw [edit_of_none hw]
  | some w =>
    rw [edit_eq_after hw]
    rfl

theorem getElem?_after (s : Store) (handle : Nat) (effect : Effect) {i : Nat} {d : Writer}
    (hd : s.writers[i]? = some d) : (s.after handle effect).writers[i]? =
      some (if handle = i then effect.apply s.writers.length d else d) :=
  getElem?_modify_append handle (effect.apply s.writers.length) effect.made.toList hd

/-- A new writer gets the next handle. -/
theorem getElem?_after_made (s : Store) (handle : Nat) {effect : Effect} {d : Writer}
    (hmade : effect.made = some d) :
    (s.after handle effect).writers[s.writers.length]? = some d := by
  rw [after, hmade, List.getElem?_append_right (by simp), List.length_modify, Nat.sub_self]
  rfl

/-- A writer keeps its handle and its kind. -/
theorem exists_kind_after (s : Store) (handle : Nat) (effect : Effect) {i : Nat} {d : Writer}
    (hd : s.writers[i]? = some d) :
    ∃ d', (s.after handle effect).writers[i]? = some d' ∧ d'.kind = d.kind := by
  refine ⟨_, getElem?_after s handle effect hd, ?_⟩
  split
  · exact effect.kind_apply s.writers.length d
  · rfl

theorem exists_kind_edit (s : Store) (p : Nat × Edit) {i : Nat} {d : Writer}
    (hd : s.writers[i]? = some d) :
    ∃ d', (s.edit p.1 p.2).1.writers[i]? = some d' ∧ d'.kind = d.kind := by
  cases hw : s.writers[p.1]? with
  | none => exact ⟨d, by rwa [edit_of_none hw], rfl⟩
  | some w =>
    rw [edit_eq_after hw]
    exact exists_kind_after s p.1 _ hd

theorem exists_kind_run (edits : List (Nat × Edit)) {i : Nat} {d : Writer}
    (hd : s.writers[i]? = some d) :
    ∃ d', (s.run edits).writers[i]? = some d' ∧ d'.kind = d.kind := by
  induction edits generalizing s d with
  | nil => exact ⟨d, hd, rfl⟩
  | cons p edits ih =>
    obtain ⟨v, hv, hsame⟩ := exists_kind_edit s p hd
    obtain ⟨d', hd', hrest⟩ := ih hv
    exact ⟨d', hd', hrest.trans hsame⟩

end Store

end CMakeDocs.Rst
