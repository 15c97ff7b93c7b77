import CMakeDocs.Proofs.Documenting.Effects

/-!
# Named writers

Only the handles of writers tell the order in which they were made, and handles are not shown. So
edits are written here with names for writers, which stay the same if the edits come in another
order. What an edit does to a writer depends on what never changes of it, so a writer is what its
own edits make of it, in their order, whatever is done to other writers in between.
-/
namespace CMakeDocs.Rst

open Store (Edit)

/-- Whether an edit is one that makes a writer. -/
def Store.Edit.makes : Edit → Bool
  | addPart _ | addDirective _ _ => true
  | _ => false

/-- What stands in a writer has been made later. -/
def Store.Forward (s : Store) : Prop :=
  ∀ (i : Nat) (w : Writer), s.writers[i]? = some w → ∀ j, .child j ∈ w.elements → i < j

variable {h : Headers} {k : Writer.Kind} {e : Edit} {w d : Writer}

theorem made_ofMade {made : Except Error Writer} (hmade : (Effect.ofMade made).made = some d) :
    made = .ok d := by
  cases made with
  | error fault => cases hmade
  | ok new =>
    cases hmade
    rfl

/-- Only two edits make a writer, and a new writer is empty. -/
theorem makes_of_made (hmade : (k.effect h e).made = some d) :
    e.makes = true ∧ d.elements = [] := by
  cases e with
  | addPart title =>
    obtain ⟨heading, -, hd⟩ := exists_of_bind_ok (made_ofMade hmade)
    cases hd
    exact ⟨rfl, rfl⟩
  | addDirective name arguments =>
    obtain ⟨-, -, hd⟩ := exists_of_bind_ok (made_ofMade hmade)
    cases hd
    exact ⟨rfl, rfl⟩
  | addParagraph v => cases v <;> cases hmade
  | addField | addDoctest | addList | clear => cases hmade
  | addTable rows headings =>
    rw [Writer.Kind.effect] at hmade
    generalize (Table.ofValues? rows headings).map Block.table = piece at hmade
    cases piece <;> cases hmade
  | addOption name value =>
    rw [Writer.Kind.effect] at hmade
    split at hmade <;> cases hmade
  | setTitle title =>
    rw [Store.made_setTitle] at hmade
    cases hmade

theorem Effect.apply_of_not_made {effect : Effect} (hmade : effect.made = none) (next next' : Nat)
    (w : Writer) : effect.apply next w = effect.apply next' w := by
  cases effect with
  | makes d => cases hmade
  | _ => rfl

/-- What stands in a writer afterwards stood there before or is new. -/
theorem Effect.of_child_mem {effect : Effect} {next i : Nat}
    (hi : .child i ∈ (effect.apply next w).elements) : .child i ∈ w.elements ∨ i = next := by
  cases effect with
  | refuses | titles => exact .inl hi
  | adds b =>
    rcases List.mem_append.mp hi with hi | hi
    · exact .inl hi
    · cases List.mem_singleton.mp hi
  | makes d =>
    rcases List.mem_append.mp hi with hi | hi
    · exact .inl hi
    · cases List.mem_singleton.mp hi
      exact .inr rfl
  | opts name value =>
    rcases List.mem_append.mp hi with hi | hi
    · exact .inl hi
    · cases hi
  | clears => cases hi

theorem Store.Forward.after {s : Store} (hs : s.Forward) {effect : Effect} {i : Nat}
    (hi : i < s.writers.length) (hmade : ∀ d, effect.made = some d → d.elements = []) :
    (s.after i effect).Forward := by
  refine Store.forall_modify_append.mpr ⟨fun j d hd => ?_, fun j d hd l hl => ?_⟩
  · split
    · next hj =>
      obtain rfl := hj
      intro l hl
      rcases Effect.of_child_mem hl with hl | rfl
      · exact hs i d hd l hl
      · exact hi
    · exact hs j d hd
  · rw [hmade d (Option.mem_toList.mp (List.mem_of_getElem? hd))] at hl
    cases hl

/-- An edit of a writer that is known by a name. The other name is for the writer that the edit
makes, if it makes one. -/
structure NamedEdit (ι : Type) where
  target : ι
  edit : Edit
  made : ι

/-- The name that an edit brings up. -/
def NamedEdit.made? {ι : Type} (c : NamedEdit ι) : Option ι :=
  if c.edit.makes then some c.made else none

theorem NamedEdit.eq_made {ι : Type} {c : NamedEdit ι} {n : ι} (hn : n ∈ c.made?) : n = c.made := by
  rw [NamedEdit.made?] at hn
  split at hn
  · exact (Option.some.inj hn).symm
  · cases hn

/-- A store in which some writers have names. -/
structure NamedStore (ι : Type) where
  store : Store
  handle? : ι → Option Nat

/-- How an edit ends. -/
inductive Answer where
  /-- There is no writer of that name, because it could not be made. -/
  | missing
  | done
  | refused (e : Error)

def Answer.ofFault : Option Error → Answer
  | none => done
  | some e => refused e

variable {ι : Type}

/-- The writer that edits make of one, if new writers get certain handles. -/
def Writer.followed (h : Headers) (next : NamedEdit ι → Nat) (w : Writer)
    (cs : List (NamedEdit ι)) : Writer :=
  cs.foldl (fun w c => (w.kind.effect h c.edit).apply (next c) w) w

theorem Writer.kind_followed (h : Headers) (next : NamedEdit ι → Nat) (w : Writer)
    (cs : List (NamedEdit ι)) : (w.followed h next cs).kind = w.kind := by
  induction cs generalizing w with
  | nil => rfl
  | cons c cs ih => exact (ih _).trans (Effect.kind_apply _ _ _)

namespace NamedStore

/-- The text of the writer of a name. -/
def text? (s : NamedStore ι) (n : ι) : Option String := (s.handle? n).map s.store.text

/-- The writer of a name. -/
def writer? (s : NamedStore ι) (n : ι) : Option Writer :=
  (s.handle? n).bind fun i => s.store.writers[i]?

def kind? (s : NamedStore ι) (n : ι) : Option Writer.Kind := (s.writer? n).map Writer.kind

/-- The handle of what an edit makes. -/
def next (s : NamedStore ι) (c : NamedEdit ι) : Nat := (s.handle? c.made).getD 0

/-- How an edit ends in a store in which all writers have been made. -/
def answerTo (s : NamedStore ι) (c : NamedEdit ι) : Answer :=
  match s.kind? c.target with
  | none => .missing
  | some k => .ofFault (k.effect s.store.headers c.edit).fault

/-- Names are those of different writers, and what stands in a writer has been made later. -/
structure Sound (s : NamedStore ι) : Prop where
  lt : ∀ n i, s.handle? n = some i → i < s.store.writers.length
  injective : ∀ m n i, s.handle? m = some i → s.handle? n = some i → m = n
  forward : s.store.Forward

theorem Sound.exists_writer {s : NamedStore ι} {n : ι} {i : Nat} (hs : s.Sound)
    (hi : s.handle? n = some i) : ∃ w, s.store.writers[i]? = some w ∧ s.writer? n = some w := by
  obtain ⟨w, hw⟩ : ∃ w, s.store.writers[i]? = some w :=
    ⟨_, List.getElem?_eq_getElem (hs.lt n i hi)⟩
  exact ⟨w, hw, by rw [writer?, hi, Option.bind_some, hw]⟩

theorem exists_handle {s : NamedStore ι} {n : ι} (hw : s.writer? n = some w) :
    ∃ i, s.handle? n = some i ∧ s.store.writers[i]? = some w := Option.bind_eq_some_iff.mp hw

theorem handle?_eq_none {s : NamedStore ι} {n : ι} (hs : s.Sound) (hw : s.writer? n = none) :
    s.handle? n = none := by
  by_contra hsome
  obtain ⟨i, hi⟩ := Option.ne_none_iff_exists'.mp hsome
  obtain ⟨w, -, hwriter⟩ := hs.exists_writer hi
  cases hw.symm.trans hwriter

/-- Either there is no writer to be edited, or there is one. -/
theorem Sound.target_cases {s : NamedStore ι} (hs : s.Sound) (c : NamedEdit ι) :
    s.handle? c.target = none ∨ ∃ i w, s.handle? c.target = some i ∧
      s.store.writers[i]? = some w ∧ s.writer? c.target = some w := by
  cases hi : s.handle? c.target with
  | none => exact .inl rfl
  | some i =>
    obtain ⟨w, hw, hwriter⟩ := hs.exists_writer hi
    exact .inr ⟨i, w, rfl, hw, hwriter⟩

theorem made?_of_made {k : Writer.Kind} {c : NamedEdit ι}
    (hmade : (k.effect h c.edit).made = some d) : c.made? = some c.made := by
  rw [NamedEdit.made?, if_pos (makes_of_made hmade).1]

variable [DecidableEq ι]

/-- A document with one writer. -/
def start (root : ι) (h : Headers) (w : Writer) : NamedStore ι :=
  ⟨Store.start h w, fun n => if n = root then some 0 else none⟩

/-- Does something to the writer of a name. A new writer gets its name. -/
def edit (s : NamedStore ι) (c : NamedEdit ι) : NamedStore ι × Answer :=
  match s.handle? c.target with
  | none => (s, .missing)
  | some i =>
    let (store, fault) := s.store.edit i c.edit
    let next := s.store.writers.length
    (⟨store, if store.writers.length = next then s.handle?
      else Function.update s.handle? c.made (some next)⟩, .ofFault fault)

def run (s : NamedStore ι) (cs : List (NamedEdit ι)) : NamedStore ι :=
  cs.foldl (fun s c => (s.edit c).1) s

/-- How the edits of a run end, one after the other. -/
def answers (s : NamedStore ι) : List (NamedEdit ι) → List Answer
  | [] => []
  | c :: cs => (s.edit c).2 :: (s.edit c).1.answers cs

variable {s : NamedStore ι} {c : NamedEdit ι} {n : ι} {i : Nat} {effect : Effect}

theorem edit_of_missing (hi : s.handle? c.target = none) : s.edit c = (s, .missing) := by
  rw [edit, hi]

/-- All that an edit does to a writer that there is. -/
theorem edit_of_writer (hi : s.handle? c.target = some i) (hw : s.store.writers[i]? = some w)
    (heffect : w.kind.effect s.store.headers c.edit = effect) :
    s.edit c = (⟨s.store.after i effect, if effect.made = none then s.handle?
      else Function.update s.handle? c.made (some s.store.writers.length)⟩,
      .ofFault effect.fault) := by
  have hlength : (s.store.after i effect).writers.length = s.store.writers.length ↔
      effect.made = none := by
    rw [Store.after, List.length_append, List.length_modify]
    cases effect.made <;> simp
  rw [edit, hi]
  simp only [Store.edit_eq_after hw, heffect, hlength]

/-- A name that an edit does not bring up keeps its handle. -/
theorem handle?_edit (hs : s.Sound) (hn : n ∉ c.made?) : (s.edit c).1.handle? n = s.handle? n := by
  obtain hi | ⟨i, w, hi, hw, -⟩ := hs.target_cases c
  · rw [edit_of_missing hi]
  · rw [edit_of_writer hi hw rfl]
    split
    · rfl
    · next hsome =>
      obtain ⟨d, hmade⟩ := Option.ne_none_iff_exists'.mp hsome
      refine Function.update_of_ne (fun hne => hn ?_) _ _
      rw [hne, made?_of_made hmade]
      rfl

theorem sound_edit (hs : s.Sound) (c : NamedEdit ι) : (s.edit c).1.Sound := by
  obtain hi | ⟨i, w, hi, hw, -⟩ := hs.target_cases c
  · rwa [edit_of_missing hi]
  rw [edit_of_writer hi hw rfl]
  generalize heffect : w.kind.effect s.store.headers c.edit = effect
  have hforward : (s.store.after i effect).Forward := by
    refine hs.forward.after (hs.lt _ _ hi) fun d hmade => ?_
    rw [← heffect] at hmade
    exact (makes_of_made hmade).2
  cases hmade : effect.made with
  | none =>
    refine ⟨fun n j hj => ?_, hs.injective, hforward⟩
    rw [Store.after, List.length_append, List.length_modify]
    exact Nat.lt_add_right _ (hs.lt n j hj)
  | some d =>
    rw [if_neg (Option.some_ne_none d)]
    -- The new name has the next handle, and all other names have lesser ones.
    have hcases : ∀ n j, Function.update s.handle? c.made (some s.store.writers.length) n = some j →
        n = c.made ∧ j = s.store.writers.length ∨ s.handle? n = some j ∧
          j < s.store.writers.length := by
      intro n j hj
      by_cases hn : n = c.made
      · rw [hn, Function.update_self] at hj
        exact .inl ⟨hn, (Option.some.inj hj).symm⟩
      · rw [Function.update_of_ne hn] at hj
        exact .inr ⟨hj, hs.lt n j hj⟩
    refine ⟨fun n j hj => ?_, fun m n j hm hn => ?_, hforward⟩
    · rw [Store.after, List.length_append, List.length_modify, hmade]
      rcases hcases n j hj with ⟨-, rfl⟩ | ⟨-, hlt⟩
      · exact Nat.lt_succ_self _
      · exact Nat.lt_succ_of_lt hlt
    · rcases hcases m j hm with ⟨rfl, rfl⟩ | ⟨hm, hlt⟩
      · rcases hcases n _ hn with ⟨rfl, -⟩ | ⟨-, hlt⟩
        · rfl
        · exact absurd hlt (Nat.lt_irrefl _)
      · rcases hcases n j hn with ⟨-, rfl⟩ | ⟨hn, -⟩
        · exact absurd hlt (Nat.lt_irrefl _)
        · exact hs.injective m n j hm hn

theorem handle?_edit_made (hw : s.writer? c.target = some w)
    (hmade : (w.kind.effect s.store.headers c.edit).made = some d) :
    (s.edit c).1.handle? c.made = some s.store.writers.length := by
  obtain ⟨i, hi, hwriter⟩ := exists_handle hw
  rw [edit_of_writer hi hwriter rfl, hmade]
  exact Function.update_self ..

/-- A new writer has the new name. -/
theorem writer?_edit_made (hw : s.writer? c.target = some w)
    (hmade : (w.kind.effect s.store.headers c.edit).made = some d) :
    (s.edit c).1.writer? c.made = some d := by
  obtain ⟨i, hi, hwriter⟩ := exists_handle hw
  rw [writer?, handle?_edit_made hw hmade, Option.bind_some, edit_of_writer hi hwriter rfl]
  exact Store.getElem?_after_made s.store i hmade

theorem writer?_edit_target (hs : s.Sound) (hn : c.target ∉ c.made?)
    (hw : s.writer? c.target = some w) :
    (s.edit c).1.writer? c.target =
      some ((w.kind.effect s.store.headers c.edit).apply s.store.writers.length w) := by
  obtain ⟨i, hi, hwriter⟩ := exists_handle hw
  rw [writer?, handle?_edit hs hn, hi, edit_of_writer hi hwriter rfl, Option.bind_some,
    Store.getElem?_after s.store i _ hwriter, if_pos rfl]

theorem answer_edit (hs : s.Sound) (c : NamedEdit ι) : (s.edit c).2 = s.answerTo c := by
  obtain hi | ⟨i, w, hi, hw, hwriter⟩ := hs.target_cases c
  · rw [edit_of_missing hi, answerTo, kind?, writer?, hi]
    rfl
  · rw [edit_of_writer hi hw rfl, answerTo, kind?, hwriter]
    rfl

/-- A new name is that of the writer that is made, if one is made. -/
theorem writer?_edit_fresh (hs : s.Sound) (hfresh : s.handle? c.made = none) :
    (s.edit c).1.writer? c.made =
      (s.kind? c.target).bind fun k => (k.effect s.store.headers c.edit).made := by
  obtain hi | ⟨i, w, hi, hw, hwriter⟩ := hs.target_cases c
  · rw [edit_of_missing hi, writer?, hfresh, kind?, writer?, hi]
    rfl
  rw [kind?, hwriter, Option.map_some, Option.bind_some]
  cases hmade : (w.kind.effect s.store.headers c.edit).made with
  | none =>
    rw [edit_of_writer hi hw rfl, if_pos hmade, writer?, hfresh]
    rfl
  | some d => exact writer?_edit_made hwriter hmade

/-- All other writers stay as they are. -/
theorem writer?_edit_other (hs : s.Sound) (hn : n ∉ c.made?) (htarget : n ≠ c.target) :
    (s.edit c).1.writer? n = s.writer? n := by
  obtain hi | ⟨i, w, hi, hw, -⟩ := hs.target_cases c
  · rw [edit_of_missing hi]
  rw [writer?, handle?_edit hs hn]
  cases hj : s.handle? n with
  | none => simp [writer?, hj]
  | some j =>
    obtain ⟨v, hv, hwriter⟩ := hs.exists_writer hj
    have hne : i ≠ j := fun hij => htarget (hs.injective n c.target j hj (hij ▸ hi))
    rw [hwriter, edit_of_writer hi hw rfl, Option.bind_some, Store.getElem?_after s.store i _ hv,
      if_neg hne]

theorem headers_edit (s : NamedStore ι) (c : NamedEdit ι) :
    (s.edit c).1.store.headers = s.store.headers := by
  rw [edit]
  split
  · rfl
  · exact Store.headers_edit ..

end NamedStore

/-- Each edit is for a writer whose name is known by then, and brings up a new name if any. -/
def WellNamed (known : List ι) : List (NamedEdit ι) → Prop
  | [] => True
  | c :: cs => c.target ∈ known ∧ (∀ m ∈ c.made?, m ∉ known) ∧
    WellNamed (known ++ c.made?.toList) cs

variable {known : List ι} {cs : List (NamedEdit ι)}

theorem WellNamed.not_mem_known (hcs : WellNamed known cs) {c : NamedEdit ι} (hc : c ∈ cs) {m : ι}
    (hm : m ∈ c.made?) : m ∉ known := by
  induction cs generalizing known with
  | nil => cases hc
  | cons first cs ih =>
    obtain ⟨-, hfresh, hcs⟩ := hcs
    rcases List.mem_cons.mp hc with rfl | hc
    · exact hfresh m hm
    · exact fun hknown => ih hcs hc (List.mem_append_left _ hknown)

/-- The names that are known after some edits. -/
def namesAfter (known : List ι) (cs : List (NamedEdit ι)) : List ι :=
  known ++ cs.filterMap NamedEdit.made?

theorem namesAfter_cons (known : List ι) (c : NamedEdit ι) (cs : List (NamedEdit ι)) :
    namesAfter known (c :: cs) = namesAfter (known ++ c.made?.toList) cs := by
  rw [namesAfter, namesAfter, List.append_assoc]
  congr 1
  cases hm : c.made? <;> simp [hm]

theorem mem_namesAfter {n : ι} : n ∈ namesAfter known cs ↔ n ∈ known ∨ ∃ c ∈ cs, n ∈ c.made? := by
  rw [namesAfter, List.mem_append, List.mem_filterMap]
  rfl

/-- What holds of the known names, and of what is made by a writer of which it holds, holds of all
names. -/
theorem WellNamed.forall_names {E : ι → Prop} (hcs : WellNamed known cs) (hknown : ∀ n ∈ known, E n)
    (hmade : ∀ c ∈ cs, ∀ m ∈ c.made?, E c.target → E m) : ∀ n ∈ namesAfter known cs, E n := by
  induction cs generalizing known with
  | nil => rwa [namesAfter, List.filterMap_nil, List.append_nil]
  | cons c cs ih =>
    obtain ⟨htarget, -, hcs⟩ := hcs
    obtain ⟨hfirst, hrest⟩ := List.forall_mem_cons.mp hmade
    rw [namesAfter_cons]
    refine ih hcs (List.forall_mem_append.mpr ⟨hknown, fun m hm => ?_⟩) hrest
    exact hfirst m (Option.mem_toList.mp hm) (hknown _ htarget)

variable [DecidableEq ι]

/-- The edits of the writer of a name. -/
def editsOf (n : ι) (cs : List (NamedEdit ι)) : List (NamedEdit ι) :=
  cs.filter fun c => c.target = n

theorem editsOf_cons_self (c : NamedEdit ι) (cs : List (NamedEdit ι)) :
    editsOf c.target (c :: cs) = c :: editsOf c.target cs :=
  List.filter_cons_of_pos (decide_eq_true rfl)

theorem editsOf_cons_of_ne {c : NamedEdit ι} {n : ι} (hne : c.target ≠ n)
    (cs : List (NamedEdit ι)) : editsOf n (c :: cs) = editsOf n cs :=
  List.filter_cons_of_neg (mt of_decide_eq_true hne)

namespace NamedStore

variable {s : NamedStore ι} {n : ι}

/-- A writer keeps its handle. -/
theorem handle?_run (hs : s.Sound) (hcs : WellNamed known cs) (hn : n ∈ known) :
    (s.run cs).handle? n = s.handle? n := by
  induction cs generalizing s known with
  | nil => rfl
  | cons c cs ih =>
    obtain ⟨-, hfresh, hcs⟩ := hcs
    refine (ih (sound_edit hs c) hcs (List.mem_append_left _ hn)).trans ?_
    exact handle?_edit hs fun hm => hfresh n hm hn

theorem sound_run (hs : s.Sound) (cs : List (NamedEdit ι)) : (s.run cs).Sound := by
  induction cs generalizing s with
  | nil => exact hs
  | cons c cs ih => exact ih (sound_edit hs c)

theorem headers_run (s : NamedStore ι) (cs : List (NamedEdit ι)) :
    (s.run cs).store.headers = s.store.headers := by
  induction cs generalizing s with
  | nil => rfl
  | cons c cs ih => exact (ih _).trans (headers_edit s c)

/-- In the end it does not matter whether a new writer's handle is looked up or counted. -/
theorem apply_next (hs : s.Sound) {c : NamedEdit ι} (hcs : WellNamed (known ++ c.made?.toList) cs)
    (hw : s.writer? c.target = some w) :
    (w.kind.effect s.store.headers c.edit).apply s.store.writers.length w =
      (w.kind.effect s.store.headers c.edit).apply ((s.run (c :: cs)).next c) w := by
  cases hmade : (w.kind.effect s.store.headers c.edit).made with
  | none => exact Effect.apply_of_not_made hmade _ _ _
  | some d =>
    have hnew : c.made ∈ known ++ c.made?.toList := by
      rw [made?_of_made hmade]
      exact List.mem_append_right _ List.mem_cons_self
    have hhandle : (s.run (c :: cs)).handle? c.made = some s.store.writers.length :=
      (handle?_run (sound_edit hs c) hcs hnew).trans (handle?_edit_made hw hmade)
    rw [next, hhandle, Option.getD_some]

/-- A writer is what its own edits make of it. -/
theorem writer?_run (hs : s.Sound) (hcs : WellNamed known cs) (hn : n ∈ known) :
    (s.run cs).writer? n = (s.writer? n).map fun w =>
      w.followed s.store.headers (s.run cs).next (editsOf n cs) := by
  induction cs generalizing s known with
  | nil => exact Option.map_id'.symm
  | cons c cs ih =>
    obtain ⟨-, hfresh, hcs⟩ := hcs
    have hnew : n ∉ c.made? := fun hm => hfresh n hm hn
    have hrest := ih (sound_edit hs c) hcs (List.mem_append_left _ hn)
    rw [headers_edit] at hrest
    refine hrest.trans ?_
    by_cases htarget : c.target = n
    · subst htarget
      rw [editsOf_cons_self]
      -- There may be no writer of the name, because it could not be made.
      cases hw : s.writer? c.target with
      | none =>
        rw [edit_of_missing (handle?_eq_none hs hw), hw]
        rfl
      | some w =>
        rw [writer?_edit_target hs hnew hw, apply_next hs hcs hw]
        rfl
    · rw [writer?_edit_other hs hnew (Ne.symm htarget), editsOf_cons_of_ne htarget]
      rfl

/-- What decides an edit's effect never changes. -/
theorem kind?_run (hs : s.Sound) (hcs : WellNamed known cs) (hn : n ∈ known) :
    (s.run cs).kind? n = s.kind? n := by
  rw [kind?, writer?_run hs hcs hn, Option.map_map, kind?]
  congr 1
  funext w
  exact Writer.kind_followed ..

theorem answers_eq (hs : s.Sound) (hcs : WellNamed known cs) :
    s.answers cs = cs.map (s.run cs).answerTo := by
  induction cs generalizing s known with
  | nil => rfl
  | cons c cs ih =>
    have hkind := kind?_run hs hcs hcs.1
    obtain ⟨-, -, hcs⟩ := hcs
    have hfirst : (s.edit c).2 = (s.run (c :: cs)).answerTo c := by
      rw [answerTo, hkind, headers_run]
      exact answer_edit hs c
    rw [answers, ih (sound_edit hs c) hcs, hfirst]
    rfl

theorem handle?_edit_of_not_mem (hs : s.Sound) {c : NamedEdit ι}
    (hknown : ∀ n, n ∉ known → s.handle? n = none) (n : ι) (hn : n ∉ known ++ c.made?.toList) :
    (s.edit c).1.handle? n = none := by
  rw [List.mem_append, not_or, Option.mem_toList] at hn
  rw [handle?_edit hs hn.2, hknown n hn.1]

/-- Only known and new names have handles. -/
theorem handle?_run_of_not_mem (hs : s.Sound) (hknown : ∀ n, n ∉ known → s.handle? n = none)
    (hn : n ∉ namesAfter known cs) : (s.run cs).handle? n = none := by
  induction cs generalizing s known with
  | nil => exact hknown n fun hmem => hn (List.mem_append_left _ hmem)
  | cons c cs ih =>
    rw [namesAfter_cons] at hn
    exact ih (sound_edit hs c) (handle?_edit_of_not_mem hs hknown) hn

/-- A writer that has been made is what its own edits make of a new writer. -/
theorem writer?_run_made (hs : s.Sound) (hcs : WellNamed known cs)
    (hknown : ∀ n, n ∉ known → s.handle? n = none) {c : NamedEdit ι} (hc : c ∈ cs)
    (hn : n ∈ c.made?) :
    (s.run cs).writer? n =
      (((s.run cs).kind? c.target).bind fun k => (k.effect s.store.headers c.edit).made).map
        fun w => w.followed s.store.headers (s.run cs).next (editsOf n cs) := by
  induction cs generalizing s known with
  | nil => cases hc
  | cons first cs ih =>
    have hnew := hcs.not_mem_known hc hn
    have hkind := kind?_run hs hcs hcs.1
    obtain ⟨htarget, -, hcs⟩ := hcs
    have hne : first.target ≠ n := fun heq => hnew (heq ▸ htarget)
    rw [editsOf_cons_of_ne hne]
    rcases List.mem_cons.mp hc with rfl | hc
    · have hmade : n = c.made := NamedEdit.eq_made hn
      have hrest := writer?_run (sound_edit hs c) hcs
        (List.mem_append_right _ (Option.mem_toList.mpr hn))
      rw [headers_edit] at hrest
      rw [hkind]
      refine hrest.trans ?_
      rw [hmade, writer?_edit_fresh hs (hknown c.made (hmade ▸ hnew))]
      rfl
    · have hrest := ih (sound_edit hs first) hcs (handle?_edit_of_not_mem hs hknown) hc
      rw [headers_edit] at hrest
      exact hrest

end NamedStore

end CMakeDocs.Rst
