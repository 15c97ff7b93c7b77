import CMakeDocs.Proofs.Collecting.Origins

/-!
# A collector without some of its entries

Entries, and attributes of classes, are marked. A collector without what is marked has the other
entries in the same order, and its open classes and definitions are told by their new numbers. A
definition whose entry is marked is open without one. What a collector goes through can be gone
through without the marked things as well.
-/
namespace CMakeDocs

/-- The things of a list that are not marked. -/
def unmarked {α : Type} : List Bool → List α → List α
  | mark :: marks, x :: xs => if mark then unmarked marks xs else x :: unmarked marks xs
  | _, _ => []

/-- The number of a thing among those that are not marked. -/
def rank (marks : List Bool) (i : Nat) : Nat := (marks.take i).count false

section Unmarked

variable {α : Type} {marks : List Bool} {xs : List α} {i : Nat}

theorem rank_cons (mark : Bool) (marks : List Bool) (i : Nat) :
    rank (mark :: marks) (i + 1) = rank marks i + (if mark then 0 else 1) := by
  cases mark <;> simp [rank]

theorem rank_append (marks more : List Bool) (h : i ≤ marks.length) :
    rank (marks ++ more) i = rank marks i := by
  rw [rank, rank, List.take_append_of_le_length h]

theorem unmarked_append (h : marks.length = xs.length) (more : List Bool) (ys : List α) :
    unmarked (marks ++ more) (xs ++ ys) = unmarked marks xs ++ unmarked more ys := by
  induction marks generalizing xs with
  | nil =>
    obtain rfl := List.eq_nil_of_length_eq_zero h.symm
    rfl
  | cons mark marks ih =>
    obtain ⟨x, xs, rfl⟩ := List.exists_cons_of_length_eq_add_one h.symm
    have htail : marks.length = xs.length := by simpa using h
    cases mark <;> simp [unmarked, ih htail]

theorem unmarked_eq_self (h : marks.length = xs.length) (hnone : true ∉ marks) :
    unmarked marks xs = xs := by
  induction marks generalizing xs with
  | nil =>
    obtain rfl := List.eq_nil_of_length_eq_zero h.symm
    rfl
  | cons mark marks ih =>
    obtain ⟨x, xs, rfl⟩ := List.exists_cons_of_length_eq_add_one h.symm
    rw [List.mem_cons, not_or] at hnone
    have htail : marks.length = xs.length := by simpa using h
    simp [unmarked, eq_false_of_ne_true (Ne.symm hnone.1), ih htail hnone.2]

theorem length_unmarked (h : marks.length = xs.length) :
    (unmarked marks xs).length = rank marks marks.length := by
  induction marks generalizing xs with
  | nil =>
    obtain rfl := List.eq_nil_of_length_eq_zero h.symm
    rfl
  | cons mark marks ih =>
    obtain ⟨x, xs, rfl⟩ := List.exists_cons_of_length_eq_add_one h.symm
    have htail : marks.length = xs.length := by simpa using h
    rw [List.length_cons, rank_cons, ← ih htail]
    cases mark <;> simp [unmarked]

theorem getElem?_unmarked (h : marks[i]? = some false) (xs : List α) :
    (unmarked marks xs)[rank marks i]? = xs[i]? := by
  induction marks generalizing xs i with
  | nil => simp at h
  | cons mark marks ih =>
    cases xs with
    | nil => simp [unmarked]
    | cons x xs =>
      cases i with
      | zero =>
        have hmark : mark = false := by simpa using h
        simp [unmarked, hmark, rank]
      | succ i =>
        have htail : marks[i]? = some false := by simpa using h
        rw [rank_cons]
        cases mark <;> simp [unmarked, ih htail]

theorem unmarked_modify_of_unmarked (h : marks[i]? = some false) (xs : List α) (f : α → α) :
    unmarked marks (xs.modify i f) = (unmarked marks xs).modify (rank marks i) f := by
  induction marks generalizing xs i with
  | nil => simp at h
  | cons mark marks ih =>
    cases xs with
    | nil => simp [unmarked]
    | cons x xs =>
      cases i with
      | zero =>
        have hmark : mark = false := by simpa using h
        simp [unmarked, hmark, rank]
      | succ i =>
        have htail : marks[i]? = some false := by simpa using h
        rw [rank_cons, List.modify_succ_cons]
        cases mark <;> simp [unmarked, ih htail]

theorem unmarked_modify_of_marked (h : marks[i]? = some true) (xs : List α) (f : α → α) :
    unmarked marks (xs.modify i f) = unmarked marks xs := by
  induction marks generalizing xs i with
  | nil => simp at h
  | cons mark marks ih =>
    cases xs with
    | nil => simp [unmarked]
    | cons x xs =>
      cases i with
      | zero =>
        have hmark : mark = true := by simpa using h
        simp [unmarked, hmark]
      | succ i =>
        have htail : marks[i]? = some true := by simpa using h
        rw [List.modify_succ_cons]
        cases mark <;> simp [unmarked, ih htail]

end Unmarked

namespace Entry

/-- How many attributes a class has; nothing else has any. -/
def attributeCount : Entry → Nat
  | classDoc k => k.attributes.length
  | _ => 0

/-- A class without the attributes that are marked. -/
def hide (marks : List Bool) : Entry → Entry :=
  mapClass fun k => { k with attributes := unmarked marks k.attributes }

theorem hide_of_attributeCount {e : Entry} (h : e.attributeCount = 0) (marks : List Bool) :
    e.hide marks = e := by
  cases e with
  | classDoc k =>
    have hnil : k.attributes = [] := List.eq_nil_of_length_eq_zero h
    have hsame : unmarked marks k.attributes = k.attributes := by
      rw [hnil]
      cases marks <;> rfl
    simp only [hide, mapClass, hsame]
  | _ => rfl

theorem hide_eq_self {e : Entry} {marks : List Bool} (h : marks.length = e.attributeCount)
    (hnone : true ∉ marks) : e.hide marks = e := by
  cases e with
  | classDoc k => simp [hide, mapClass, unmarked_eq_self h hnone]
  | _ => rfl

/-- A change of an entry that leaves its label and its attributes alone, and goes by neither
which attributes there are. -/
structure Mild (f : Entry → Entry) : Prop where
  label : ∀ e, (f e).label = e.label
  attributeCount : ∀ e, (f e).attributeCount = e.attributeCount
  hide : ∀ marks e, (f e).hide marks = f (e.hide marks)

theorem mild_mapDefinition {f : Definition → Definition} (hf : ∀ d, (f d).name = d.name) :
    Mild (mapDefinition f) where
  label := label_mapDefinition hf
  attributeCount e := by cases e <;> rfl
  hide marks e := by cases e <;> rfl

theorem mild_mapUnitTest {f : UnitTest → UnitTest} (hf : ∀ t, (f t).name = t.name) :
    Mild (mapUnitTest f) where
  label := label_mapUnitTest hf
  attributeCount e := by cases e <;> rfl
  hide marks e := by cases e <;> rfl

theorem mild_mapClass {f : Class → Class} (hf : ∀ k, (f k).name = k.name)
    (ha : ∀ k attributes, f { k with attributes } = { f k with attributes }) :
    Mild (mapClass f) := by
  have hsame (k : Class) : (f k).attributes = k.attributes := by
    rw [ha k k.attributes]
  refine ⟨label_mapClass hf, ?_, ?_⟩
  · intro e
    cases e with
    | classDoc k => simp [mapClass, Entry.attributeCount, hsame]
    | _ => rfl
  · intro marks e
    cases e with
    | classDoc k =>
      simp only [Entry.hide, mapClass, hsame]
      rw [ha k (unmarked marks k.attributes)]
    | _ => rfl

end Entry

/-- Marks for the entries of a collector, and for the attributes of each entry. -/
@[ext] structure Marks where
  entries : List Bool
  attributes : Nat → List Bool

/-- How many attributes the entry with a number has. -/
def attributeCountAt (es : List Entry) (i : Nat) : Nat := (es[i]?.map Entry.attributeCount).getD 0

/-- Entries with nothing added to others, neither an entry nor an attribute. -/
structure SameShape (es es' : List Entry) : Prop where
  length_eq : es'.length = es.length
  count_eq : ∀ i, attributeCountAt es' i = attributeCountAt es i

theorem SameShape.refl (es : List Entry) : SameShape es es := ⟨rfl, fun _ => rfl⟩

theorem SameShape.modify {f : Entry → Entry} (hf : Entry.Mild f) (es : List Entry) (i : Nat) :
    SameShape es (es.modify i f) := by
  refine ⟨by simp, fun j => ?_⟩
  have hview := congrArg (fun counts => counts[j]?) (map_modify_eq hf.attributeCount es i)
  simp only [List.getElem?_map] at hview
  rw [attributeCountAt, attributeCountAt, hview]

namespace Marks

variable {m : Marks} {mark : Bool} {es es' es'' : List Entry} {e : Entry} {i : Nat}

/-- The marks after more entries and attributes have come, all with the same mark. -/
def grow (m : Marks) (mark : Bool) (es es' : List Entry) : Marks where
  entries := m.entries ++ List.replicate (es'.length - es.length) mark
  attributes i :=
    m.attributes i ++ List.replicate (attributeCountAt es' i - attributeCountAt es i) mark

theorem grow_congr (h : SameShape es' es'') : m.grow mark es es'' = m.grow mark es es' := by
  simp only [grow, h.length_eq, h.count_eq]

theorem grow_of_sameShape (h : SameShape es es') : m.grow mark es es' = m := by
  simp [grow, h.length_eq, h.count_eq]

/-- The marks after one more entry. -/
def push (m : Marks) (mark : Bool) : Marks := { m with entries := m.entries ++ [mark] }

theorem attributeCountAt_append (he : e.attributeCount = 0) (es : List Entry) (i : Nat) :
    attributeCountAt (es ++ [e]) i = attributeCountAt es i := by
  unfold attributeCountAt
  by_cases hlt : i < es.length
  · rw [List.getElem?_append_left hlt]
  by_cases heq : i = es.length
  · simp [heq, he]
  · have hlong : (es ++ [e]).length ≤ i := by
      rw [List.length_append, List.length_singleton]
      omega
    rw [List.getElem?_eq_none hlong, List.getElem?_eq_none (Nat.le_of_not_lt hlt)]

theorem grow_append (he : e.attributeCount = 0) (m : Marks) (mark : Bool) (es : List Entry) :
    m.grow mark es (es ++ [e]) = m.push mark := by
  simp [grow, push, attributeCountAt_append he]

/-- The number that an entry has without the marked ones; a marked one has none. -/
def place? (m : Marks) (i : Nat) : Option Nat :=
  if m.entries[i]? = some true then none else some (rank m.entries i)

theorem place?_of_unmarked (h : m.entries[i]? = some false) :
    m.place? i = some (rank m.entries i) := by
  simp [place?, h]

theorem place?_of_marked (h : m.entries[i]? = some true) : m.place? i = none := by
  simp [place?, h]

theorem place?_push (h : i < m.entries.length) (mark : Bool) :
    (m.push mark).place? i = m.place? i := by
  simp only [place?, push, List.getElem?_append_left h, rank_append _ _ (Nat.le_of_lt h)]

theorem place?_push_last (m : Marks) (mark : Bool) :
    (m.push mark).place? m.entries.length =
      if mark then none else some (rank m.entries m.entries.length) := by
  cases mark <;> simp [place?, push, rank_append]

/-- The entries without the attributes that are marked. -/
def shown (m : Marks) (es : List Entry) : List Entry :=
  es.mapIdx fun i e => e.hide (m.attributes i)

theorem shown_append (he : e.attributeCount = 0) (m : Marks) (es : List Entry) :
    m.shown (es ++ [e]) = m.shown es ++ [e] := by
  rw [shown, List.mapIdx_concat, Entry.hide_of_attributeCount he, shown]

theorem shown_modify {f : Entry → Entry} (hf : Entry.Mild f) (m : Marks) (es : List Entry)
    (i : Nat) : m.shown (es.modify i f) = (m.shown es).modify i f := by
  refine List.ext_getElem? fun j => ?_
  simp only [shown, List.getElem?_mapIdx, List.getElem?_modify, Option.map_eq_map, Option.map_map]
  refine congrArg (fun g => es[j]?.map g) (funext fun e => ?_)
  by_cases hij : i = j
  · simp [hij, hf.hide]
  · simp [hij]

end Marks

namespace Awaiting

/-- The entry that a definition is awaited for. -/
def entry : Awaiting → Nat
  | unitTest i => i
  | method i _ _ => i

def renumber (f : Nat → Nat) : Awaiting → Awaiting
  | unitTest i => unitTest (f i)
  | method i isConstructor j => method (f i) isConstructor j

end Awaiting

namespace Collector

/-- A collector without what is marked. -/
def without (c : Collector) (m : Marks) : Collector where
  entries := unmarked m.entries (m.shown c.entries)
  classes := c.classes.map (·.bind m.place?)
  awaiting := c.awaiting.map (·.renumber (rank m.entries))
  definitions := c.definitions.map (·.bind m.place?)

@[simp] theorem without_entries (c : Collector) (m : Marks) :
    (c.without m).entries = unmarked m.entries (m.shown c.entries) := rfl

@[simp] theorem without_classes (c : Collector) (m : Marks) :
    (c.without m).classes = c.classes.map (·.bind m.place?) := rfl

@[simp] theorem without_awaiting (c : Collector) (m : Marks) :
    (c.without m).awaiting = c.awaiting.map (·.renumber (rank m.entries)) := rfl

@[simp] theorem without_definitions (c : Collector) (m : Marks) :
    (c.without m).definitions = c.definitions.map (·.bind m.place?) := rfl

/-- Marks that a collector can do without: no open class and nothing that awaits its definition is
marked. -/
structure Fits (m : Marks) (c : Collector) : Prop where
  length_entries : m.entries.length = c.entries.length
  length_attributes : ∀ i, (m.attributes i).length = attributeCountAt c.entries i
  classes : ∀ i, some i ∈ c.classes → m.entries[i]? = some false
  awaiting : ∀ a, c.awaiting = some a → m.entries[a.entry]? = some false
  unitTest : ∀ i, c.awaiting = some (.unitTest i) →
    ∃ isSection name, c.labels[i]? = some (.unitTest isSection, name)
  definitions : ∀ i, some i ∈ c.definitions → i < c.entries.length

variable {m : Marks} {mark : Bool} {c : Collector} {e : Entry} {i : Nat} {f : Entry → Entry}

theorem lt_length_of_getElem? {α : Type} {xs : List α} {x : α} (h : xs[i]? = some x) :
    i < xs.length := (List.getElem?_eq_some_iff.mp h).1

theorem Fits.next_eq (h : Fits m c) : m.entries.length = c.next := h.length_entries

theorem next_without (h : Fits m c) : (c.without m).next = rank m.entries c.next := by
  rw [next, without_entries, length_unmarked, h.next_eq]
  rw [h.length_entries, Marks.shown, List.length_mapIdx]

theorem isSome_awaiting_without (c : Collector) (m : Marks) :
    (c.without m).awaiting.isSome = c.awaiting.isSome := by
  simp

theorem entry_without (h : m.entries[i]? = some false) (c : Collector) :
    (c.without m).entries[rank m.entries i]? =
      (c.entries[i]?).map fun e => e.hide (m.attributes i) := by
  rw [without_entries, getElem?_unmarked h, Marks.shown, List.getElem?_mapIdx]

theorem Fits.innermost (h : Fits m c) (hi : c.innermost = some i) : m.entries[i]? = some false := by
  refine h.classes i ?_
  rw [Collector.innermost, Option.join_eq_some_iff] at hi
  exact List.mem_of_head? hi

theorem innermost_without (h : Fits m c) :
    (c.without m).innermost = c.innermost.map (rank m.entries) := by
  have hhead : (c.without m).innermost = c.innermost.bind m.place? := by
    cases hc : c.classes with
    | nil => simp [Collector.innermost, hc]
    | cons x rest => simp [Collector.innermost, hc]
  rw [hhead]
  cases hi : c.innermost with
  | none => rfl
  | some i => exact Marks.place?_of_unmarked (h.innermost hi)

theorem bind_place?_push {x : Option Nat} (h : ∀ i, x = some i → i < m.entries.length)
    (mark : Bool) : x.bind (m.push mark).place? = x.bind m.place? := by
  cases x with
  | none => rfl
  | some i => exact Marks.place?_push (h i rfl) mark

theorem without_append (h : Fits m c) (he : e.attributeCount = 0) (mark : Bool) :
    (c.append e).without (m.push mark) =
      if mark then c.without m else (c.without m).append e := by
  have hentries : unmarked (m.push mark).entries ((m.push mark).shown (c.append e).entries) =
      unmarked m.entries (m.shown c.entries) ++ unmarked [mark] [e] := by
    have hshown : (m.push mark).shown (c.append e).entries = m.shown c.entries ++ [e] :=
      Marks.shown_append he m c.entries
    rw [hshown, Marks.push, unmarked_append]
    rw [h.length_entries, Marks.shown, List.length_mapIdx]
  have hclasses : c.classes.map (·.bind (m.push mark).place?) =
      c.classes.map (·.bind m.place?) := by
    refine List.map_congr_left fun x hx => bind_place?_push (fun i hi => ?_) mark
    exact lt_length_of_getElem? (h.classes i (hi ▸ hx))
  have hdefinitions : c.definitions.map (·.bind (m.push mark).place?) =
      c.definitions.map (·.bind m.place?) := by
    refine List.map_congr_left fun x hx => bind_place?_push (fun i hi => ?_) mark
    rw [h.length_entries]
    exact h.definitions i (hi ▸ hx)
  have hawaiting : c.awaiting.map (·.renumber (rank (m.push mark).entries)) =
      c.awaiting.map (·.renumber (rank m.entries)) := by
    cases hw : c.awaiting with
    | none => rfl
    | some a =>
      have hlt := lt_length_of_getElem? (h.awaiting a hw)
      have hrank : rank (m.push mark).entries a.entry = rank m.entries a.entry :=
        rank_append _ _ (Nat.le_of_lt hlt)
      cases a with
      | unitTest i => simpa [Awaiting.renumber, Awaiting.entry] using hrank
      | method i isConstructor j => simpa [Awaiting.renumber, Awaiting.entry] using hrank
  have hparts : (c.append e).without (m.push mark) =
      { c.without m with
        entries := unmarked m.entries (m.shown c.entries) ++ unmarked [mark] [e] } := by
    rw [without, hentries]
    simp only [append]
    rw [hclasses, hdefinitions, hawaiting]
    rfl
  rw [hparts]
  cases mark with
  | true =>
    simp only [unmarked, if_true, List.append_nil]
    rfl
  | false => rfl

theorem Fits.append (h : Fits m c) (he : e.attributeCount = 0) (mark : Bool) :
    Fits (m.push mark) (c.append e) := by
  have hkept {i : Nat} (hi : m.entries[i]? = some false) :
      (m.push mark).entries[i]? = some false := by
    rw [Marks.push, List.getElem?_append_left (lt_length_of_getElem? hi), hi]
  refine ⟨?_, ?_, ?_, ?_, ?_, ?_⟩
  · simp [Marks.push, h.length_entries]
  · intro i
    exact (h.length_attributes i).trans (Marks.attributeCountAt_append he _ i).symm
  · intro i hi
    exact hkept (h.classes i hi)
  · intro a ha
    exact hkept (h.awaiting a ha)
  · intro i hi
    obtain ⟨isSection, name, hl⟩ := h.unitTest i hi
    refine ⟨isSection, name, ?_⟩
    rw [labels_append, List.getElem?_append_left (lt_length_of_getElem? hl), hl]
  · intro i hi
    have hlt := h.definitions i hi
    simp only [append_entries, List.length_append, List.length_singleton]
    omega

theorem without_modify (hf : Entry.Mild f) (hi : m.entries[i]? = some false) (c : Collector) :
    (c.modify i f).without m = (c.without m).modify (rank m.entries i) f := by
  have hentries := unmarked_modify_of_unmarked hi (m.shown c.entries) f
  rw [← Marks.shown_modify hf] at hentries
  simp only [without, modify, hentries]

theorem without_modify_of_marked (hf : Entry.Mild f) (hi : m.entries[i]? = some true)
    (c : Collector) : (c.modify i f).without m = c.without m := by
  have hentries := unmarked_modify_of_marked hi (m.shown c.entries) f
  rw [← Marks.shown_modify hf] at hentries
  simp only [without, modify, hentries]

theorem Fits.modify (h : Fits m c) (hf : Entry.Mild f) (i : Nat) : Fits m (c.modify i f) := by
  have hshape := SameShape.modify hf c.entries i
  refine ⟨h.length_entries.trans hshape.length_eq.symm, ?_, h.classes, h.awaiting, ?_, ?_⟩
  · intro j
    exact (h.length_attributes j).trans (hshape.count_eq j).symm
  · intro j hj
    rw [labels_modify hf.label]
    exact h.unitTest j hj
  · intro j hj
    exact lt_of_lt_of_eq (h.definitions j hj) hshape.length_eq.symm

theorem without_modifyInnermost {f : Class → Class} (h : Fits m c)
    (hf : Entry.Mild (Entry.mapClass f)) :
    SameShape c.entries (c.modifyInnermost f).entries ∧
      (c.modifyInnermost f).without m = (c.without m).modifyInnermost f ∧
      Fits m (c.modifyInnermost f) := by
  unfold modifyInnermost
  rw [innermost_without h]
  cases hi : c.innermost with
  | none => exact ⟨.refl _, rfl, h⟩
  | some i => exact ⟨.modify hf _ i, without_modify hf (h.innermost hi) c, h.modify hf i⟩

theorem Fits.openDefinition (h : Fits m c) {x : Option Nat}
    (hx : ∀ i, x = some i → i < c.entries.length) :
    Fits m { c with definitions := x :: c.definitions } := by
  refine ⟨h.length_entries, h.length_attributes, h.classes, h.awaiting, h.unitTest, ?_⟩
  intro i hi
  rcases List.mem_cons.mp hi with hi | hi
  · exact hx i hi.symm
  · exact h.definitions i hi

theorem Fits.closeDefinition (h : Fits m c) {x : Option Nat} {rest : List (Option Nat)}
    (hd : c.definitions = x :: rest) : Fits m { c with definitions := rest } := by
  refine ⟨h.length_entries, h.length_attributes, h.classes, h.awaiting, h.unitTest, ?_⟩
  intro i hi
  exact h.definitions i (hd ▸ List.mem_cons_of_mem x hi)

theorem Fits.openClass (h : Fits m c) {x : Option Nat}
    (hx : ∀ i, x = some i → m.entries[i]? = some false) :
    Fits m { c with classes := x :: c.classes } := by
  refine ⟨h.length_entries, h.length_attributes, ?_, h.awaiting, h.unitTest, h.definitions⟩
  intro i hi
  rcases List.mem_cons.mp hi with hi | hi
  · exact hx i hi.symm
  · exact h.classes i hi

theorem Fits.closeClass (h : Fits m c) {x : Option Nat} {rest : List (Option Nat)}
    (hc : c.classes = x :: rest) : Fits m { c with classes := rest } := by
  refine ⟨h.length_entries, h.length_attributes, ?_, h.awaiting, h.unitTest, h.definitions⟩
  intro i hi
  exact h.classes i (hc ▸ List.mem_cons_of_mem x hi)

theorem Fits.await (h : Fits m c) {a : Awaiting} (ha : m.entries[a.entry]? = some false)
    (ht : ∀ i, a = .unitTest i →
      ∃ isSection name, c.labels[i]? = some (.unitTest isSection, name)) :
    Fits m { c with awaiting := some a } := by
  refine ⟨h.length_entries, h.length_attributes, h.classes, ?_, ?_, h.definitions⟩
  · intro b hb
    cases hb
    exact ha
  · intro i hi
    exact ht i (Option.some.inj hi)

theorem Fits.settle (h : Fits m c) : Fits m { c with awaiting := none } :=
  ⟨h.length_entries, h.length_attributes, h.classes, by simp, by simp, h.definitions⟩

end Collector

end CMakeDocs
