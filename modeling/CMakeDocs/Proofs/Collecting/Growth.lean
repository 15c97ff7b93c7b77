import CMakeDocs.Proofs.Collecting.Changes

/-!
# What stays in a collector

The entry of a class keeps its number and whatever has been put into it, however the collector
goes on. The definition of a method changes the method, but not how it was declared. Only the
commands that open or close a class touch the open classes.
-/
namespace CMakeDocs

/-- A method without what its definition adds to it. -/
def Method.declared (m : Method) : Method := { m with params := [], isMacro := false }

/-- A class with at least the parts of another one, in the same order. -/
structure Class.Extends (k k' : Class) : Prop where
  name_eq : k'.name = k.name
  doc_eq : k'.doc = k.doc
  constructors : k.constructors.map Method.declared <+: k'.constructors.map Method.declared
  members : k.members.map Method.declared <+: k'.members.map Method.declared
  attributes : k.attributes <+: k'.attributes

namespace Class.Extends

variable {k k' k'' : Class}

theorem refl (k : Class) : k.Extends k :=
  ⟨rfl, rfl, List.prefix_rfl, List.prefix_rfl, List.prefix_rfl⟩

theorem trans (h : k.Extends k') (h' : k'.Extends k'') : k.Extends k'' :=
  ⟨h'.name_eq.trans h.name_eq, h'.doc_eq.trans h.doc_eq, h.constructors.trans h'.constructors,
    h.members.trans h'.members, h.attributes.trans h'.attributes⟩

end Class.Extends

/-- A change that a view does not see can be made anywhere in a list. -/
theorem map_modify_eq {α β : Type} {view : α → β} {change : α → α}
    (h : ∀ a, view (change a) = view a) (xs : List α) (i : Nat) :
    (xs.modify i change).map view = xs.map view := by
  induction xs generalizing i with
  | nil => simp
  | cons x xs ih =>
    cases i with
    | zero => simp [h]
    | succ i => simp [ih]

namespace Collector

/-- Classes stay where they are and lose nothing. -/
def Grows (c c' : Collector) : Prop :=
  ∀ (i : Nat) (k : Class), c.entries[i]? = some (.classDoc k) →
    ∃ k', c'.entries[i]? = some (.classDoc k') ∧ k.Extends k'

/-- A collector that has grown, with the same classes open. -/
structure Keeps (c c' : Collector) : Prop where
  grows : c.Grows c'
  classes_eq : c'.classes = c.classes

variable {c c' c'' : Collector}

theorem Grows.refl (c : Collector) : c.Grows c := fun _ k h => ⟨k, h, .refl k⟩

theorem Grows.trans (h : c.Grows c') (h' : c'.Grows c'') : c.Grows c'' := by
  intro i k hi
  obtain ⟨k', hi', hk'⟩ := h i k hi
  obtain ⟨k'', hi'', hk''⟩ := h' i k' hi'
  exact ⟨k'', hi'', hk'.trans hk''⟩

theorem Keeps.refl (c : Collector) : c.Keeps c := ⟨.refl c, rfl⟩

theorem Keeps.trans (h : c.Keeps c') (h' : c'.Keeps c'') : c.Keeps c'' :=
  ⟨h.grows.trans h'.grows, h'.classes_eq.trans h.classes_eq⟩

/-- A collector that differs in its other parts only. -/
theorem Keeps.of_same (h : c.Keeps c') (he : c''.entries = c'.entries)
    (hc : c''.classes = c'.classes) : c.Keeps c'' :=
  ⟨by simpa [Grows, he] using h.grows, hc.trans h.classes_eq⟩

theorem append_keeps (c : Collector) (e : Entry) : c.Keeps (c.append e) := by
  refine ⟨fun i k hi => ⟨k, ?_, .refl k⟩, rfl⟩
  have hlt : i < c.entries.length := (List.getElem?_eq_some_iff.mp hi).1
  rwa [append, List.getElem?_append_left hlt]

theorem modify_keeps (c : Collector) (i : Nat) {f : Entry → Entry}
    (hf : ∀ k : Class, ∃ k', f (.classDoc k) = .classDoc k' ∧ k.Extends k') :
    c.Keeps (c.modify i f) := by
  refine ⟨fun j k hj => ?_, rfl⟩
  rw [modify_entries, List.getElem?_modify, hj]
  by_cases hij : i = j
  · obtain ⟨k', hk', hext⟩ := hf k
    exact ⟨k', by simp [hij, hk'], hext⟩
  · exact ⟨k, by simp [hij], .refl k⟩

theorem modify_class_keeps (c : Collector) (i : Nat) {f : Class → Class}
    (hf : ∀ k : Class, k.Extends (f k)) : c.Keeps (c.modify i (Entry.mapClass f)) :=
  modify_keeps c i fun k => ⟨f k, rfl, hf k⟩

theorem markKeywords_keeps (c : Collector) : c.Keeps c.markKeywords := by
  unfold markKeywords
  split
  · exact modify_keeps _ _ fun k => ⟨k, rfl, .refl k⟩
  · exact .refl c

theorem link_keeps (c : Collector) (isMacro : Bool) (params : List String) (awaiting : Awaiting) :
    c.Keeps (c.link isMacro params awaiting) := by
  cases awaiting with
  | unitTest i => exact modify_keeps _ _ fun k => ⟨k, rfl, .refl k⟩
  | method i isConstructor j =>
    refine modify_class_keeps c i fun k => ?_
    have hsame (ms : List Method) :
        ms.map Method.declared <+: (ms.modify j fun m =>
          { m with isMacro := isMacro, params := m.params ++ params }).map Method.declared := by
      refine ⟨[], ?_⟩
      rw [List.append_nil, map_modify_eq]
      exact fun m => rfl
    cases isConstructor with
    | true => exact ⟨rfl, rfl, hsame k.constructors, List.prefix_rfl, List.prefix_rfl⟩
    | false => exact ⟨rfl, rfl, List.prefix_rfl, hsame k.members, List.prefix_rfl⟩

theorem addToClass_extends (m : Method) (k : Class) : k.Extends (addToClass m k) := by
  unfold addToClass
  split
  · refine ⟨rfl, rfl, ?_, List.prefix_rfl, List.prefix_rfl⟩
    rw [List.map_append]
    exact List.prefix_append _ _
  · refine ⟨rfl, rfl, List.prefix_rfl, ?_, List.prefix_rfl⟩
    rw [List.map_append]
    exact List.prefix_append _ _

theorem modifyInnermost_keeps (c : Collector) {f : Class → Class}
    (hf : ∀ k : Class, k.Extends (f k)) : c.Keeps (c.modifyInnermost f) := by
  unfold modifyInnermost
  split
  · exact modify_class_keeps c _ hf
  · exact .refl c

/-- Only a class that begins is put on the stack of classes when it is recorded. -/
theorem Change.Suits.keeps {kind : CommandKind} {change : Change} (h : change.Suits kind)
    (hk : kind ≠ .classStart) (c : Collector) : c.Keeps (change.apply c) := by
  cases h with
  | define isMacro d => exact (append_keeps c _).of_same rfl rfl
  | keywords => exact markKeywords_keeps c
  | await isSection t => exact (append_keeps c _).of_same rfl rfl
  | beginClass name doc superclasses => exact absurd rfl hk
  | @declare isConstructor m hm =>
    simp only [Change.apply]
    split
    · exact (modify_class_keeps c _ (addToClass_extends m)).of_same rfl rfl
    · exact .refl c
  | hold a =>
    exact modifyInnermost_keeps c fun k =>
      ⟨rfl, rfl, List.prefix_rfl, List.prefix_rfl, List.prefix_append _ _⟩
  | add hk he => exact append_keeps c _
  | nothing hk hd => exact .refl c

/-- A command that, unless it fails, opens no class and closes none. -/
def Outcome.Keeps (c : Collector) (o : Outcome) : Prop :=
  ∀ c' logs, o = .ok (c', logs) → c.Keeps c'

/-- A command that gets an entry and is no class. -/
theorem record_keeps (s : Settings) (doc : String) {command : Command}
    (hk : command.kind ≠ .classStart) (c : Collector) :
    Outcome.Keeps c (record s doc command c) := by
  intro c' logs h
  obtain ⟨change, hr, rfl⟩ := records_of_ok h
  exact hr.suits.keeps hk c

theorem Follows.keeps {hasComment : Bool} {kind : CommandKind} (h : Follows hasComment c kind c')
    (hs : kind ≠ .classStart) (he : kind ≠ .classEnd) : c.Keeps c' := by
  cases h with
  | stay => exact .refl c
  | keywords => exact markKeywords_keeps c
  | openClass => exact absurd rfl hs
  | closeClass => exact absurd rfl he
  | openDefinition | closeDefinition => exact (Keeps.refl c).of_same rfl rfl
  | link more => exact (link_keeps c _ more _).of_same rfl rfl

/-- A command that is followed and neither opens a class nor closes one. -/
theorem follow_keeps (s : Settings) (hasComment : Bool) {command : Command}
    (hs : command.kind ≠ .classStart) (he : command.kind ≠ .classEnd) (c : Collector) :
    Outcome.Keeps c (follow s hasComment command c) := by
  intro c' logs h
  obtain ⟨-, -, hr⟩ | ⟨hf, -⟩ := follow_cases h
  · exact record_keeps s "" hs c c' logs hr
  · exact hf.keeps hs he

end Collector

end CMakeDocs
