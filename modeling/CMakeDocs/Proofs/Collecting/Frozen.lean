import CMakeDocs.Proofs.Collecting.Calls
import CMakeDocs.Proofs.Collecting.Definitions

/-!
# What stays as it is

The entries of a collector are known in several places at once: by the open classes, by the open
definitions and by what awaits its definition. A call reaches at most one entry through them, and
changes it in one of a few ways; it may put one more entry behind the others. Whatever else there
is stays as it is, so what has been said about a command is never taken back.
-/
namespace CMakeDocs

/-- What its definition adds to a method. -/
def Method.defined (isMacro : Bool) (more : List String) (m : Method) : Method :=
  { m with isMacro := isMacro, params := m.params ++ more }

/-- What its definition adds to a unit test. -/
def UnitTest.defined (isMacro : Bool) (more : List String) (t : UnitTest) : UnitTest :=
  { t with isMacro := isMacro, params := t.params ++ more }

/-- Changes one method of a class. -/
def Class.modifyMethod (isConstructor : Bool) (j : Nat) (f : Method → Method) (k : Class) : Class :=
  if isConstructor then { k with constructors := k.constructors.modify j f }
  else { k with members := k.members.modify j f }

/-- A class has one part more, behind the others of the sort that a kind of command declares. -/
inductive Class.Gains : CommandKind → Class → Class → Prop where
  | newInnerClass (k : Class) (name : String) :
      Gains .classStart k { k with innerClasses := k.innerClasses ++ [name] }
  | newConstructor (k : Class) (m : Method) :
      Gains (.member true) k { k with constructors := k.constructors ++ [m] }
  | newMember (k : Class) (m : Method) :
      Gains (.member false) k { k with members := k.members ++ [m] }
  | newAttribute (k : Class) (a : Attribute) :
      Gains .classAttribute k { k with attributes := k.attributes ++ [a] }

namespace Collector

/-- How a call for a command of some kind can change the entry with a number. -/
inductive Amended (c : Collector) (i : Nat) : Option CommandKind → Entry → Entry → Prop where
  /-- The innermost definition takes keyword arguments. -/
  | keywords (isMacro : Bool) (d : Definition) (h : c.definitions.head? = some (some i)) :
      Amended c i (some .parseArguments) (.definition isMacro d)
        (.definition isMacro { d with hasKeywords := true })
  /-- The innermost class gets one part more. -/
  | part {kind : CommandKind} {k k' : Class} (h : c.innermost = some i) (hk : k.Gains kind k') :
      Amended c i (some kind) (.classDoc k) (.classDoc k')
  | unitTest (isMacro isSection : Bool) (t : UnitTest) (more : List String)
      (h : c.awaiting = some (.unitTest i)) :
      Amended c i (some (.definition isMacro)) (.unitTest isSection t)
        (.unitTest isSection (t.defined isMacro more))
  | method (isMacro : Bool) {isConstructor : Bool} {j : Nat} (k : Class) (more : List String)
      (h : c.awaiting = some (.method i isConstructor j)) :
      Amended c i (some (.definition isMacro)) (.classDoc k)
        (.classDoc (k.modifyMethod isConstructor j (Method.defined isMacro more)))

/-- The entries stay as they are, but for one that may be amended and one that may be added behind
them. -/
def Frozen (c : Collector) (kind? : Option CommandKind) (c' : Collector) : Prop :=
  ∃ (i : Nat) (f : Entry → Entry) (added : List Entry),
    c'.entries = c.entries.modify i f ++ added ∧ added.length ≤ 1 ∧
      ∀ e, c.entries[i]? = some e → f e = e ∨ Amended c i kind? e (f e)

variable {s : Settings} {c c' c'' : Collector} {kind : CommandKind} {kind? : Option CommandKind}
  {i : Nat} {e : Entry}

theorem frozen_of_same (h : c'.entries = c.entries) : Frozen c kind? c' := by
  refine ⟨0, id, [], ?_, Nat.zero_le 1, fun e _ => .inl rfl⟩
  rw [h, List.modify_id, List.append_nil]

theorem frozen_append (h : c'.entries = c.entries ++ [e]) : Frozen c kind? c' := by
  refine ⟨0, id, [e], ?_, Nat.le_refl 1, fun e _ => .inl rfl⟩
  rw [h, List.modify_id]

theorem frozen_modify {f : Entry → Entry} (h : c'.entries = c.entries.modify i f)
    (hf : ∀ e, f e = e ∨ Amended c i kind? e (f e)) : Frozen c kind? c' :=
  ⟨i, f, [], by rw [h, List.append_nil], Nat.zero_le 1, fun e _ => hf e⟩

theorem mapClass_or_amended {f : Class → Class} (h : ∀ k, Amended c i kind? (.classDoc k)
    (.classDoc (f k))) (e : Entry) : e.mapClass f = e ∨ Amended c i kind? e (e.mapClass f) := by
  cases e with
  | classDoc k => exact .inr (h k)
  | _ => exact .inl rfl

theorem frozen_markKeywords (c : Collector) :
    Frozen c (some .parseArguments) c.markKeywords := by
  unfold markKeywords
  split
  · next i rest hd =>
    refine frozen_modify rfl fun e => ?_
    cases e with
    | definition isMacro d => exact .inr (.keywords isMacro d (by rw [hd]; rfl))
    | _ => exact .inl rfl
  · exact frozen_of_same rfl

theorem frozen_modifyInnermost {f : Class → Class} (hf : ∀ k : Class, k.Gains kind (f k))
    (c : Collector) : Frozen c (some kind) (c.modifyInnermost f) := by
  unfold modifyInnermost
  split
  · next i hi => exact frozen_modify rfl (mapClass_or_amended fun k => .part hi (hf k))
  · exact frozen_of_same rfl

/-- A change of a list with one thing more behind it changes the list itself in the same place. -/
theorem exists_modify_concat {α : Type} (xs : List α) (x : α) (i : Nat) (f : α → α) :
    ∃ y, (xs ++ [x]).modify i f = xs.modify i f ++ [y] := by
  induction xs generalizing i with
  | nil => cases i <;> simp
  | cons x' xs ih =>
    cases i with
    | zero => exact ⟨x, rfl⟩
    | succ i =>
      obtain ⟨y, hy⟩ := ih i
      exact ⟨y, by simp [hy]⟩

/-- A class begins inside another one. -/
theorem frozen_beginClass {name doc : String} {superclasses : List String} (c : Collector) :
    Frozen c (some .classStart) ((Change.beginClass name doc superclasses).apply c) := by
  simp only [Change.apply, modifyInnermost]
  split
  · next i hi =>
    have hinnermost : c.innermost = some i := hi
    obtain ⟨new, hnew⟩ := exists_modify_concat c.entries
      (.classDoc ⟨name, doc, superclasses, [], [], [], []⟩) i
      (Entry.mapClass fun k => { k with innerClasses := k.innerClasses ++ [name] })
    refine ⟨i, _, [new], hnew, Nat.le_refl 1, fun e _ => ?_⟩
    exact mapClass_or_amended (fun k => .part hinnermost (.newInnerClass k name)) e
  · exact frozen_append rfl

theorem gains_addToClass {isConstructor : Bool} {m : Method} (h : m.isConstructor = isConstructor)
    (k : Class) : k.Gains (.member isConstructor) (addToClass m k) := by
  subst h
  unfold addToClass
  cases hm : m.isConstructor with
  | true => exact .newConstructor k m
  | false => exact .newMember k m

theorem Change.Suits.frozen {change : Change} (h : change.Suits kind) (c : Collector) :
    Frozen c (some kind) (change.apply c) := by
  cases h with
  | define isMacro d => exact frozen_append rfl
  | keywords => exact frozen_markKeywords c
  | await isSection t => exact frozen_append rfl
  | beginClass name doc superclasses => exact frozen_beginClass c
  | declare hm =>
    simp only [Change.apply]
    split
    · next i hi =>
      exact frozen_modify rfl (mapClass_or_amended fun k => .part hi (gains_addToClass hm k))
    · exact frozen_of_same rfl
  | hold a => exact frozen_modifyInnermost (fun k => .newAttribute k a) c
  | add hk he => exact frozen_append rfl
  | nothing hk hd => exact frozen_of_same rfl

theorem frozen_link {a : Awaiting} (isMacro : Bool) (more : List String)
    (h : c.awaiting = some a) (he : c'.entries = (c.link isMacro more a).entries) :
    Frozen c (some (.definition isMacro)) c' := by
  cases a with
  | unitTest i =>
    refine frozen_modify he fun e => ?_
    cases e with
    | unitTest isSection t => exact .inr (.unitTest isMacro isSection t more h)
    | _ => exact .inl rfl
  | method i isConstructor j =>
    exact frozen_modify he (mapClass_or_amended fun k => .method isMacro k more h)

/-- What a call can do to the entries, told once for all calls. -/
theorem Move.frozen (h : Move c kind? c') : Frozen c kind? c' := by
  cases h with
  | stay => exact frozen_of_same rfl
  | addModule name doc => exact frozen_append rfl
  | change hs => exact hs.frozen c
  | openClass => exact frozen_of_same rfl
  | closeClass hc => exact frozen_of_same rfl
  | openDefinition isMacro => exact frozen_of_same rfl
  | closeDefinition hd => exact frozen_of_same rfl
  | link more ha => exact frozen_link _ more ha rfl

theorem Frozen.entry (h : Frozen c kind? c') (hi : c.entries[i]? = some e) :
    c'.entries[i]? = some e ∨ ∃ e', c'.entries[i]? = some e' ∧ Amended c i kind? e e' := by
  obtain ⟨j, f, added, heq, -, hf⟩ := h
  have hlt : i < (c.entries.modify j f).length := by
    rw [List.length_modify]
    exact (List.getElem?_eq_some_iff.mp hi).1
  rw [heq, List.getElem?_append_left hlt, List.getElem?_modify, hi]
  by_cases hij : j = i
  · subst hij
    rcases hf e hi with hsame | hamended
    · exact .inl (by simp [hsame])
    · exact .inr ⟨f e, by simp, hamended⟩
  · exact .inl (by simp [hij])

end Collector

/-- A class after some more calls: it has all of its parts, in their places, and perhaps others
behind them. -/
structure Class.Lasts (k k' : Class) : Prop where
  parts : k.Extends k'
  superclasses_eq : k'.superclasses = k.superclasses
  innerClasses : k.innerClasses <+: k'.innerClasses

/-- An entry after some more calls. -/
inductive Entry.Lasts : Entry → Entry → Prop where
  | same (e : Entry) : Lasts e e
  | definition (isMacro : Bool) (d : Definition) :
      Lasts (.definition isMacro d) (.definition isMacro { d with hasKeywords := true })
  | unitTest (isSection : Bool) (t : UnitTest) (isMacro : Bool) (more : List String) :
      Lasts (.unitTest isSection t) (.unitTest isSection (t.defined isMacro more))
  | classDoc {k k' : Class} (h : k.Lasts k') : Lasts (.classDoc k) (.classDoc k')

namespace Class.Lasts

variable {k k' k'' : Class}

theorem refl (k : Class) : k.Lasts k := ⟨.refl k, rfl, List.prefix_rfl⟩

theorem trans (h : k.Lasts k') (h' : k'.Lasts k'') : k.Lasts k'' :=
  ⟨h.parts.trans h'.parts, h'.superclasses_eq.trans h.superclasses_eq,
    h.innerClasses.trans h'.innerClasses⟩

theorem of_gains {kind : CommandKind} (h : k.Gains kind k') : k.Lasts k' := by
  have hmap (ms : List Method) (m : Method) :
      ms.map Method.declared <+: (ms ++ [m]).map Method.declared := by
    rw [List.map_append]
    exact List.prefix_append _ _
  have hrfl {α : Type} (xs : List α) : xs <+: xs := List.prefix_rfl
  cases h with
  | newInnerClass _ name =>
    exact ⟨⟨rfl, rfl, hrfl _, hrfl _, hrfl _⟩, rfl, List.prefix_append _ _⟩
  | newConstructor _ m => exact ⟨⟨rfl, rfl, hmap _ m, hrfl _, hrfl _⟩, rfl, hrfl _⟩
  | newMember _ m => exact ⟨⟨rfl, rfl, hrfl _, hmap _ m, hrfl _⟩, rfl, hrfl _⟩
  | newAttribute _ a =>
    exact ⟨⟨rfl, rfl, hrfl _, hrfl _, List.prefix_append _ _⟩, rfl, hrfl _⟩

theorem modifyMethod (isConstructor : Bool) (j : Nat) (isMacro : Bool) (more : List String)
    (k : Class) : k.Lasts (k.modifyMethod isConstructor j (Method.defined isMacro more)) := by
  have hmap (ms : List Method) : ms.map Method.declared <+:
      (ms.modify j (Method.defined isMacro more)).map Method.declared := by
    have hsame (m : Method) : (m.defined isMacro more).declared = m.declared := rfl
    rw [map_modify_eq hsame]
  have hrfl {α : Type} (xs : List α) : xs <+: xs := List.prefix_rfl
  cases isConstructor with
  | true => exact ⟨⟨rfl, rfl, hmap _, hrfl _, hrfl _⟩, rfl, hrfl _⟩
  | false => exact ⟨⟨rfl, rfl, hrfl _, hmap _, hrfl _⟩, rfl, hrfl _⟩

end Class.Lasts

theorem Class.Extends.length_methods_le {k k' : Class} (h : k.Extends k') (isConstructor : Bool) :
    (k.methods isConstructor).length ≤ (k'.methods isConstructor).length := by
  have hle {ms ms' : List Method} (hp : ms.map Method.declared <+: ms'.map Method.declared) :
      ms.length ≤ ms'.length := by
    simpa using hp.length_le
  cases isConstructor with
  | true => exact hle h.constructors
  | false => exact hle h.members

namespace Entry.Lasts

theorem trans {e e' e'' : Entry} (h : e.Lasts e') (h' : e'.Lasts e'') : e.Lasts e'' := by
  cases h with
  | same => exact h'
  | definition isMacro d =>
    cases h' with
    | same => exact .definition isMacro d
    | definition => exact .definition isMacro d
  | unitTest isSection t isMacro more =>
    cases h' with
    | same => exact .unitTest isSection t isMacro more
    | unitTest _ _ isMacro' more' =>
      have happend : (t.defined isMacro more).defined isMacro' more' =
          t.defined isMacro' (more ++ more') := by
        simp [UnitTest.defined]
      rw [happend]
      exact .unitTest isSection t isMacro' _
  | classDoc hk =>
    cases h' with
    | same => exact .classDoc hk
    | classDoc hk' => exact .classDoc (hk.trans hk')

end Entry.Lasts

namespace Collector

variable {s : Settings} {c c' c'' : Collector} {kind? : Option CommandKind} {i : Nat} {e : Entry}

theorem Amended.lasts {e' : Entry} (h : Amended c i kind? e e') : e.Lasts e' := by
  cases h with
  | keywords isMacro d hd => exact .definition isMacro d
  | part hi hk => exact .classDoc (.of_gains hk)
  | unitTest isMacro isSection t more ha => exact .unitTest isSection t isMacro more
  | method isMacro k more ha => exact .classDoc (.modifyMethod _ _ isMacro more k)

theorem Frozen.lasts (h : Frozen c kind? c') (hi : c.entries[i]? = some e) :
    ∃ e', c'.entries[i]? = some e' ∧ e.Lasts e' := by
  rcases h.entry hi with hsame | ⟨e', hi', ha⟩
  · exact ⟨e, hsame, .same e⟩
  · exact ⟨e', hi', ha.lasts⟩

/-- However many calls there are, each entry stays where it is and keeps what it says. -/
theorem Reaches.lasts (h : Reaches s c c') (hi : c.entries[i]? = some e) :
    ∃ e', c'.entries[i]? = some e' ∧ e.Lasts e' := by
  induction h with
  | refl => exact ⟨e, hi, .same e⟩
  | tail _ hlead ih =>
    obtain ⟨call, logs, hrun⟩ := hlead
    obtain ⟨e₁, hi₁, hl₁⟩ := ih
    obtain ⟨e₂, hi₂, hl₂⟩ := (move_of_run hrun).frozen.lasts hi₁
    exact ⟨e₂, hi₂, hl₁.trans hl₂⟩

/-- The unit test or the method that stands in a place where something can await its definition. -/
inductive HeldAt (c : Collector) : Awaiting → Entry → Prop where
  | unitTest {i : Nat} {isSection : Bool} {t : UnitTest}
      (h : c.entries[i]? = some (.unitTest isSection t)) :
      HeldAt c (.unitTest i) (.unitTest isSection t)
  | method {i j : Nat} {isConstructor : Bool} {k : Class} {m : Method}
      (h : c.entries[i]? = some (.classDoc k)) (hm : (k.methods isConstructor)[j]? = some m) :
      HeldAt c (.method i isConstructor j) (.methodDoc m)

/-- What a collector refers to is among its entries, and of the right sort. -/
structure Linked (c : Collector) : Prop where
  classes : ∀ i, some i ∈ c.classes → ∃ k, c.entries[i]? = some (.classDoc k)
  definitions : ∀ i, some i ∈ c.definitions →
    ∃ isMacro d, c.entries[i]? = some (.definition isMacro d)
  awaiting : ∀ a, c.awaiting = some a → ∃ d, HeldAt c a d

theorem HeldAt.awaited?_eq {a : Awaiting} {d : Entry} (h : HeldAt c a d)
    (ha : c.awaiting = some a) : c.awaited? = some d := by
  cases h with
  | unitTest hi => simp [awaited?, ha, hi]
  | method hi hm =>
    simp only [Class.methods] at hm
    simp [awaited?, ha, hi, hm]

/-- An open class stays one. -/
theorem Frozen.classDoc {k : Class} (h : Frozen c kind? c')
    (hi : c.entries[i]? = some (.classDoc k)) :
    ∃ k', c'.entries[i]? = some (.classDoc k') ∧ k.Lasts k' := by
  obtain ⟨e', hi', hl⟩ := h.lasts hi
  cases hl with
  | same => exact ⟨k, hi', .refl k⟩
  | classDoc hk => exact ⟨_, hi', hk⟩

theorem Frozen.definition {isMacro : Bool} {d : Definition} (h : Frozen c kind? c')
    (hi : c.entries[i]? = some (.definition isMacro d)) :
    ∃ d', c'.entries[i]? = some (.definition isMacro d') := by
  obtain ⟨e', hi', hl⟩ := h.lasts hi
  cases hl with
  | same => exact ⟨d, hi'⟩
  | definition => exact ⟨_, hi'⟩

/-- A place where something stands is never empty again. -/
theorem Frozen.heldAt {a : Awaiting} {d : Entry} (h : Frozen c kind? c') (ha : HeldAt c a d) :
    ∃ d', HeldAt c' a d' := by
  cases ha with
  | unitTest hi =>
    obtain ⟨e', hi', hl⟩ := h.lasts hi
    cases hl with
    | same => exact ⟨_, .unitTest hi'⟩
    | unitTest => exact ⟨_, .unitTest hi'⟩
  | @method i j isConstructor k m hi hm =>
    obtain ⟨k', hi', hl⟩ := h.classDoc hi
    have hlt : j < (k'.methods isConstructor).length :=
      Nat.lt_of_lt_of_le (List.getElem?_eq_some_iff.mp hm).1
        (hl.parts.length_methods_le isConstructor)
    exact ⟨_, .method hi' (List.getElem?_eq_getElem hlt)⟩

theorem entries_append_next (c : Collector) (e : Entry) :
    (c.append e).entries[c.next]? = some e := by
  simp [next]

theorem modifyInnermost_classDoc {k : Class} (h : c.entries[i]? = some (.classDoc k))
    (f : Class → Class) : ∃ k', (c.modifyInnermost f).entries[i]? = some (.classDoc k') := by
  unfold modifyInnermost
  split
  · next j _ =>
    rw [modify_entries, List.getElem?_modify, h]
    by_cases hj : j = i
    · exact ⟨f k, by simp [hj, Entry.mapClass]⟩
    · exact ⟨k, by simp [hj]⟩
  · exact ⟨k, h⟩

theorem Change.Suits.classes {kind : CommandKind} {change : Change} (h : change.Suits kind)
    (hi : some i ∈ (change.apply c).classes) :
    some i ∈ c.classes ∨ ∃ k, (change.apply c).entries[i]? = some (.classDoc k) := by
  cases h with
  | define | await | add | nothing => exact .inl hi
  | keywords =>
    rw [Change.apply, markKeywords_classes] at hi
    exact .inl hi
  | declare hm =>
    simp only [Change.apply] at hi
    split at hi
    · exact .inl hi
    · exact .inl hi
  | hold a =>
    rw [Change.apply, modifyInnermost_classes] at hi
    exact .inl hi
  | beginClass name doc superclasses =>
    simp only [Change.apply, modifyInnermost_classes] at hi ⊢
    rcases List.mem_cons.mp hi with hnew | hold
    · cases hnew
      exact .inr (modifyInnermost_classDoc (entries_append_next c _) _)
    · exact .inl hold

/-- A class that is open after a call was so before, or is a new one. -/
theorem Move.classes (h : Move c kind? c') (hi : some i ∈ c'.classes) :
    some i ∈ c.classes ∨ ∃ k, c'.entries[i]? = some (.classDoc k) := by
  cases h with
  | stay | addModule | openDefinition | closeDefinition => exact .inl hi
  | @link isMacro a more ha =>
    cases a with
    | unitTest => exact .inl hi
    | method => exact .inl hi
  | openClass => exact .inl (by simpa using hi)
  | closeClass hc =>
    rw [hc]
    exact .inl (List.mem_cons_of_mem _ hi)
  | change hs => exact hs.classes hi

theorem Change.Suits.definitions {kind : CommandKind} {change : Change} (h : change.Suits kind)
    (hi : some i ∈ (change.apply c).definitions) :
    some i ∈ c.definitions ∨
      ∃ isMacro d, (change.apply c).entries[i]? = some (.definition isMacro d) := by
  by_cases hkind : ∃ isMacro, kind = .definition isMacro
  · obtain ⟨isMacro, rfl⟩ := hkind
    cases h with
    | define _ d =>
      rcases List.mem_cons.mp hi with hnew | hold
      · cases hnew
        exact .inr ⟨isMacro, d, entries_append_next c _⟩
      · exact .inl hold
    | add hk he => simp at hk
    | nothing hk hd => exact .inl hi
  · rw [h.definitions_eq fun isMacro heq => hkind ⟨isMacro, heq⟩] at hi
    exact .inl hi

/-- A definition that is open after a call was so before, or is a new one. -/
theorem Move.definitions (h : Move c kind? c') (hi : some i ∈ c'.definitions) :
    some i ∈ c.definitions ∨ ∃ isMacro d, c'.entries[i]? = some (.definition isMacro d) := by
  cases h with
  | stay | addModule | openClass | closeClass => exact .inl hi
  | link more ha => exact .inl (by simpa using hi)
  | openDefinition => exact .inl (by simpa using hi)
  | closeDefinition hd =>
    rw [hd]
    exact .inl (List.mem_cons_of_mem _ hi)
  | change hs => exact hs.definitions hi

/-- Only unit tests and methods await a definition. -/
theorem Change.Suits.awaiting_eq {kind : CommandKind} {change : Change} (h : change.Suits kind)
    (ht : ∀ isSection, kind ≠ .unitTest isSection)
    (hm : ∀ isConstructor, kind ≠ .member isConstructor) (c : Collector) :
    (change.apply c).awaiting = c.awaiting := by
  cases h with
  | define | add | nothing => rfl
  | keywords | beginClass | hold => simp [Change.apply]
  | await isSection t => exact absurd rfl (ht isSection)
  | declare h => exact absurd rfl (hm _)

/-- A method that has just been declared stands where there was nothing before. -/
theorem heldAt_declare {m : Method} (hc : Linked c) (hi : c.innermost = some i) :
    HeldAt ((Change.declare m).apply c)
        (.method i m.isConstructor (c.methodCount i m.isConstructor)) (.methodDoc m) ∧
      ∀ d, ¬ HeldAt c (.method i m.isConstructor (c.methodCount i m.isConstructor)) d := by
  have hopen : some i ∈ c.classes := List.mem_of_mem_head? (Option.join_eq_some_iff.mp hi)
  obtain ⟨k, hk⟩ := hc.classes i hopen
  have hcount : c.methodCount i m.isConstructor = (k.methods m.isConstructor).length := by
    unfold methodCount Class.methods
    rw [hk]
    cases m.isConstructor <;> rfl
  rw [hcount]
  constructor
  · simp only [Change.apply, hi]
    have hentry : (c.modify i (Entry.mapClass (addToClass m))).entries[i]? =
        some (.classDoc (addToClass m k)) := by
      simp [hk, Entry.mapClass]
    refine .method hentry ?_
    unfold addToClass Class.methods
    cases m.isConstructor <;> simp
  · rintro d (_ | ⟨hk', hm⟩)
    rw [hk] at hk'
    cases hk'
    simp at hm

theorem Change.Suits.awaiting {kind : CommandKind} {change : Change} {a : Awaiting}
    (h : change.Suits kind) (hc : Linked c) (ha : (change.apply c).awaiting = some a) :
    c.awaiting = some a ∨ (∃ d, HeldAt (change.apply c) a d) ∧ ∀ d, ¬ HeldAt c a d := by
  by_cases htest : ∃ isSection, kind = .unitTest isSection
  · obtain ⟨isSection, rfl⟩ := htest
    cases h with
    | await _ t =>
      cases ha
      refine .inr ⟨⟨_, .unitTest (entries_append_next c _)⟩, ?_⟩
      rintro d (hi | _)
      exact absurd (List.getElem?_eq_some_iff.mp hi).1 (Nat.lt_irrefl _)
    | add hk he => simp at hk
    | nothing hk hd => exact .inl ha
  by_cases hmember : ∃ isConstructor, kind = .member isConstructor
  · obtain ⟨isConstructor, rfl⟩ := hmember
    cases h with
    | @declare _ m hm =>
      cases hi : c.innermost with
      | none =>
        simp only [Change.apply, hi] at ha
        exact .inl ha
      | some i =>
        obtain ⟨hheld, hfresh⟩ := heldAt_declare (m := m) hc hi
        simp only [Change.apply, hi] at ha hheld ⊢
        cases ha
        exact .inr ⟨⟨_, hheld⟩, hfresh⟩
    | add hk he => simp at hk
    | nothing hk hd => exact .inl ha
  · rw [h.awaiting_eq (fun b heq => htest ⟨b, heq⟩) (fun b heq => hmember ⟨b, heq⟩)] at ha
    exact .inl ha

/-- What awaits its definition after a call did so before, or is a new thing. -/
theorem Move.awaiting {a : Awaiting} (hc : Linked c) (h : Move c kind? c')
    (ha : c'.awaiting = some a) :
    c.awaiting = some a ∨ (∃ d, HeldAt c' a d) ∧ ∀ d, ¬ HeldAt c a d := by
  cases h with
  | stay | addModule | openClass | closeClass | openDefinition | closeDefinition => exact .inl ha
  | link => cases ha
  | change hs => exact hs.awaiting hc ha

/-- A call leaves no reference that leads nowhere. -/
theorem Linked.move (hc : Linked c) (h : Move c kind? c') : Linked c' where
  classes := by
    intro i hi
    rcases h.classes hi with hold | hnew
    · obtain ⟨k, hk⟩ := hc.classes i hold
      obtain ⟨k', hk', -⟩ := h.frozen.classDoc hk
      exact ⟨k', hk'⟩
    · exact hnew
  definitions := by
    intro i hi
    rcases h.definitions hi with hold | hnew
    · obtain ⟨isMacro, d, hd⟩ := hc.definitions i hold
      obtain ⟨d', hd'⟩ := h.frozen.definition hd
      exact ⟨isMacro, d', hd'⟩
    · exact hnew
  awaiting := by
    intro a ha
    rcases h.awaiting hc ha with hold | ⟨hnew, -⟩
    · obtain ⟨d, hd⟩ := hc.awaiting a hold
      exact h.frozen.heldAt hd
    · exact hnew

theorem linked_empty : Linked empty where
  classes := by simp [empty]
  definitions := by simp [empty]
  awaiting := by simp [empty]

theorem Reachable.linked (h : Reachable s c) : Linked c := by
  induction h with
  | refl => exact linked_empty
  | tail _ hlead ih =>
    obtain ⟨call, logs, hrun⟩ := hlead
    exact ih.move (move_of_run hrun)

/-- In a collector that some calls lead to, whatever the collector refers to is among its entries.
A further call changes at most one of the entries, through what refers to it, and adds at most one
behind them; and however many calls follow, the entries stay in their places and lose nothing. -/
theorem call_keeps_entries (s : Settings) (c c' : Collector) (call : Call)
    (logs : List LogRecord) (hc : Reachable s c) (h : call.run s c = .ok (c', logs)) :
    Linked c ∧ Frozen c call.kind? c' ∧
      ∀ c'', Reaches s c' c'' → ∀ (i : Nat) (e : Entry), c.entries[i]? = some e →
        ∃ e', c''.entries[i]? = some e' ∧ e.Lasts e' := by
  refine ⟨hc.linked, (move_of_run h).frozen, fun c'' hreaches i e hi => ?_⟩
  obtain ⟨e₁, hi₁, hl₁⟩ := (move_of_run h).frozen.lasts hi
  obtain ⟨e₂, hi₂, hl₂⟩ := hreaches.lasts hi₁
  exact ⟨e₂, hi₂, hl₁.trans hl₂⟩

/-- A method is declared in a class inside another one. -/
def innerMethod : List Item :=
  [.plain (plainCommand "cpp_class" ["A"]), .plain (plainCommand "cpp_class" ["B"]),
    .documented "#[[[\n# Goes.\n#]]" (plainCommand "cpp_member" ["go", "B", "int"])]

theorem innerMethod_keeps_entries : ∃ c c',
    c = (items default innerMethod empty).collector ∧
      (Call.follow false (plainCommand "macro" ["go", "self", "x"])).run default c = .ok (c', []) ∧
      c'.awaited? = none ∧ Linked c ∧ Frozen c (some (.definition true)) c' ∧
      ∀ c'', Reaches default c' c'' → ∃ e', c''.entries[0]? = some e' ∧
        (Entry.classDoc ⟨"A", "", [], ["B"], [], [], []⟩).Lasts e' := by
  obtain ⟨c', hrun, hnone⟩ : ∃ c',
      (Call.follow false (plainCommand "macro" ["go", "self", "x"])).run default
        (items default innerMethod empty).collector = .ok (c', []) ∧ c'.awaited? = none :=
    ⟨_, rfl, rfl⟩
  obtain ⟨hlinked, hfrozen, hlasts⟩ := call_keeps_entries default
    (items default innerMethod empty).collector c' _ [] (reaches_items default innerMethod empty)
    hrun
  exact ⟨_, c', rfl, hrun, hnone, hlinked, hfrozen, fun c'' h => hlasts c'' h 0 _ rfl⟩

end Collector

end CMakeDocs
