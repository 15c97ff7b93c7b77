import CMakeDocs.Proofs.Collecting.Marks

/-!
# Changes without what is marked

Every change that a command makes to a collector can be made to what is left of it without the
marked things, and leaves what is left of the changed collector. The new things are not marked, or
all of them are: then the change does nothing, or opens a definition without an entry.
-/
namespace CMakeDocs.Collector

variable {kind : CommandKind} {m : Marks} {c : Collector} {change : Change} {e : Entry} {i : Nat}

theorem attributeCount_of_ne_class (he : ∀ k, e ≠ .classDoc k) : e.attributeCount = 0 := by
  cases e with
  | classDoc k => exact absurd rfl (he k)
  | _ => rfl

theorem without_define (h : Fits m c) (he : e.attributeCount = 0) (mark : Bool) :
    ({ c.append e with definitions := some c.next :: c.definitions } : Collector).without
        (m.push mark) =
      (if mark then { c.without m with definitions := none :: (c.without m).definitions }
        else { (c.without m).append e with
          definitions := some (c.without m).next :: (c.without m).definitions }) ∧
      Fits (m.push mark) { c.append e with definitions := some c.next :: c.definitions } := by
  have hplace : (m.push mark).place? c.next =
      if mark then none else some (c.without m).next := by
    rw [← h.next_eq, Marks.place?_push_last, next_without h, h.next_eq]
  have hparts : ({ c.append e with definitions := some c.next :: c.definitions } :
      Collector).without (m.push mark) =
      { (c.append e).without (m.push mark) with
        definitions := (m.push mark).place? c.next ::
          ((c.append e).without (m.push mark)).definitions } := rfl
  constructor
  · rw [hparts, hplace, without_append h he]
    cases mark <;> rfl
  · refine (h.append he mark).openDefinition fun i hi => ?_
    cases hi
    simp [append, next]

theorem without_await (isSection : Bool) (t : UnitTest) (h : Fits m c) :
    ((Change.await isSection t).apply c).without (m.push false) =
        (Change.await isSection t).apply (c.without m) ∧
      Fits (m.push false) ((Change.await isSection t).apply c) := by
  have he : (Entry.unitTest isSection t).attributeCount = 0 := rfl
  have hrank : rank (m.push false).entries c.next = (c.without m).next := by
    rw [next_without h, ← h.next_eq]
    exact rank_append _ _ (Nat.le_refl _)
  have hparts : ((Change.await isSection t).apply c).without (m.push false) =
      { (c.append (.unitTest isSection t)).without (m.push false) with
        awaiting := some (.unitTest (rank (m.push false).entries c.next)) } := rfl
  constructor
  · rw [hparts, hrank, without_append h he]
    rfl
  · refine (h.append he false).await ?_ ?_
    · simp [Marks.push, Awaiting.entry, ← h.next_eq]
    · intro i hi
      cases hi
      refine ⟨isSection, t.name, ?_⟩
      rw [labels_append, ← length_labels, List.getElem?_concat_length]
      rfl

theorem mild_innerClass (name : String) : Entry.Mild (Entry.mapClass fun k =>
    { k with innerClasses := k.innerClasses ++ [name] }) :=
  Entry.mild_mapClass (by simp) (by simp)

theorem without_beginClass {name doc : String} {superclasses : List String} (h : Fits m c) :
    m.grow false c.entries ((Change.beginClass name doc superclasses).apply c).entries =
        m.push false ∧
      ((Change.beginClass name doc superclasses).apply c).without (m.push false) =
        (Change.beginClass name doc superclasses).apply (c.without m) ∧
      Fits (m.push false) ((Change.beginClass name doc superclasses).apply c) := by
  generalize hclass : Entry.classDoc ⟨name, doc, superclasses, [], [], [], []⟩ = e
  have he : e.attributeCount = 0 := by
    rw [← hclass]
    rfl
  have happend := without_append h he false
  obtain ⟨hshape, hmodify, hfits⟩ :=
    without_modifyInnermost (h.append he false) (mild_innerClass name)
  have hplace : (m.push false).place? c.next = some (c.without m).next := by
    rw [← h.next_eq, Marks.place?_push_last, next_without h, h.next_eq]
    rfl
  have happly (d : Collector) : (Change.beginClass name doc superclasses).apply d =
      { (d.append e).modifyInnermost
          (fun k => { k with innerClasses := k.innerClasses ++ [name] }) with
        classes := some d.next :: ((d.append e).modifyInnermost
          fun k => { k with innerClasses := k.innerClasses ++ [name] }).classes } := by
    rw [Change.apply, hclass]
  rw [happly, happly]
  refine ⟨?_, ?_, hfits.openClass fun i hi => ?_⟩
  · exact (Marks.grow_congr hshape).trans (Marks.grow_append he m false c.entries)
  · have hopen := congrArg (fun d : Collector =>
      { d with classes := some (c.without m).next :: d.classes }) hmodify
    rw [happend] at hopen
    refine Eq.trans ?_ hopen
    rw [← hplace]
    rfl
  · cases hi
    simp [Marks.push, ← h.next_eq]

theorem mild_addToClass (method : Method) : Entry.Mild (Entry.mapClass (addToClass method)) := by
  refine Entry.mild_mapClass (fun k => ?_) (fun k attributes => ?_)
  · unfold addToClass
    split <;> rfl
  · unfold addToClass
    split <;> rfl

theorem methodCount_without (hi : m.entries[i]? = some false) (c : Collector)
    (isConstructor : Bool) :
    (c.without m).methodCount (rank m.entries i) isConstructor =
      c.methodCount i isConstructor := by
  unfold methodCount
  rw [entry_without hi]
  cases c.entries[i]? with
  | none => rfl
  | some e => cases e <;> rfl

theorem without_declare {method : Method} (h : Fits m c) :
    SameShape c.entries ((Change.declare method).apply c).entries ∧
      ((Change.declare method).apply c).without m = (Change.declare method).apply (c.without m) ∧
      Fits m ((Change.declare method).apply c) := by
  simp only [Change.apply]
  rw [innermost_without h]
  cases hi : c.innermost with
  | none => exact ⟨.refl _, rfl, h⟩
  | some i =>
    have hkept := h.innermost hi
    have hmild := mild_addToClass method
    refine ⟨.modify hmild _ i, ?_, (h.modify hmild i).await hkept (by simp)⟩
    rw [Option.map_some]
    dsimp only
    rw [methodCount_without hkept, ← without_modify hmild hkept]
    rfl

/-- Adds an attribute to a class. -/
def withAttribute (a : Attribute) (k : Class) : Class :=
  { k with attributes := k.attributes ++ [a] }

theorem attributeCountAt_hold (a : Attribute) (es : List Entry) (i j : Nat) :
    attributeCountAt (es.modify i (Entry.mapClass (withAttribute a))) j =
      attributeCountAt es j +
        (if i = j ∧ es[i]?.any (·.kind = .classDoc) then 1 else 0) := by
  unfold attributeCountAt
  rw [List.getElem?_modify]
  by_cases hij : i = j
  · subst hij
    cases es[i]? with
    | none => simp
    | some e => cases e <;> simp [Entry.mapClass, Entry.attributeCount, Entry.kind, withAttribute]
  · simp [hij]

theorem grow_hold (m : Marks) (mark : Bool) (a : Attribute) (es : List Entry) (i : Nat) :
    m.grow mark es (es.modify i (Entry.mapClass (withAttribute a))) =
      { m with attributes := fun j => m.attributes j ++
        List.replicate (if i = j ∧ es[i]?.any (·.kind = .classDoc) then 1 else 0) mark } := by
  simp only [Marks.grow, attributeCountAt_hold, List.length_modify, Nat.sub_self,
    List.replicate_zero, List.append_nil, Nat.add_sub_cancel_left]

theorem mapClass_of_ne_class (h : e.kind ≠ .classDoc) (f : Class → Class) : e.mapClass f = e := by
  cases e with
  | classDoc k => exact absurd rfl h
  | _ => rfl

theorem hide_withAttribute {marks : List Bool} (hl : marks.length = e.attributeCount)
    (hc : e.kind = .classDoc) (a : Attribute) (mark : Bool) :
    (e.mapClass (withAttribute a)).hide (marks ++ [mark]) =
      if mark then e.hide marks else (e.hide marks).mapClass (withAttribute a) := by
  cases e with
  | classDoc k =>
    have happend : unmarked (marks ++ [mark]) (k.attributes ++ [a]) =
        unmarked marks k.attributes ++ unmarked [mark] [a] := unmarked_append hl _ _
    simp only [Entry.hide, Entry.mapClass, withAttribute, happend]
    cases mark <;> simp [unmarked]
  | _ => cases hc

theorem shown_hold (hl : ∀ j, (m.attributes j).length = attributeCountAt c.entries j)
    (mark : Bool) (a : Attribute) (i : Nat) :
    (m.grow mark c.entries (c.entries.modify i (Entry.mapClass (withAttribute a)))).shown
        (c.entries.modify i (Entry.mapClass (withAttribute a))) =
      if mark then m.shown c.entries
      else (m.shown c.entries).modify i (Entry.mapClass (withAttribute a)) := by
  rw [grow_hold]
  refine List.ext_getElem? fun j => ?_
  have hleft : ∀ marks : Nat → List Bool,
      (Marks.shown { m with attributes := marks }
        (c.entries.modify i (Entry.mapClass (withAttribute a))))[j]? =
      c.entries[j]?.map fun e =>
        (if i = j then e.mapClass (withAttribute a) else e).hide (marks j) := by
    intro marks
    simp only [Marks.shown, List.getElem?_mapIdx, List.getElem?_modify, Option.map_eq_map,
      Option.map_map]
    rfl
  have hright : (if mark then m.shown c.entries
      else (m.shown c.entries).modify i (Entry.mapClass (withAttribute a)))[j]? =
      c.entries[j]?.map fun e => if mark then e.hide (m.attributes j)
        else if i = j then (e.hide (m.attributes j)).mapClass (withAttribute a)
        else e.hide (m.attributes j) := by
    cases mark with
    | true => simp [Marks.shown]
    | false =>
      simp only [Bool.false_eq_true, if_false, Marks.shown, List.getElem?_modify,
        List.getElem?_mapIdx, Option.map_eq_map, Option.map_map]
      rfl
  rw [hleft, hright]
  have hlen := hl j
  cases hj : c.entries[j]? with
  | none => rfl
  | some e =>
    rw [attributeCountAt, hj, Option.map_some, Option.getD_some] at hlen
    refine congrArg some ?_
    by_cases hij : i = j
    · subst hij
      by_cases hclass : e.kind = .classDoc
      · have hhide := hide_withAttribute hlen hclass a mark
        simpa [hj, hclass] using hhide
      · have hsame : e.mapClass (withAttribute a) = e := mapClass_of_ne_class hclass _
        have hhide (marks : List Bool) : e.hide marks = e := mapClass_of_ne_class hclass _
        cases mark <;> simp [hsame, hhide]
    · cases mark <;> simp [hij]

/-- An attribute that is added to a class, and marked or not. -/
theorem without_hold {a : Attribute} (h : Fits m c) (mark : Bool) :
    ((Change.hold a).apply c).without
        (m.grow mark c.entries ((Change.hold a).apply c).entries) =
      (if mark then c.without m else (Change.hold a).apply (c.without m)) ∧
      Fits (m.grow mark c.entries ((Change.hold a).apply c).entries) ((Change.hold a).apply c) := by
  have happly (d : Collector) :
      (Change.hold a).apply d = d.modifyInnermost (withAttribute a) := rfl
  rw [happly, happly, modifyInnermost, modifyInnermost, innermost_without h]
  cases hi : c.innermost with
  | none =>
    dsimp only [Option.map_none]
    rw [Marks.grow_of_sameShape (.refl _)]
    exact ⟨by cases mark <;> rfl, h⟩
  | some i =>
    have hkept := h.innermost hi
    have hshown := shown_hold h.length_attributes mark a i
    dsimp only [Option.map_some, modify]
    generalize hm' : m.grow mark c.entries (c.entries.modify i (Entry.mapClass (withAttribute a))) =
      m' at hshown ⊢
    have hentries : m'.entries = m.entries := by
      rw [← hm', grow_hold]
    have hplace : m'.place? = m.place? := by
      funext j
      rw [Marks.place?, Marks.place?, hentries]
    refine ⟨?_, ?_⟩
    · rw [without, hshown, hentries, hplace]
      cases mark with
      | true => rfl
      | false =>
        simp only [Bool.false_eq_true, if_false]
        rw [unmarked_modify_of_unmarked hkept]
        rfl
    · refine ⟨?_, ?_, ?_, ?_, ?_, ?_⟩
      · rw [hentries, List.length_modify]
        exact h.length_entries
      · intro j
        have hcount := attributeCountAt_hold a c.entries i j
        rw [← hm', grow_hold, hcount, List.length_append, List.length_replicate]
        rw [h.length_attributes j]
      · rw [hentries]
        exact h.classes
      · rw [hentries]
        exact h.awaiting
      · intro j hj
        have hlabels := labels_modify
          (Entry.label_mapClass (f := withAttribute a) fun k => rfl) c i
        obtain ⟨isSection, name, hl⟩ := h.unitTest j hj
        exact ⟨isSection, name, (congrArg (fun ls => ls[j]?) hlabels).trans hl⟩
      · intro j hj
        rw [List.length_modify]
        exact h.definitions j hj

theorem mild_markKeywords : Entry.Mild (Entry.mapDefinition fun d =>
    { d with hasKeywords := true }) := Entry.mild_mapDefinition (by simp)

/-- Keyword arguments are noted at the innermost definition, unless its entry is marked. -/
theorem without_markKeywords (h : Fits m c) :
    SameShape c.entries c.markKeywords.entries ∧
      c.markKeywords.without m = (c.without m).markKeywords ∧ Fits m c.markKeywords := by
  unfold markKeywords
  match hd : c.definitions with
  | [] =>
    have hrest : (c.without m).definitions = [] := by simp [hd]
    rw [hrest]
    exact ⟨.refl _, rfl, h⟩
  | none :: rest =>
    have hrest : (c.without m).definitions = none :: rest.map (·.bind m.place?) := by
      simp [hd]
    rw [hrest]
    exact ⟨.refl _, rfl, h⟩
  | some i :: rest =>
    have hrest : (c.without m).definitions = m.place? i :: rest.map (·.bind m.place?) := by
      simp [hd]
    have hlt : i < m.entries.length := by
      rw [h.length_entries]
      exact h.definitions i (by simp [hd])
    rw [hrest]
    refine ⟨.modify mild_markKeywords _ i, ?_, h.modify mild_markKeywords i⟩
    cases hmark : m.entries.get ⟨i, hlt⟩ with
    | true =>
      have hi : m.entries[i]? = some true := by
        rw [List.getElem?_eq_getElem hlt]
        exact congrArg some hmark
      rw [Marks.place?_of_marked hi]
      exact without_modify_of_marked mild_markKeywords hi c
    | false =>
      have hi : m.entries[i]? = some false := by
        rw [List.getElem?_eq_getElem hlt]
        exact congrArg some hmark
      rw [Marks.place?_of_unmarked hi]
      exact without_modify mild_markKeywords hi c

/-- Every change can be made without what is marked. -/
theorem without_apply (hs : change.Suits kind) (h : Fits m c) :
    (change.apply c).without (m.grow false c.entries (change.apply c).entries) =
        change.apply (c.without m) ∧
      Fits (m.grow false c.entries (change.apply c).entries) (change.apply c) := by
  have hpush {e : Entry} (he : e.attributeCount = 0) := Marks.grow_append he m false c.entries
  cases hs with
  | nothing hk hd =>
    simp only [Change.apply]
    rw [Marks.grow_of_sameShape (.refl _)]
    exact ⟨rfl, h⟩
  | add hk he =>
    have hcount := attributeCount_of_ne_class (Change.Suits.ne_classDoc (.add hk he))
    have happend := without_append h hcount false
    have hfits := h.append hcount false
    rw [← hpush hcount] at happend hfits
    exact ⟨happend, hfits⟩
  | define isMacro d =>
    have hdefine := without_define h (e := .definition isMacro d) rfl false
    rw [← hpush (e := .definition isMacro d) rfl] at hdefine
    exact hdefine
  | await isSection t =>
    have hawait := without_await isSection t h
    rw [← hpush (e := .unitTest isSection t) rfl] at hawait
    exact hawait
  | beginClass name doc superclasses =>
    obtain ⟨hgrow, hclass, hfits⟩ := without_beginClass h
    rw [hgrow]
    exact ⟨hclass, hfits⟩
  | declare hm =>
    obtain ⟨hshape, hdeclare, hfits⟩ := without_declare h
    rw [Marks.grow_of_sameShape hshape]
    exact ⟨hdeclare, hfits⟩
  | hold a => exact without_hold h false
  | keywords =>
    obtain ⟨hshape, hkeywords, hfits⟩ := without_markKeywords h
    have hgrow : m.grow false c.entries c.markKeywords.entries = m :=
      Marks.grow_of_sameShape hshape
    simp only [Change.apply]
    rw [hgrow]
    exact ⟨hkeywords, hfits⟩

/-- The kinds of commands that nothing else belongs to. -/
def unlinkedKinds : List CommandKind :=
  [.definition false, .definition true, .option, .test, .classAttribute]

/-- Marks for what comes from commands of a kind: they stand at entries, or at attributes if the
kind is that of attributes. -/
structure Own (kind : CommandKind) (m : Marks) : Prop where
  entries : kind = .classAttribute → true ∉ m.entries
  attributes : kind ≠ .classAttribute → ∀ i, true ∉ m.attributes i

/-- What is left to do with a command that is left out: a definition is open without an entry. -/
def passOver (kind : CommandKind) (c : Collector) : Collector :=
  match kind with
  | .definition _ => { c with definitions := none :: c.definitions }
  | _ => c

theorem Own.grow {mark : Bool} {es es' : List Entry} (ho : Own kind m)
    (he : mark = true → kind = .classAttribute → es'.length = es.length)
    (ha : mark = true → kind ≠ .classAttribute →
      ∀ i, attributeCountAt es' i = attributeCountAt es i) :
    Own kind (m.grow mark es es') := by
  constructor
  · intro hk hmem
    rcases List.mem_append.mp hmem with hmem | hmem
    · exact ho.entries hk hmem
    · have hmark := List.eq_of_mem_replicate hmem
      rw [he hmark.symm hk, Nat.sub_self] at hmem
      cases hmem
  · intro hk i hmem
    rcases List.mem_append.mp hmem with hmem | hmem
    · exact ho.attributes hk i hmem
    · have hmark := List.eq_of_mem_replicate hmem
      rw [ha hmark.symm hk i, Nat.sub_self] at hmem
      cases hmem

/-- Marking what a command of the kind adds leaves only what is left to do without it. -/
theorem without_own (hk : kind ∈ unlinkedKinds) (hs : change.Suits kind) (h : Fits m c)
    (ho : Own kind m) :
    (change.apply c).without (m.grow true c.entries (change.apply c).entries) =
        passOver kind (c.without m) ∧
      Fits (m.grow true c.entries (change.apply c).entries) (change.apply c) ∧
      Own kind (m.grow true c.entries (change.apply c).entries) := by
  have hnothing (hd : ∀ isMacro, kind ≠ .definition isMacro) (d : Collector) :
      passOver kind d = d := by
    cases kind with
    | definition isMacro => exact absurd rfl (hd isMacro)
    | _ => rfl
  cases hs with
  | nothing hp hd =>
    simp only [Change.apply]
    rw [Marks.grow_of_sameShape (.refl _), hnothing hd]
    exact ⟨rfl, h, ho⟩
  | @add kind e hmem he =>
    have hd : ∀ isMacro, kind ≠ .definition isMacro := by
      rintro isMacro rfl
      simp at hmem
    have hattr : kind ≠ .classAttribute := by
      rintro rfl
      simp at hmem
    have hcount := attributeCount_of_ne_class (Change.Suits.ne_classDoc (.add hmem he))
    have hgrow := Marks.grow_append hcount m true c.entries
    refine ⟨?_, ?_, ?_⟩
    · rw [hnothing hd]
      exact (congrArg _ hgrow).trans (without_append h hcount true)
    · exact (congrArg (Fits · (c.append e)) hgrow).mpr (h.append hcount true)
    · refine Own.grow ho (fun _ heq => absurd heq hattr) fun _ _ i => ?_
      exact Marks.attributeCountAt_append hcount c.entries i
  | define isMacro d =>
    have hgrow := Marks.grow_append (e := .definition isMacro d) rfl m true c.entries
    obtain ⟨hdefine, hfits⟩ := without_define h (e := .definition isMacro d) rfl true
    rw [← hgrow] at hdefine hfits
    refine ⟨hdefine, hfits, Own.grow ho (fun _ heq => absurd heq (by simp)) fun _ _ i => ?_⟩
    exact Marks.attributeCountAt_append rfl c.entries i
  | hold a =>
    obtain ⟨hhold, hfits⟩ := without_hold h true (a := a)
    refine ⟨hhold, hfits, Own.grow ho (fun _ _ => ?_) fun _ hne => absurd rfl hne⟩
    simp only [Change.apply, modifyInnermost]
    split
    · exact List.length_modify _ _ _
    · rfl
  | keywords | await _ _ | beginClass _ _ _ | declare _ => simp [unlinkedKinds] at hk

end CMakeDocs.Collector
