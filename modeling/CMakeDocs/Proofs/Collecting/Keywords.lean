import CMakeDocs.Proofs.Collecting.Enclosing
import CMakeDocs.Proofs.Collecting.Frozen
import CMakeDocs.Proofs.Collecting.Nesting
import CMakeDocs.Proofs.Lines
import Mathlib.Data.List.Forall2

/-!
# Keyword arguments

A definition takes keyword arguments if its documentation says so, or if its arguments are parsed
directly in it. A collector finds this out as it goes: whoever is on top of the stack of open
definitions is marked. As long as nothing awaits its definition, the stack holds the entries of the
definitions that are open, so the mark says what the items of the file say.
-/
namespace CMakeDocs

namespace Item

/-- A unit test or a method is declared. -/
def awaitsDefinition (it : Item) : Bool :=
  match it.kind? with
  | some (.unitTest _) | some (.member _) => true
  | _ => false

/-- An item begins a definition that has an entry, with the documentation and the name of that. -/
def Defines (s : Settings) (it : Item) (isMacro : Bool) (d : Definition) : Prop :=
  ∃ command, it.recorded? s = some (d.doc, command) ∧ command.kind = .definition isMacro ∧
    command.singles.head? = some d.name

end Item

/-- Documentation that says that a definition takes keyword arguments. -/
def Settings.Triggers (s : Settings) (doc : String) : Prop :=
  ∃ trigger, s.keywordTrigger = .text trigger ∧ trigger.toList <:+: doc.toList

/-- Arguments are parsed while the definition that begins at a place is on top of the stack. -/
def ParsesOnTop (is : List Item) (p : Nat) : Prop :=
  ∃ r it, is[r]? = some it ∧ it.kind? = some .parseArguments ∧
    (openAfter (is.take r)).head? = some p

section ParsesOnTop

variable {is : List Item} {it : Item} {p : Nat}

theorem parsesOnTop_concat : ParsesOnTop (is ++ [it]) p ↔
    ParsesOnTop is p ∨ it.kind? = some .parseArguments ∧ (openAfter is).head? = some p := by
  constructor
  · rintro ⟨r, it', hr, hk, hhead⟩
    by_cases hlt : r < is.length
    · rw [List.getElem?_append_left hlt] at hr
      rw [List.take_append_of_le_length (Nat.le_of_lt hlt)] at hhead
      exact .inl ⟨r, it', hr, hk, hhead⟩
    · obtain ⟨hle, -⟩ := List.getElem?_eq_some_iff.mp hr
      rw [List.length_append, List.length_singleton] at hle
      obtain rfl : r = is.length := by omega
      rw [List.getElem?_concat_length] at hr
      rw [List.take_left] at hhead
      cases hr
      exact .inr ⟨hk, hhead⟩
  · rintro (⟨r, it', hr, hk, hhead⟩ | ⟨hk, hhead⟩)
    · have hlt := (List.getElem?_eq_some_iff.mp hr).1
      refine ⟨r, it', by rw [List.getElem?_append_left hlt, hr], hk, ?_⟩
      rw [List.take_append_of_le_length (Nat.le_of_lt hlt), hhead]
    · exact ⟨is.length, it, List.getElem?_concat_length, hk, by rw [List.take_left, hhead]⟩

/-- Nothing is parsed in a definition before it begins. -/
theorem not_parsesOnTop_length (is : List Item) : ¬ ParsesOnTop is is.length := by
  rintro ⟨r, it, -, -, hhead⟩
  have hlt := lt_of_mem_openAfter (List.mem_of_mem_head? hhead)
  rw [List.length_take] at hlt
  omega

end ParsesOnTop

namespace Collector

variable {s : Settings} {c c' : Collector} {is : List Item} {it : Item} {isMacro : Bool}
  {d : Definition} {i : Nat}

/-- What every call for an item keeps is kept by the item. -/
theorem pass_keeps {P : Collector → Prop} (h : pass s c it = .ok c')
    (hmove : ∀ c₁ c₂, Move c₁ it.kind? c₂ → P c₁ → P c₂) (hc : P c) : P c' := by
  cases it with
  | moduleComment text =>
    cases h
    exact hmove _ _ (.addModule _ _) hc
  | documented comment command =>
    obtain ⟨c₁, logs₁, logs₂, hr, hf⟩ := pass_documented.mp h
    exact hmove _ _ (move_of_follow hf) (hmove _ _ (move_of_record hr) hc)
  | plain command =>
    obtain ⟨logs, hf⟩ := pass_plain.mp h
    exact hmove _ _ (move_of_follow hf) hc
  | strayComment =>
    cases h
    exact hc

theorem Move.awaiting_none {kind? : Option CommandKind} (h : Move c kind? c')
    (ht : ∀ isSection, kind? ≠ some (.unitTest isSection))
    (hm : ∀ isConstructor, kind? ≠ some (.member isConstructor)) (hc : c.awaiting = none) :
    c'.awaiting = none := by
  cases h with
  | stay | addModule | openClass | closeClass | openDefinition | closeDefinition => exact hc
  | link => rfl
  | change hs =>
    rw [hs.awaiting_eq (fun isSection heq => ht isSection (by rw [heq]))
      (fun isConstructor heq => hm isConstructor (by rw [heq]))]
    exact hc

theorem pass_awaiting_none (h : pass s c it = .ok c') (hit : it.awaitsDefinition = false)
    (hc : c.awaiting = none) : c'.awaiting = none := by
  refine pass_keeps h (fun c₁ c₂ hmove => hmove.awaiting_none ?_ ?_) hc
  · intro isSection hk
    simp [Item.awaitsDefinition, hk] at hit
  · intro isConstructor hk
    simp [Item.awaitsDefinition, hk] at hit

/-- Nothing but the parsing of arguments changes what has been said about a definition. -/
theorem pass_definition_same (h : pass s c it = .ok c')
    (hk : it.kind? ≠ some .parseArguments)
    (hi : c.entries[i]? = some (.definition isMacro d)) :
    c'.entries[i]? = some (.definition isMacro d) := by
  refine pass_keeps (P := fun c => c.entries[i]? = some (.definition isMacro d)) h
    (fun c₁ c₂ hmove hi₁ => ?_) hi
  rcases hmove.frozen.entry hi₁ with hsame | ⟨e', -, hamended⟩
  · exact hsame
  · generalize hkind : it.kind? = kind? at hamended hk
    cases hamended with
    | keywords => exact absurd rfl hk

theorem markKeywords_entry (c : Collector) (i : Nat) :
    c.markKeywords.entries[i]? = if c.definitions.head? = some (some i) then
      c.entries[i]?.map (Entry.mapDefinition fun d => { d with hasKeywords := true })
    else c.entries[i]? := by
  unfold markKeywords
  split
  · next j rest hd =>
    rw [hd]
    by_cases hij : j = i
    · subst hij
      simp
    · simp [hij]
  · next hnone =>
    have hhead : c.definitions.head? ≠ some (some i) := by
      intro hhead
      obtain ⟨rest, hrest⟩ := List.head?_eq_some_iff.mp hhead
      exact hnone i rest hrest
    rw [if_neg hhead]

theorem markKeywords_markKeywords (c : Collector) :
    c.markKeywords.markKeywords.entries = c.markKeywords.entries := by
  refine List.ext_getElem? fun i => ?_
  rw [markKeywords_entry, markKeywords_definitions, markKeywords_entry]
  split_ifs
  · rw [Option.map_map]
    congr 1
    funext e
    cases e <;> rfl
  · rfl

theorem pass_parseArguments (h : pass s c it = .ok c') (hk : it.kind? = some .parseArguments) :
    c'.entries = c.markKeywords.entries := by
  cases it with
  | moduleComment text => cases hk
  | strayComment => cases hk
  | plain command =>
    obtain ⟨logs, hf⟩ := pass_plain.mp h
    rw [follow_parseArguments (Option.some.inj hk)] at hf
    cases hf
    rfl
  | documented comment command =>
    obtain ⟨c₁, logs₁, logs₂, hr, hf⟩ := pass_documented.mp h
    rw [record_parseArguments (Option.some.inj hk)] at hr
    cases hr
    rw [follow_parseArguments (Option.some.inj hk)] at hf
    cases hf
    exact markKeywords_markKeywords c

theorem hasTrigger_iff {doc : String} {b : Bool} (h : hasTrigger s.keywordTrigger doc = .ok b) :
    b = true ↔ s.Triggers doc := by
  unfold Settings.Triggers
  generalize s.keywordTrigger = trigger at h
  cases trigger with
  | text t =>
    cases h
    simp [Text.contains, Text.occursIn_iff]
  | _ => cases h

/-- A definition that gets an entry is put on the stack with it. -/
theorem pass_defines {doc : String} {command : Command} (h : pass s c it = .ok c')
    (hc : c.awaiting = none) (hr : it.recorded? s = some (doc, command))
    (hk : command.kind = .definition isMacro) :
    ∃ d, c' = (Change.define isMacro d).apply c ∧ d.doc = doc ∧
      command.singles.head? = some d.name ∧ (d.hasKeywords = true ↔ s.Triggers doc) := by
  have hdefine {c' : Collector} {logs : List LogRecord}
      (hrecord : record s doc command c = .ok (c', logs)) :
      ∃ d, c' = (Change.define isMacro d).apply c ∧ d.doc = doc ∧
        command.singles.head? = some d.name ∧ (d.hasKeywords = true ↔ s.Triggers doc) := by
    rw [record_definition hk] at hrecord
    obtain ⟨name, rest, params, hasKeywords, hs, -, htrigger, -, rfl⟩ := define_eq_ok hrecord
    exact ⟨⟨name, doc, params, hasKeywords⟩, rfl, rfl, by rw [hs]; rfl, hasTrigger_iff htrigger⟩
  cases it with
  | moduleComment text => cases hr
  | strayComment => cases hr
  | plain command' =>
    obtain ⟨logs, hf⟩ := pass_plain.mp h
    simp only [Item.recorded?] at hr
    split_ifs at hr with hincluded
    cases hr
    rw [hk] at hincluded
    rw [follow_unawaited hk hc, if_neg Bool.false_ne_true, if_pos hincluded] at hf
    exact hdefine hf
  | documented comment command' =>
    cases hr
    obtain ⟨c₁, logs₁, logs₂, hrecord, hf⟩ := pass_documented.mp h
    obtain ⟨d, rfl, hd⟩ := hdefine hrecord
    have hawaiting : ((Change.define isMacro d).apply c).awaiting = none := hc
    rw [follow_unawaited hk hawaiting, if_pos rfl] at hf
    cases hf
    exact ⟨d, rfl, hd⟩

/-- A definition that gets no entry is put on the stack all the same. -/
theorem pass_definition_unrecorded (h : pass s c it = .ok c') (hc : c.awaiting = none)
    (hd : it.isDefinition = true) (hr : it.recorded? s = none) :
    c' = { c with definitions := none :: c.definitions } := by
  obtain ⟨isMacro, hk⟩ := Item.isDefinition_iff.mp hd
  cases it with
  | moduleComment text => cases hk
  | strayComment => cases hk
  | documented comment command => cases hr
  | plain command =>
    obtain ⟨logs, hf⟩ := pass_plain.mp h
    have hkind : command.kind = .definition isMacro := Option.some.inj hk
    simp only [Item.recorded?, hkind] at hr
    split_ifs at hr with hincluded
    rw [follow_unawaited hkind hc, if_neg Bool.false_ne_true, if_neg hincluded] at hf
    cases hf
    rfl

theorem kind_of_definition_label {doc name : String} {command : Command}
    (h : (.definition isMacro, name) ∈ recordedLabels s doc command) :
    command.kind = .definition isMacro := by
  have hkind := entryKind_of_mem_recordedLabels h
  cases hk : command.kind with
  | definition isMacro' =>
    rw [hk] at hkind
    cases hkind
    rfl
  | _ => simp [hk, CommandKind.entryKind?] at hkind

theorem isDefinition_of_made {isAwaited : Bool} {name : String}
    (h : (.definition isMacro, name) ∈ made s isAwaited it) : it.isDefinition = true := by
  cases it with
  | moduleComment text => simp [made] at h
  | documented comment command =>
    exact Item.isDefinition_iff.mpr ⟨isMacro, congrArg some (kind_of_definition_label h)⟩
  | plain command =>
    rw [made] at h
    split_ifs at h
    · exact Item.isDefinition_iff.mpr ⟨isMacro, congrArg some (kind_of_definition_label h)⟩
    · cases h
  | strayComment => cases h

theorem origins_concat_old {p : Nat} (hp : p < is.length) :
    (origins s (is ++ [it]))[i]? = some p ↔ (origins s is)[i]? = some p := by
  rw [origins, growth_concat, ← origins]
  by_cases hi : i < (origins s is).length
  · rw [List.getElem?_append_left hi]
  · rw [List.getElem?_append_right (Nat.le_of_not_lt hi),
      List.getElem?_eq_none (Nat.le_of_not_lt hi), List.getElem?_replicate]
    split_ifs
    · simp only [Option.some.injEq, iff_false]
      omega
    · rfl

theorem not_mem_origins (s : Settings) (is : List Item) : is.length ∉ origins s is := by
  intro h
  exact absurd (lt_of_mem_growth h) (Nat.lt_irrefl _)

/-- An item that makes one entry is the origin of that. -/
theorem origins_concat_new (herror : (items s is empty).error = none)
    (hnext : (items s (is ++ [it]) empty).collector.next = (items s is empty).collector.next + 1) :
    (origins s (is ++ [it]))[i]? = some is.length ↔ i = (items s is empty).collector.next := by
  have hlength := (labels_origins herror).1
  rw [origins, growth_concat, ← origins, hnext, Nat.add_sub_cancel_left, List.replicate_one]
  by_cases hi : i < (origins s is).length
  · have hne : (origins s is)[i]? ≠ some is.length := fun h =>
      not_mem_origins s is (List.mem_of_getElem? h)
    rw [List.getElem?_append_left hi]
    simp only [hne, false_iff]
    omega
  · rw [List.getElem?_append_right (Nat.le_of_not_lt hi), List.getElem?_singleton]
    split_ifs <;> simp <;> omega

/-- What the stack says about the definition that begins at a place: the number of its entry, if it
has one. -/
def Stands (s : Settings) (is : List Item) (x : Option Nat) (p : Nat) : Prop :=
  p < is.length ∧ ∀ i, x = some i ↔ (origins s is)[i]? = some p

theorem Stands.concat {x : Option Nat} {p : Nat} (h : Stands s is x p) (it : Item) :
    Stands s (is ++ [it]) x p := by
  refine ⟨?_, fun i => (h.2 i).trans (origins_concat_old h.1).symm⟩
  rw [List.length_append]
  exact Nat.lt_add_right _ h.1

/-- The collector keeps up with the items as far as definitions go. -/
structure Tracks (s : Settings) (is : List Item) : Prop where
  awaiting : (items s is empty).collector.awaiting = none
  stack : List.Forall₂ (Stands s is) (items s is empty).collector.definitions (openAfter is)
  entry : ∀ (i : Nat) (isMacro : Bool) (d : Definition),
    (items s is empty).collector.entries[i]? = some (.definition isMacro d) →
    ∃ (p : Nat) (it : Item), (origins s is)[i]? = some p ∧ is[p]? = some it ∧
      it.Defines s isMacro d ∧
      (d.hasKeywords = true ↔ s.Triggers d.doc ∨ ParsesOnTop is p)

theorem Tracks.stack_concat (h : Tracks s is) (herror : (items s (is ++ [it]) empty).error = none) :
    List.Forall₂ (Stands s (is ++ [it])) (items s (is ++ [it]) empty).collector.definitions
      (openAfter (is ++ [it])) := by
  obtain ⟨hbefore, hpass⟩ := items_concat_error_none herror
  have hold : List.Forall₂ (Stands s (is ++ [it])) (items s is empty).collector.definitions
      (openAfter is) := h.stack.imp fun _ _ hstands => hstands.concat it
  have hlt : is.length < (is ++ [it]).length := by simp
  by_cases hd : it.isDefinition = true
  · rw [openAfter_definition _ hd]
    cases hr : it.recorded? s with
    | none =>
      have hc := pass_definition_unrecorded hpass h.awaiting hd hr
      have hsame : origins s (is ++ [it]) = origins s is := by
        rw [origins, growth_concat, hc]
        simp [next, origins]
      rw [hc]
      refine .cons ⟨hlt, fun i => ?_⟩ hold
      have hne : (origins s is)[i]? ≠ some is.length := fun heq =>
        not_mem_origins s is (List.mem_of_getElem? heq)
      simp [hsame, hne]
    | some recorded =>
      obtain ⟨doc, command⟩ := recorded
      obtain ⟨isMacro, hkind⟩ := Item.isDefinition_iff.mp hd
      rw [Item.kind?_of_recorded hr] at hkind
      obtain ⟨d, hc, -⟩ := pass_defines hpass h.awaiting hr (Option.some.inj hkind)
      have hnext : (items s (is ++ [it]) empty).collector.next =
          (items s is empty).collector.next + 1 := by
        rw [hc]
        exact append_next _ _
      rw [hc]
      refine .cons ⟨hlt, fun i => ?_⟩ hold
      rw [origins_concat_new hbefore hnext, Option.some.injEq, eq_comm]
  by_cases he : it.isDefinitionEnd = true
  · obtain ⟨x, hx⟩ := pass_definitionEnd hpass he
    rw [openAfter_end _ he]
    rw [hx] at hold
    cases hopen : openAfter is with
    | nil =>
      rw [hopen] at hold
      cases hold
    | cons p rest =>
      rw [hopen] at hold
      exact (List.forall₂_cons.mp hold).2
  · have hd' := eq_false_of_ne_true hd
    have he' := eq_false_of_ne_true he
    rw [openAfter_other _ hd' he', pass_definitions hpass hd' he']
    exact hold

theorem exists_definition {e : Entry} (h : e.kind = .definition isMacro) :
    ∃ d, e = .definition isMacro d := by
  cases e with
  | definition isMacro' d =>
    cases h
    exact ⟨d, rfl⟩
  | _ => cases h

/-- The stack has an entry on top if the item that has made it is on top of the open ones. -/
theorem Tracks.head_iff (h : Tracks s is) {p : Nat} (hp : (origins s is)[i]? = some p) :
    (items s is empty).collector.definitions.head? = some (some i) ↔
      (openAfter is).head? = some p := by
  have hstack := h.stack
  generalize (items s is empty).collector.definitions = stack at hstack ⊢
  generalize openAfter is = opened at hstack ⊢
  cases hstack with
  | nil => simp
  | @cons x p' _ _ hstands _ =>
    simp only [List.head?_cons, Option.some.injEq]
    rw [hstands.2 i, hp, Option.some.injEq, eq_comm]

/-- What is said about a definition from before is still right behind one item more. -/
theorem Tracks.entry_old (h : Tracks s is)
    (hpass : pass s (items s is empty).collector it = .ok c')
    (hlt : i < (items s is empty).collector.next)
    (hi : c'.entries[i]? = some (.definition isMacro d)) :
    ∃ (p : Nat) (it' : Item), (origins s is)[i]? = some p ∧ is[p]? = some it' ∧
      it'.Defines s isMacro d ∧
      (d.hasKeywords = true ↔ s.Triggers d.doc ∨ ParsesOnTop (is ++ [it]) p) := by
  obtain ⟨e, he⟩ : ∃ e, (items s is empty).collector.entries[i]? = some e :=
    ⟨_, List.getElem?_eq_getElem hlt⟩
  have hlabel : c'.labels[i]? = (items s is empty).collector.labels[i]? := by
    rw [labels_pass hpass, List.getElem?_append_left (by rw [length_labels]; exact hlt)]
  rw [labels, labels, List.getElem?_map, List.getElem?_map, hi, he] at hlabel
  have hkind : e.kind = .definition isMacro := by
    have heq := congrArg Prod.fst (Option.some.inj hlabel)
    exact heq.symm
  obtain ⟨d₀, rfl⟩ := exists_definition hkind
  obtain ⟨p, it', horigin, hit', hdefines, hiff⟩ := h.entry i isMacro d₀ he
  refine ⟨p, it', horigin, hit', ?_⟩
  by_cases hk : it.kind? = some .parseArguments
  · rw [pass_parseArguments hpass hk, markKeywords_entry, he] at hi
    rw [parsesOnTop_concat, ← h.head_iff horigin]
    split_ifs at hi with hhead
    · cases hi
      exact ⟨hdefines, by simp [hk, hhead]⟩
    · cases hi
      exact ⟨hdefines, by simp [hhead, hiff]⟩
  · rw [pass_definition_same hpass hk he] at hi
    cases hi
    exact ⟨hdefines, by simp [parsesOnTop_concat, hk, hiff]⟩

/-- A new entry of a definition is made by the item that begins it. -/
theorem Tracks.entry_new (h : Tracks s is)
    (hpass : pass s (items s is empty).collector it = .ok c')
    (hge : (items s is empty).collector.next ≤ i)
    (hi : c'.entries[i]? = some (.definition isMacro d)) :
    i = (items s is empty).collector.next ∧ c'.next = (items s is empty).collector.next + 1 ∧
      it.Defines s isMacro d ∧
      (d.hasKeywords = true ↔ s.Triggers d.doc ∨ ParsesOnTop (is ++ [it]) is.length) := by
  have hmade : (.definition isMacro, d.name) ∈
      made s (items s is empty).collector.awaiting.isSome it := by
    have hlabel : c'.labels[i]? = some (.definition isMacro, d.name) := by
      rw [labels, List.getElem?_map, hi]
      rfl
    rw [labels_pass hpass, List.getElem?_append_right (by rw [length_labels]; exact hge)] at hlabel
    exact List.mem_of_getElem? hlabel
  have hd := isDefinition_of_made hmade
  obtain ⟨isMacro', hkind⟩ := Item.isDefinition_iff.mp hd
  cases hr : it.recorded? s with
  | none =>
    rw [pass_definition_unrecorded hpass h.awaiting hd hr] at hi
    have hlt := (List.getElem?_eq_some_iff.mp hi).1
    exact absurd hlt (Nat.not_lt_of_le hge)
  | some recorded =>
    obtain ⟨doc, command⟩ := recorded
    rw [Item.kind?_of_recorded hr] at hkind
    obtain ⟨d', hc, hdoc, hname, htrigger⟩ :=
      pass_defines hpass h.awaiting hr (Option.some.inj hkind)
    have hentries : c'.entries =
        (items s is empty).collector.entries ++ [.definition isMacro' d'] := by rw [hc]; rfl
    rw [hentries, List.getElem?_append_right hge] at hi
    obtain ⟨hlast, heq⟩ := List.getElem?_eq_some_iff.mp hi
    have hlast' : i = (items s is empty).collector.next := by
      simp only [List.length_singleton] at hlast
      exact Nat.le_antisymm (Nat.le_of_sub_eq_zero (Nat.lt_one_iff.mp hlast)) hge
    have hdefinition : Entry.definition isMacro' d' = .definition isMacro d := by
      rw [← heq]
      simp
    cases hdefinition
    refine ⟨hlast', by simp [next, hentries],
      ⟨command, hdoc ▸ hr, Option.some.inj hkind, hname⟩, ?_⟩
    have hnot : it.kind? ≠ some .parseArguments := by
      rw [Item.kind?_of_recorded hr, hkind]
      simp
    rw [htrigger, hdoc, parsesOnTop_concat]
    simp [hnot, not_parsesOnTop_length]

theorem tracks_items (herror : (items s is empty).error = none)
    (hno : ∀ it ∈ is, it.awaitsDefinition = false) : Tracks s is := by
  induction is using List.reverseRecOn with
  | nil =>
    refine ⟨rfl, .nil, fun i isMacro d hi => ?_⟩
    simp [items, Progress.start, empty] at hi
  | append_singleton is it ih =>
    obtain ⟨hbefore, hpass⟩ := items_concat_error_none herror
    have htracks := ih hbefore fun it' hit' => hno it' (List.mem_append_left _ hit')
    refine ⟨pass_awaiting_none hpass (hno it (by simp)) htracks.awaiting,
      htracks.stack_concat herror, fun i isMacro d hi => ?_⟩
    by_cases hlt : i < (items s is empty).collector.next
    · obtain ⟨p, it', horigin, hit', hsays⟩ := htracks.entry_old hpass hlt hi
      have hp := (List.getElem?_eq_some_iff.mp hit').1
      exact ⟨p, it', (origins_concat_old hp).mpr horigin,
        by rw [List.getElem?_append_left hp, hit'], hsays⟩
    · obtain ⟨hlast, hnext, hsays⟩ := htracks.entry_new hpass (Nat.le_of_not_lt hlt) hi
      exact ⟨is.length, it, (origins_concat_new hbefore hnext).mpr hlast,
        List.getElem?_concat_length, hsays⟩

/-- The definitions in a file are balanced, and nothing in it awaits a definition. Then the entry of
a function or a macro says that it takes keyword arguments exactly if its documentation says so or
arguments are parsed between its beginning and its end, outside of all definitions in between. -/
theorem hasKeywords_iff (s : Settings) {is : List Item} (hb : Balanced is)
    (hno : ∀ it ∈ is, it.awaitsDefinition = false) (hok : (items s is empty).error = none) :
    ∀ (i : Nat) (isMacro : Bool) (d : Definition),
      (items s is empty).collector.entries[i]? = some (.definition isMacro d) →
      ∃ (p : Nat) (it : Item), (origins s is)[i]? = some p ∧ is[p]? = some it ∧
        it.Defines s isMacro d ∧
        (d.hasKeywords = true ↔ s.Triggers d.doc ∨
          ∃ (r : Nat) (it' : Item), is[r]? = some it' ∧ it'.kind? = some .parseArguments ∧
            LiesDirectlyIn is p r) := by
  intro i isMacro d hi
  obtain ⟨p, it, horigin, hit, hdefines, hiff⟩ := (tracks_items hok hno).entry i isMacro d hi
  refine ⟨p, it, horigin, hit, hdefines, ?_⟩
  rw [hiff, ParsesOnTop]
  refine or_congr_right (exists_congr fun r => exists_congr fun it' => ?_)
  refine and_congr_right fun hr => and_congr_right fun hk => ?_
  refine (liesDirectlyIn_iff hb fun it'' hit'' => ?_).symm
  rw [hr] at hit''
  cases hit''
  simp [Item.isDefinitionEnd, hk]

/-- Settings under which macros get entries by comments only. -/
def withoutMacros : Settings :=
  { (default : Settings) with includes := fun kind => kind ≠ .definition true }

/-- Arguments are parsed in a macro without an entry inside a function, and in another function. -/
def nestedParsing : List Item :=
  [.documented "#[[[\n# Does f.\n#]]" (plainCommand "function" ["f"]),
    .plain (plainCommand "macro" ["m"]),
    .plain (plainCommand "cmake_parse_arguments" ["A"]),
    .plain (plainCommand "endmacro" []),
    .plain (plainCommand "endfunction" []),
    .plain (plainCommand "function" ["g"]),
    .documented "#[[[\n# Parses.\n#]]" (plainCommand "cmake_parse_arguments" ["A"]),
    .plain (plainCommand "endfunction" [])]

theorem nestedParsing_hasKeywords :
    Balanced nestedParsing ∧
      (items withoutMacros nestedParsing empty).collector.entries =
        [.definition false ⟨"f", "Does f.\n", [], false⟩, .definition false ⟨"g", "", [], true⟩] ∧
      (¬ ∃ (r : Nat) (it : Item), nestedParsing[r]? = some it ∧
        it.kind? = some .parseArguments ∧ LiesDirectlyIn nestedParsing 0 r) ∧
      ∃ (r : Nat) (it : Item), nestedParsing[r]? = some it ∧
        it.kind? = some .parseArguments ∧ LiesDirectlyIn nestedParsing 5 r := by
  have hb : Balanced nestedParsing := ⟨by decide, by decide⟩
  have hentries : (items withoutMacros nestedParsing empty).collector.entries =
      [.definition false ⟨"f", "Does f.\n", [], false⟩,
        .definition false ⟨"g", "", [], true⟩] := rfl
  have horigins : origins withoutMacros nestedParsing = [0, 5] := by decide
  have hiff := hasKeywords_iff withoutMacros hb (by decide) rfl
  obtain ⟨p, -, hp, -, -, hf⟩ := hiff 0 false ⟨"f", "Does f.\n", [], false⟩ (by rw [hentries]; rfl)
  obtain ⟨q, -, hq, -, -, hg⟩ := hiff 1 false ⟨"g", "", [], true⟩ (by rw [hentries]; rfl)
  rw [horigins] at hp hq
  cases hp
  cases hq
  refine ⟨hb, hentries, fun hparsed => ?_, ?_⟩
  · have hmarked := hf.mpr (.inr hparsed)
    cases hmarked
  · rcases hg.mp rfl with ⟨trigger, htrigger, hinfix⟩ | hparsed
    · cases htrigger
      exact absurd (Text.occursIn_iff.mpr hinfix) (by decide)
    · exact hparsed

end Collector

end CMakeDocs
