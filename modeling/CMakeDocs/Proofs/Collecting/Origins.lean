import CMakeDocs.Proofs.Collecting.Changes
import CMakeDocs.Proofs.Collecting.Runs
import Mathlib.Data.List.Basic

/-!
# Where entries come from

An entry keeps its kind and its name once it is there. Which entry an item makes goes by the item,
the settings and whether something awaits a definition; nothing else in the collector matters. So
the entries of a run can be told by the numbers of the items that have made them.
-/
namespace CMakeDocs

namespace Entry

/-- The kind and the name of an entry. -/
def label (e : Entry) : EntryKind × String := (e.kind, e.name)

theorem label_mapDefinition {f : Definition → Definition} (hf : ∀ d, (f d).name = d.name)
    (e : Entry) : (e.mapDefinition f).label = e.label := by
  cases e with
  | definition isMacro d => simp [mapDefinition, label, kind, name, hf]
  | _ => rfl

theorem label_mapClass {f : Class → Class} (hf : ∀ k, (f k).name = k.name) (e : Entry) :
    (e.mapClass f).label = e.label := by
  cases e with
  | classDoc k => simp [mapClass, label, kind, name, hf]
  | _ => rfl

theorem label_mapUnitTest {f : UnitTest → UnitTest} (hf : ∀ t, (f t).name = t.name)
    (e : Entry) : (e.mapUnitTest f).label = e.label := by
  cases e with
  | unitTest isSection t => simp [mapUnitTest, label, kind, name, hf]
  | _ => rfl

end Entry

namespace Collector

variable {s : Settings} {c c' : Collector} {is : List Item} {it : Item} {doc : String}
  {command : Command} {logs : List LogRecord}

def labels (c : Collector) : List (EntryKind × String) := c.entries.map Entry.label

theorem length_labels (c : Collector) : c.labels.length = c.next := by
  simp [labels, next]

theorem labels_append (c : Collector) (e : Entry) :
    (c.append e).labels = c.labels ++ [e.label] := by
  simp [labels]

theorem labels_modify {f : Entry → Entry} (hf : ∀ e, (f e).label = e.label) (c : Collector)
    (i : Nat) : (c.modify i f).labels = c.labels := map_modify_eq hf c.entries i

theorem labels_modifyInnermost {f : Class → Class} (hf : ∀ k, (f k).name = k.name)
    (c : Collector) : (c.modifyInnermost f).labels = c.labels := by
  unfold modifyInnermost
  split
  · exact labels_modify (Entry.label_mapClass hf) c _
  · rfl

theorem labels_markKeywords (c : Collector) : c.markKeywords.labels = c.labels := by
  unfold markKeywords
  split
  · exact labels_modify (Entry.label_mapDefinition (by simp)) c _
  · rfl

theorem labels_link (c : Collector) (isMacro : Bool) (params : List String)
    (awaiting : Awaiting) : (c.link isMacro params awaiting).labels = c.labels := by
  cases awaiting with
  | unitTest i => exact labels_modify (Entry.label_mapUnitTest (by simp)) c i
  | method i isConstructor j =>
    refine labels_modify (Entry.label_mapClass fun k => ?_) c i
    cases isConstructor <;> rfl

namespace Change

/-- The labels of the entries that a change adds. -/
def added : Change → List (EntryKind × String)
  | add e => [e.label]
  | define isMacro d => [(.definition isMacro, d.name)]
  | await isSection t => [(.unitTest isSection, t.name)]
  | beginClass name _ _ => [(.classDoc, name)]
  | nothing | declare _ | hold _ | keywords => []

theorem labels_apply (change : Change) (c : Collector) :
    (change.apply c).labels = c.labels ++ change.added := by
  cases change with
  | nothing => simp [apply, added]
  | add e => exact labels_append c e
  | define isMacro d => exact labels_append c _
  | await isSection t => exact labels_append c _
  | beginClass name doc superclasses =>
    have happend := labels_append c (.classDoc ⟨name, doc, superclasses, [], [], [], []⟩)
    exact (labels_modifyInnermost (by simp) _).trans happend
  | declare m =>
    have hname (k : Class) : (addToClass m k).name = k.name := by
      unfold addToClass
      split
      · rfl
      · rfl
    simp only [apply, added, List.append_nil]
    split
    · exact labels_modify (Entry.label_mapClass hname) c _
    · rfl
  | hold a => simp [apply, added, labels_modifyInnermost]
  | keywords => simp [apply, added, labels_markKeywords]

end Change

/-- The labels of the entries that a command adds when it is recorded. -/
def recordedLabels (s : Settings) (doc : String) (command : Command) : List (EntryKind × String) :=
  match record s doc command empty with
  | .ok (c, _) => c.labels
  | .error _ => []

/-- A command is recorded by an entry of the kind that such commands get. -/
theorem entryKind_of_mem_recordedLabels {l : EntryKind × String}
    (h : l ∈ recordedLabels s doc command) : command.kind.entryKind? = some l.1 := by
  unfold recordedLabels at h
  split at h
  · next c logs hrecord =>
    obtain ⟨change, hr, hc⟩ := records_of_ok hrecord
    have hlabels : c.labels = change.added := by
      rw [hc, Change.labels_apply]
      rfl
    have hsuits := hr.suits
    generalize command.kind = kind at hsuits ⊢
    cases hsuits with
    | add hk he =>
      rw [hlabels, Change.added, List.mem_singleton] at h
      rw [h]
      exact he
    | define | await | beginClass =>
      rw [hlabels, Change.added, List.mem_singleton] at h
      rw [h]
      rfl
    | declare | hold | keywords | nothing => simp [hlabels, Change.added] at h
  · cases h

theorem labels_record (h : record s doc command c = .ok (c', logs)) :
    c'.labels = c.labels ++ recordedLabels s doc command := by
  obtain ⟨change, hr, rfl⟩ := records_of_ok h
  obtain ⟨logs', heq⟩ := hr.record_eq empty
  rw [recordedLabels, heq]
  simp only [Change.labels_apply]
  rfl

/-- What a command that is followed does to the entries if its comment has been dealt with or if it
is not recorded without one: it may be about the keyword arguments of a definition, or be the
definition that something awaits. -/
theorem follow_entries {hasComment : Bool}
    (hr : hasComment = true ∨ isRecorded s c.awaiting.isSome command.kind = false)
    (h : follow s hasComment command c = .ok (c', logs)) :
    c'.entries = c.entries ∨ c'.entries = c.markKeywords.entries ∨
      ∃ isMacro params awaiting, c'.entries = (c.link isMacro params awaiting).entries := by
  obtain ⟨hc, hrecorded, -⟩ | ⟨hf, -⟩ := follow_cases h
  · simp [hc, hrecorded] at hr
  · generalize command.kind = kind at hf
    cases hf with
    | stay | openClass | closeClass | openDefinition | closeDefinition => exact .inl rfl
    | keywords => exact .inr (.inl rfl)
    | link more => exact .inr (.inr ⟨_, more, _, rfl⟩)

/-- Such a command adds no entry. -/
theorem labels_follow {hasComment : Bool}
    (hr : hasComment = true ∨ isRecorded s c.awaiting.isSome command.kind = false)
    (h : follow s hasComment command c = .ok (c', logs)) : c'.labels = c.labels := by
  unfold labels
  rcases follow_entries hr h with he | he | ⟨isMacro, params, awaiting, he⟩
  · rw [he]
  · rw [he]
    exact labels_markKeywords c
  · rw [he]
    exact labels_link c isMacro params awaiting

/-- The labels of the entries that an item makes. -/
def made (s : Settings) (isAwaited : Bool) : Item → List (EntryKind × String)
  | .moduleComment text => [(.moduleDoc, (Comment.moduleParts text).1)]
  | .documented comment command => recordedLabels s (Comment.clean comment) command
  | .plain command =>
    if isRecorded s isAwaited command.kind then recordedLabels s "" command else []
  | .strayComment => []

/-- What an item adds does not depend on what else the collector holds. -/
theorem labels_pass (h : pass s c it = .ok c') :
    c'.labels = c.labels ++ made s c.awaiting.isSome it := by
  cases it with
  | moduleComment text =>
    cases h
    exact labels_append c _
  | documented comment command =>
    obtain ⟨c₁, logs₁, logs₂, hr, hf⟩ := pass_documented.mp h
    rw [labels_follow (.inl rfl) hf, labels_record hr]
    rfl
  | plain command =>
    obtain ⟨logs, hf⟩ := pass_plain.mp h
    by_cases hrec : isRecorded s c.awaiting.isSome command.kind = true
    · rw [follow_of_isRecorded hrec] at hf
      rw [labels_record hf, made, if_pos hrec]
    · rw [labels_follow (.inr (eq_false_of_ne_true hrec)) hf, made, if_neg hrec, List.append_nil]
  | strayComment =>
    cases h
    simp [made]

/-- What a run adds to the entries of its first items is made by the others. -/
theorem labels_items (is : List Item) {js : List Item}
    (h : (items s (is ++ js) c).error = none) :
    ∃ added, (items s (is ++ js) c).collector.labels = (items s is c).collector.labels ++ added ∧
      ∀ l ∈ added, ∃ it ∈ js, ∃ isAwaited, l ∈ made s isAwaited it := by
  induction js using List.reverseRecOn with
  | nil => exact ⟨[], by simp, by simp⟩
  | append_singleton js it ih =>
    rw [← List.append_assoc] at h ⊢
    obtain ⟨herror, hpass⟩ := items_concat_error_none h
    obtain ⟨added, hadded, hmade⟩ := ih herror
    refine ⟨added ++ made s (items s (is ++ js) c).collector.awaiting.isSome it, ?_, ?_⟩
    · rw [labels_pass hpass, hadded, List.append_assoc]
    · intro l hl
      rcases List.mem_append.mp hl with hl | hl
      · obtain ⟨it', hit', isAwaited, hl⟩ := hmade l hl
        exact ⟨it', List.mem_append_left _ hit', isAwaited, hl⟩
      · exact ⟨it, by simp, _, hl⟩

/-- For each thing that is counted, the number of the item that has added it. -/
def growth (size : Collector → Nat) (s : Settings) (is : List Item) : List Nat :=
  (List.range is.length).flatMap fun k =>
    List.replicate (size (reached s is (k + 1)) - size (reached s is k)) k

theorem growth_concat (size : Collector → Nat) (s : Settings) (is : List Item) (it : Item) :
    growth size s (is ++ [it]) = growth size s is ++ List.replicate
      (size (items s (is ++ [it]) empty).collector - size (items s is empty).collector)
      is.length := by
  have hold : (List.range is.length).flatMap (fun k => List.replicate
      (size (reached s (is ++ [it]) (k + 1)) - size (reached s (is ++ [it]) k)) k) =
      growth size s is := by
    refine List.flatMap_congr fun k hk => ?_
    have hlt : k < is.length := List.mem_range.mp hk
    rw [reached_concat hlt, reached_concat (Nat.le_of_lt hlt)]
  have hlast := reached_length s (is ++ [it])
  rw [List.length_append, List.length_singleton] at hlast
  rw [growth, List.length_append, List.length_singleton, List.range_succ, List.flatMap_append, hold,
    List.flatMap_singleton, hlast, reached_concat (Nat.le_refl _), reached_length]

theorem lt_of_mem_growth {size : Collector → Nat} {k : Nat} (h : k ∈ growth size s is) :
    k < is.length := by
  obtain ⟨j, hj, hk⟩ := List.mem_flatMap.mp h
  rw [List.eq_of_mem_replicate hk]
  exact List.mem_range.mp hj

/-- For each entry, the number of the item that has made it. -/
def origins (s : Settings) (is : List Item) : List Nat := growth next s is

/-- The entries of a run with their origins. -/
def sourced (s : Settings) (is : List Item) : List (Entry × Nat) :=
  (items s is empty).collector.entries.zip (origins s is)

theorem mem_zip_replicate {α β : Type} {x : α} {b b' : β} (xs : List α) :
    (x, b') ∈ xs.zip (List.replicate xs.length b) ↔ b' = b ∧ x ∈ xs := by
  induction xs with
  | nil => simp
  | cons y ys ih =>
    simp only [List.length_cons, List.replicate_succ, List.zip_cons_cons, List.mem_cons,
      Prod.mk.injEq, ih]
    tauto

/-- The last item is the origin of as many entries as it makes. -/
theorem origins_concat
    (h : pass s (items s is empty).collector it = .ok (items s (is ++ [it]) empty).collector) :
    origins s (is ++ [it]) = origins s is ++ List.replicate
      (made s (items s is empty).collector.awaiting.isSome it).length is.length := by
  have hnew : (items s (is ++ [it]) empty).collector.next - (items s is empty).collector.next =
      (made s (items s is empty).collector.awaiting.isSome it).length := by
    rw [← length_labels, ← length_labels, labels_pass h, List.length_append]
    omega
  rw [origins, growth_concat, hnew]
  rfl

/-- What a run makes at a place, with one item more. -/
theorem made_at_concat {l : EntryKind × String} {k : Nat} :
    (∃ it', (is ++ [it])[k]? = some it' ∧
        l ∈ made s (reached s (is ++ [it]) k).awaiting.isSome it') ↔
      (∃ it', is[k]? = some it' ∧ l ∈ made s (reached s is k).awaiting.isSome it') ∨
        (k = is.length ∧ l ∈ made s (items s is empty).collector.awaiting.isSome it) := by
  by_cases hk : k < is.length
  · have hne : k ≠ is.length := Nat.ne_of_lt hk
    rw [List.getElem?_append_left hk, reached_concat (Nat.le_of_lt hk)]
    simp [hne]
  by_cases hlast : k = is.length
  · subst hlast
    rw [List.getElem?_concat_length, reached_concat (Nat.le_refl _), reached_length]
    simp
  · have hlong : (is ++ [it]).length ≤ k := by
      rw [List.length_append, List.length_singleton]
      omega
    rw [List.getElem?_eq_none hlong, List.getElem?_eq_none (Nat.le_of_not_lt hk)]
    simp [hlast]

/-- Every entry has an origin, and an item is the origin of just what it makes. -/
theorem labels_origins (h : (items s is empty).error = none) :
    (origins s is).length = (items s is empty).collector.next ∧
      ∀ l k, (l, k) ∈ (items s is empty).collector.labels.zip (origins s is) ↔
        ∃ it, is[k]? = some it ∧ l ∈ made s (reached s is k).awaiting.isSome it := by
  induction is using List.reverseRecOn with
  | nil => exact ⟨rfl, by simp [origins, growth]⟩
  | append_singleton is it ih =>
    obtain ⟨herror, hpass⟩ := items_concat_error_none h
    obtain ⟨hlen, hmem⟩ := ih herror
    have hlabels := labels_pass hpass
    have horigins := origins_concat hpass
    constructor
    · rw [horigins, List.length_append, List.length_replicate, hlen, ← length_labels,
        ← length_labels, hlabels, List.length_append]
    · intro l k
      have hzip : (items s is empty).collector.labels.length = (origins s is).length := by
        rw [length_labels, hlen]
      rw [horigins, hlabels, List.zip_append hzip, List.mem_append, hmem, mem_zip_replicate,
        made_at_concat]

end Collector

end CMakeDocs
