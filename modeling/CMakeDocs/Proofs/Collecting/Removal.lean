import CMakeDocs.Proofs.Collecting.MarkedChanges
import CMakeDocs.Proofs.Collecting.Switches

/-!
# Leaving out commands that stand alone

A function, a macro, an option, a test or an attribute without a comment is documented by an entry
or an attribute of its own, and nothing else comes of it. So leaving out such a kind of command
removes just what comes from these commands: the run goes the same way, and what is open and what
awaits a definition is the same.
-/
namespace CMakeDocs

/-- A command of a kind, without a comment. -/
def Item.isPlain (kind : CommandKind) : Item → Bool
  | plain command => command.kind = kind
  | _ => false

namespace Collector

variable {s : Settings} {kind : CommandKind} {m : Marks} {c c' : Collector} {is : List Item}
  {it : Item} {command : Command} {logs : List LogRecord}

theorem including_of_ne {k : CommandKind} (h : k ≠ kind) (isIncluded : Bool) :
    (s.including kind isIncluded).includes k = s.includes k := by
  simp [Settings.including, h]

theorem including_self (isIncluded : Bool) :
    (s.including kind isIncluded).includes kind = isIncluded := by
  simp [Settings.including]

/-- What is not included with a kind is not included without it. -/
theorem includes_leftOut {k : CommandKind} (h : (s.including kind true).includes k = false) :
    (s.including kind false).includes k = false := by
  by_cases heq : k = kind
  · rw [heq, including_self]
  · rwa [including_of_ne heq] at h ⊢

theorem isRecorded_of_ne {k : CommandKind} (h : k ≠ kind) (isIncluded isAwaited : Bool) :
    isRecorded (s.including kind isIncluded) isAwaited k = isRecorded s isAwaited k := by
  unfold isRecorded
  rw [including_of_ne h]

theorem ne_classStart_of_unlinked (hk : kind ∈ unlinkedKinds) : .classStart ≠ kind := by
  rintro rfl
  simp [unlinkedKinds] at hk

/-- What the definition does that something awaits. -/
theorem exists_mild_link (isMacro : Bool) (params : List String) (a : Awaiting) :
    ∃ f, Entry.Mild f ∧ (∀ c : Collector, c.link isMacro params a = c.modify a.entry f) ∧
      ∀ (c : Collector) (g : Nat → Nat),
        c.link isMacro params (a.renumber g) = c.modify (g a.entry) f := by
  cases a with
  | unitTest i => exact ⟨_, Entry.mild_mapUnitTest (by simp), fun c => rfl, fun c g => rfl⟩
  | method i isConstructor j =>
    refine ⟨_, Entry.mild_mapClass ?_ ?_, fun c => rfl, fun c g => rfl⟩
    · intro k
      cases isConstructor <;> rfl
    · intro k attributes
      cases isConstructor <;> rfl

/-- A collector that comes of another one with nothing added, and whose rest comes of the rest of
the other one. -/
structure Mirrored (m : Marks) (c c' : Collector) (logs : List LogRecord) (rest : Outcome) :
    Prop where
  shape : SameShape c.entries c'.entries
  fits : Fits m c'
  rest_eq : rest = .ok (c'.without m, logs)

theorem Mirrored.same (h : Fits m c) : Mirrored m c c logs (.ok (c.without m, logs)) :=
  ⟨.refl _, h, rfl⟩

/-- The parameters that a definition is linked with go by the command and the sort of what awaits
it. -/
theorem exists_linked_params {isMacro : Bool} {a : Awaiting}
    (hl : linkAwaiting (s.including kind true) isMacro command a c = .ok (c', logs)) :
    ∃ params, c' = { c.link isMacro params a with
        awaiting := none, definitions := none :: c.definitions } ∧ logs = [] ∧
      ∀ d g, linkAwaiting (s.including kind false) isMacro command (a.renumber g) d =
        .ok ({ d.link isMacro params (a.renumber g) with
          awaiting := none, definitions := none :: d.definitions }, []) := by
  cases a with
  | unitTest i =>
    cases hl
    exact ⟨command.singles.drop 2, rfl, rfl, fun d g => rfl⟩
  | method i isConstructor j =>
    have hnamed : (s.including kind false).characterNamed =
      (s.including kind true).characterNamed := rfl
    have hstrip : (s.including kind false).memberStrip =
      (s.including kind true).memberStrip := rfl
    simp only [linkAwaiting, bind, Except.bind] at hl
    split at hl
    · cases hl
    · next params hp =>
      cases hl
      refine ⟨params.drop 2, rfl, rfl, fun d g => ?_⟩
      simp only [linkAwaiting, Awaiting.renumber, hnamed, hstrip, hp, bind, Except.bind]

theorem linkAwaiting_without {isMacro : Bool} {a : Awaiting} (h : Fits m c)
    (ha : c.awaiting = some a)
    (hl : linkAwaiting (s.including kind true) isMacro command a c = .ok (c', logs)) :
    Mirrored m c c' logs (linkAwaiting (s.including kind false) isMacro command
      (a.renumber (rank m.entries)) (c.without m)) := by
  have hkept := h.awaiting a ha
  obtain ⟨params, rfl, rfl, hrest⟩ := exists_linked_params hl
  obtain ⟨f, hf, hlink, hlink'⟩ := exists_mild_link isMacro params a
  rw [hrest, hlink, hlink']
  refine ⟨.modify hf _ _, ?_, ?_⟩
  · exact ((h.modify hf a.entry).settle).openDefinition (by simp)
  · rw [← without_modify hf hkept]
    rfl

theorem follow_definition_without {hasComment isMacro : Bool}
    (hkind : command.kind = .definition isMacro) (h : Fits m c)
    (hr : hasComment = true ∨
      isRecorded (s.including kind true) c.awaiting.isSome command.kind = false)
    (hf : follow (s.including kind true) hasComment command c = .ok (c', logs)) :
    Mirrored m c c' logs
      (follow (s.including kind false) hasComment command (c.without m)) := by
  cases hw : c.awaiting with
  | some a =>
    have hrest : (c.without m).awaiting = some (a.renumber (rank m.entries)) := by
      simp [hw]
    rw [follow_awaited hkind hw] at hf
    rw [follow_awaited hkind hrest]
    exact linkAwaiting_without h hw hf
  | none =>
    have hrest : (c.without m).awaiting = none := by simp [hw]
    rw [follow_unawaited hkind hw] at hf
    rw [follow_unawaited hkind hrest]
    cases hasComment with
    | true =>
      cases hf
      exact .same h
    | false =>
      have hin : (s.including kind true).includes (.definition isMacro) = false := by
        simpa [isRecorded, hw, hkind] using hr
      simp only [hin, includes_leftOut hin, Bool.false_eq_true, if_false] at hf ⊢
      cases hf
      exact ⟨.refl _, h.openDefinition (by simp), rfl⟩

theorem follow_classStart_without {hasComment : Bool} (hk : kind ∈ unlinkedKinds)
    (hkind : command.kind = .classStart) (h : Fits m c)
    (hr : hasComment = true ∨
      isRecorded (s.including kind true) c.awaiting.isSome command.kind = false)
    (hf : follow (s.including kind true) hasComment command c = .ok (c', logs)) :
    Mirrored m c c' logs
      (follow (s.including kind false) hasComment command (c.without m)) := by
  have hclass (isIncluded : Bool) : (s.including kind isIncluded).includes .classStart =
      s.includes .classStart := including_of_ne (ne_classStart_of_unlinked hk) isIncluded
  rw [hkind] at hr
  rw [follow_classStart hkind, hclass] at hf ⊢
  cases hi : s.includes .classStart with
  | false =>
    simp only [hi, Bool.not_false, if_true] at hf ⊢
    cases hf
    exact ⟨.refl _, h.openClass (by simp), rfl⟩
  | true =>
    have hcomment : hasComment = true := by
      simpa [isRecorded, hclass, hi] using hr
    simp only [hi, hcomment, Bool.not_true, Bool.false_eq_true, if_true, if_false] at hf ⊢
    cases hf
    exact .same h

theorem follow_classEnd_without {hasComment : Bool} (hkind : command.kind = .classEnd)
    (h : Fits m c) (hf : follow (s.including kind true) hasComment command c = .ok (c', logs)) :
    Mirrored m c c' logs
      (follow (s.including kind false) hasComment command (c.without m)) := by
  cases hc : c.classes with
  | nil =>
    rw [follow_classEnd_nil hkind hc] at hf
    cases hf
  | cons x rest =>
    rw [follow_classEnd_cons hkind hc] at hf
    cases hf
    have hrest : (c.without m).classes = x.bind m.place? :: rest.map (·.bind m.place?) := by
      simp [hc]
    rw [follow_classEnd_cons hkind hrest]
    exact ⟨.refl _, h.closeClass hc, rfl⟩

theorem follow_endDefinition_without {hasComment : Bool} (hkind : command.kind = .endDefinition)
    (h : Fits m c) (hf : follow (s.including kind true) hasComment command c = .ok (c', logs)) :
    Mirrored m c c' logs
      (follow (s.including kind false) hasComment command (c.without m)) := by
  cases hd : c.definitions with
  | nil =>
    rw [follow_endDefinition_nil hkind hd] at hf
    cases hf
  | cons x rest =>
    rw [follow_endDefinition_cons hkind hd] at hf
    cases hf
    have hrest : (c.without m).definitions = x.bind m.place? :: rest.map (·.bind m.place?) := by
      simp [hd]
    rw [follow_endDefinition_cons hkind hrest]
    exact ⟨.refl _, h.closeDefinition hd, rfl⟩

theorem follow_settled_without {hasComment : Bool} (hsettled : command.kind.isSettled = true)
    (h : Fits m c)
    (hr : hasComment = true ∨
      isRecorded (s.including kind true) c.awaiting.isSome command.kind = false)
    (hf : follow (s.including kind true) hasComment command c = .ok (c', logs)) :
    Mirrored m c c' logs
      (follow (s.including kind false) hasComment command (c.without m)) := by
  rw [isRecorded_of_settled hsettled] at hr
  rw [follow_settled hsettled, recordIfIncluded] at hf ⊢
  cases hasComment with
  | true =>
    cases hf
    exact .same h
  | false =>
    have hin := hr.resolve_left Bool.false_ne_true
    simp only [hin, includes_leftOut hin, Bool.false_eq_true, if_false] at hf ⊢
    cases hf
    exact .same h

/-- A command that is not recorded does the same without what is marked. -/
theorem follow_without {hasComment : Bool} (hk : kind ∈ unlinkedKinds) (h : Fits m c)
    (hr : hasComment = true ∨
      isRecorded (s.including kind true) c.awaiting.isSome command.kind = false)
    (hf : follow (s.including kind true) hasComment command c = .ok (c', logs)) :
    Mirrored m c c' logs
      (follow (s.including kind false) hasComment command (c.without m)) := by
  cases hkind : command.kind with
  | classStart => exact follow_classStart_without hk hkind h hr hf
  | classEnd => exact follow_classEnd_without hkind h hf
  | definition isMacro => exact follow_definition_without hkind h hr hf
  | endDefinition => exact follow_endDefinition_without hkind h hf
  | parseArguments =>
    rw [follow_parseArguments hkind] at hf ⊢
    cases hf
    obtain ⟨hshape, hkeywords, hfits⟩ := without_markKeywords h
    exact ⟨hshape, hfits, by rw [hkeywords]⟩
  | generic =>
    rw [follow_generic hkind] at hf ⊢
    cases hasComment with
    | true =>
      cases hf
      exact .same h
    | false => cases hf
  | setVariable | other =>
    have hinert : command.kind ∈ [.setVariable, .other] := by simp [hkind]
    rw [follow_inert hinert] at hf ⊢
    cases hf
    exact .same h
  | option | test | unitTest _ | member _ | classAttribute =>
    exact follow_settled_without (by rw [hkind]; rfl) h hr hf

/-- A command of the kind that is left out, where it would be recorded otherwise. -/
theorem follow_leftOut (hk : command.kind ∈ unlinkedKinds)
    (hr : isRecorded (s.including command.kind true) c.awaiting.isSome command.kind = true) :
    follow (s.including command.kind false) false command c =
      .ok (passOver command.kind c, []) := by
  have hout : (s.including command.kind false).includes command.kind = false := including_self false
  cases hkind : command.kind with
  | definition isMacro =>
    rw [hkind] at hr hout
    have hnone : c.awaiting = none := by
      simp only [isRecorded, Bool.and_eq_true, Bool.not_eq_true'] at hr
      simpa using hr.1
    rw [follow_unawaited hkind hnone]
    simp only [hout, Bool.false_eq_true, if_false]
    rfl
  | option | test | classAttribute =>
    rw [hkind] at hout
    rw [follow_settled (by rw [hkind]; rfl), recordIfIncluded, hkind]
    simp only [hout, Bool.false_eq_true, if_false]
    rfl
  | _ => simp [hkind, unlinkedKinds] at hk

/-- A collector without what its marks say, which come from commands of a kind, as an outcome. -/
structure LeftOut (kind : CommandKind) (m : Marks) (c : Collector)
    (rest : Except CollectError Collector) : Prop where
  fits : Fits m c
  own : Own kind m
  rest_eq : rest = .ok (c.without m)

theorem Own.grow_unmarked (ho : Own kind m) (es es' : List Entry) :
    Own kind (m.grow false es es') :=
  Own.grow ho (fun hmark => nomatch hmark) fun hmark => nomatch hmark

theorem pass_documented_without {comment : String} (hk : kind ∈ unlinkedKinds) (h : Fits m c)
    (ho : Own kind m)
    (hp : pass (s.including kind true) c (.documented comment command) = .ok c') :
    LeftOut kind (m.grow false c.entries c'.entries) c'
      (pass (s.including kind false) (c.without m) (.documented comment command)) := by
  obtain ⟨c₁, logs₁, logs₂, hr, hf⟩ := pass_documented.mp hp
  rw [record_including] at hr
  obtain ⟨change, hrecords, rfl⟩ := records_of_ok hr
  obtain ⟨happly, hfits⟩ := without_apply hrecords.suits h
  obtain ⟨hshape, hfits', hf'⟩ := follow_without hk hfits (.inl rfl) hf
  obtain ⟨logs, hr'⟩ := hrecords.record_eq (c.without m)
  have hgrow : m.grow false c.entries c'.entries =
      m.grow false c.entries (change.apply c).entries := Marks.grow_congr hshape
  refine ⟨?_, ho.grow_unmarked _ _, ?_⟩
  · exact hgrow ▸ hfits'
  · refine pass_documented.mpr ⟨change.apply (c.without m), logs, logs₂, ?_, ?_⟩
    · rw [record_including]
      exact hr'
    · rw [← happly, hf', ← hgrow]

/-- A command of the kind, which is recorded and marked, or passed over. -/
theorem pass_own_without (hk : command.kind ∈ unlinkedKinds) (h : Fits m c)
    (ho : Own command.kind m)
    (hrec : isRecorded (s.including command.kind true) c.awaiting.isSome command.kind = true)
    (hr : record s "" command c = .ok (c', logs)) :
    LeftOut command.kind (m.grow true c.entries c'.entries) c'
      (pass (s.including command.kind false) (c.without m) (.plain command)) := by
  obtain ⟨change, hrecords, rfl⟩ := records_of_ok hr
  obtain ⟨hrest, hfits, hmarks⟩ := without_own hk hrecords.suits h ho
  have hleft : isRecorded (s.including command.kind true) (c.without m).awaiting.isSome
      command.kind = true := by
    rwa [isSome_awaiting_without]
  refine ⟨hfits, hmarks, pass_plain.mpr ⟨[], ?_⟩⟩
  rw [hrest]
  exact follow_leftOut hk hleft

/-- A command of another kind, which is recorded in either case. -/
theorem pass_other_without (hother : command.kind ≠ kind) (h : Fits m c) (ho : Own kind m)
    (hrec : isRecorded (s.including kind true) c.awaiting.isSome command.kind = true)
    (hr : record s "" command c = .ok (c', logs)) :
    LeftOut kind (m.grow false c.entries c'.entries) c'
      (pass (s.including kind false) (c.without m) (.plain command)) := by
  obtain ⟨change, hrecords, rfl⟩ := records_of_ok hr
  obtain ⟨happly, hfits⟩ := without_apply hrecords.suits h
  obtain ⟨logs', hr'⟩ := hrecords.record_eq (c.without m)
  have hrec' : isRecorded (s.including kind false) (c.without m).awaiting.isSome
      command.kind = true := by
    rwa [isSome_awaiting_without, isRecorded_of_ne hother, ← isRecorded_of_ne hother true]
  refine ⟨hfits, ho.grow_unmarked _ _, pass_plain.mpr ⟨logs', ?_⟩⟩
  rw [follow_of_isRecorded hrec', record_including, happly]
  exact hr'

/-- An item that goes well goes as well without what is marked, and what it adds is marked if it is
a command of the kind that is left out. -/
theorem pass_without (hk : kind ∈ unlinkedKinds) (h : Fits m c) (ho : Own kind m)
    (hp : pass (s.including kind true) c it = .ok c') :
    LeftOut kind (m.grow (it.isPlain kind) c.entries c'.entries) c'
      (pass (s.including kind false) (c.without m) it) := by
  cases it with
  | moduleComment text =>
    cases hp
    have hcount : (Entry.moduleDoc (Comment.moduleParts text).1
      (some (Comment.moduleParts text).2)).attributeCount = 0 := rfl
    have hgrow := Marks.grow_append hcount m false c.entries
    have happend := without_append h hcount false
    have hfits := h.append hcount false
    rw [← hgrow] at happend hfits
    exact ⟨hfits, ho.grow_unmarked _ _, congrArg Except.ok happend.symm⟩
  | documented comment command => exact pass_documented_without hk h ho hp
  | plain command =>
    obtain ⟨logs, hf⟩ := pass_plain.mp hp
    by_cases hrec : isRecorded (s.including kind true) c.awaiting.isSome command.kind = true
    · rw [follow_of_isRecorded hrec, record_including] at hf
      by_cases hown : command.kind = kind
      · subst hown
        have hplain : (Item.plain command).isPlain command.kind = true := decide_eq_true rfl
        rw [hplain]
        exact pass_own_without hk h ho hrec hf
      · have hplain : (Item.plain command).isPlain kind = false := decide_eq_false hown
        rw [hplain]
        exact pass_other_without hown h ho hrec hf
    · obtain ⟨hshape, hfits, hf'⟩ :=
        follow_without hk h (.inr (eq_false_of_ne_true hrec)) hf
      rw [Marks.grow_of_sameShape hshape]
      exact ⟨hfits, ho, pass_plain.mpr ⟨logs, hf'⟩⟩
  | strayComment =>
    cases hp
    rw [Marks.grow_of_sameShape (.refl _)]
    exact ⟨h, ho, rfl⟩

/-- For each attribute of an entry, the number of the item that has made it. -/
def attributeOrigins (s : Settings) (is : List Item) (i : Nat) : List Nat :=
  growth (fun c => attributeCountAt c.entries i) s is

/-- Whether a number is that of a command of a kind without a comment. -/
def isOwn (kind : CommandKind) (is : List Item) (k : Nat) : Bool := is[k]?.any (Item.isPlain kind)

/-- Marks for what comes from the commands of a kind without a comment. -/
def ownMarks (s : Settings) (kind : CommandKind) (is : List Item) : Marks where
  entries := (origins s is).map (isOwn kind is)
  attributes i := (attributeOrigins s is i).map (isOwn kind is)

theorem map_isOwn_growth_concat (size : Collector → Nat) (s : Settings) (kind : CommandKind)
    (is : List Item) (it : Item) :
    (growth size s (is ++ [it])).map (isOwn kind (is ++ [it])) =
      (growth size s is).map (isOwn kind is) ++ List.replicate
        (size (items s (is ++ [it]) empty).collector - size (items s is empty).collector)
        (it.isPlain kind) := by
  have hold : (growth size s is).map (isOwn kind (is ++ [it])) =
      (growth size s is).map (isOwn kind is) := by
    refine List.map_congr_left fun k hk => ?_
    rw [isOwn, isOwn, List.getElem?_append_left (lt_of_mem_growth hk)]
  have hlast : isOwn kind (is ++ [it]) is.length = it.isPlain kind := by
    rw [isOwn, List.getElem?_concat_length, Option.any_some]
  rw [growth_concat, List.map_append, hold, List.map_replicate, hlast]

theorem ownMarks_concat (s : Settings) (kind : CommandKind) (is : List Item) (it : Item) :
    ownMarks s kind (is ++ [it]) =
      (ownMarks s kind is).grow (it.isPlain kind) (items s is empty).collector.entries
        (items s (is ++ [it]) empty).collector.entries := by
  refine Marks.ext ?_ (funext fun i => ?_)
  · exact map_isOwn_growth_concat next s kind is it
  · exact map_isOwn_growth_concat (fun c => attributeCountAt c.entries i) s kind is it

/-- The run with the kind left out ends with what is left of the other run without what comes from
the commands of the kind. -/
theorem items_without (hk : kind ∈ unlinkedKinds)
    (h : (items (s.including kind true) is empty).error = none) :
    Fits (ownMarks (s.including kind true) kind is)
        (items (s.including kind true) is empty).collector ∧
      Own kind (ownMarks (s.including kind true) kind is) ∧
      (items (s.including kind false) is empty).error = none ∧
      (items (s.including kind false) is empty).collector =
        (items (s.including kind true) is empty).collector.without
          (ownMarks (s.including kind true) kind is) := by
  induction is using List.reverseRecOn with
  | nil =>
    refine ⟨⟨rfl, fun i => rfl, ?_, ?_, ?_, ?_⟩, ⟨?_, ?_⟩, rfl, rfl⟩ <;>
      simp [items, Progress.start, empty, ownMarks, origins, attributeOrigins, growth]
  | append_singleton is it ih =>
    obtain ⟨herror, hpass⟩ := items_concat_error_none h
    obtain ⟨hfits, hown, herror', hrest⟩ := ih herror
    obtain ⟨hfits', hown', hpass'⟩ := pass_without hk hfits hown hpass
    rw [← hrest] at hpass'
    rw [← ownMarks_concat] at hfits' hown' hpass'
    obtain ⟨hgood, hcollector⟩ := items_concat_of_pass herror' hpass'
    exact ⟨hfits', hown', hgood, hcollector⟩

/-- What awaits its definition is not touched by what is marked. -/
theorem awaited_without (h : Fits m c) : (c.without m).awaited? = c.awaited? := by
  unfold awaited?
  cases hw : c.awaiting with
  | none => simp [hw]
  | some a =>
    have hrest : (c.without m).awaiting = some (a.renumber (rank m.entries)) := by
      simp [hw]
    rw [hrest]
    cases a with
    | unitTest i =>
      have hkept : m.entries[i]? = some false := h.awaiting _ hw
      obtain ⟨isSection, name, hlabel⟩ := h.unitTest i hw
      rw [labels, List.getElem?_map, Option.map_eq_some_iff] at hlabel
      obtain ⟨e, he, hl⟩ := hlabel
      have hcount : e.attributeCount = 0 := by
        cases e with
        | classDoc k => cases hl
        | _ => rfl
      simp only [Awaiting.renumber]
      rw [entry_without hkept, he, Option.map_some, Entry.hide_of_attributeCount hcount]
    | method i isConstructor j =>
      have hkept : m.entries[i]? = some false := h.awaiting _ hw
      simp only [Awaiting.renumber]
      rw [entry_without hkept]
      cases c.entries[i]? with
      | none => rfl
      | some e => cases e <;> rfl

/-- Without marked attributes the entries are shown whole. -/
theorem shown_eq_self (h : Fits m c) (hnone : ∀ i, true ∉ m.attributes i) :
    m.shown c.entries = c.entries := by
  refine List.ext_getElem? fun i => ?_
  rw [Marks.shown, List.getElem?_mapIdx]
  cases he : c.entries[i]? with
  | none => rfl
  | some e =>
    have hlen := h.length_attributes i
    rw [attributeCountAt, he, Option.map_some, Option.getD_some] at hlen
    rw [Option.map_some, Entry.hide_eq_self hlen (hnone i)]

/-- The things that do not come from commands of a kind without a comment, by the numbers of the
items that they come from. -/
def fromOthers {α : Type} (kind : CommandKind) (is : List Item) (sources : List Nat)
    (xs : List α) : List α :=
  ((xs.zip sources).filter fun x => !isOwn kind is x.2).map Prod.fst

theorem unmarked_map_isOwn {α : Type} (kind : CommandKind) (is : List Item) (sources : List Nat)
    (xs : List α) :
    unmarked (sources.map (isOwn kind is)) xs = fromOthers kind is sources xs := by
  induction sources generalizing xs with
  | nil => simp [unmarked, fromOthers]
  | cons k sources ih =>
    cases xs with
    | nil => simp [unmarked, fromOthers]
    | cons x xs =>
      have ih' := ih xs
      unfold fromOthers at ih' ⊢
      cases hown : isOwn kind is k <;> simp [unmarked, hown, ih']

/-- Leaving out a kind of command takes away what comes from its commands without a comment, and
nothing else. -/
structure RemovesOwn (s : Settings) (kind : CommandKind) (is : List Item) : Prop where
  error_none : (items (s.including kind false) is empty).error = none
  awaiting_eq : (items (s.including kind false) is empty).collector.awaiting.isSome =
    (items (s.including kind true) is empty).collector.awaiting.isSome
  awaited_eq : (items (s.including kind false) is empty).collector.awaited? =
    (items (s.including kind true) is empty).collector.awaited?
  classes_eq : (items (s.including kind false) is empty).collector.classes.length =
    (items (s.including kind true) is empty).collector.classes.length
  definitions_eq : (items (s.including kind false) is empty).collector.definitions.length =
    (items (s.including kind true) is empty).collector.definitions.length
  /-- Every entry has an origin, and every attribute. -/
  length_origins : (origins (s.including kind true) is).length =
    (items (s.including kind true) is empty).collector.next
  length_attributeOrigins : ∀ i, (attributeOrigins (s.including kind true) is i).length =
    attributeCountAt (items (s.including kind true) is empty).collector.entries i
  entries_eq : kind ≠ .classAttribute →
    (items (s.including kind false) is empty).collector.entries =
      fromOthers kind is (origins (s.including kind true) is)
        (items (s.including kind true) is empty).collector.entries
  attributes_eq : kind = .classAttribute →
    (items (s.including kind false) is empty).collector.entries =
      (items (s.including kind true) is empty).collector.entries.mapIdx fun i =>
        Entry.mapClass fun k => { k with
          attributes := fromOthers kind is (attributeOrigins (s.including kind true) is i)
            k.attributes }

theorem leftOut_removes_own (s : Settings) (kind : CommandKind) (is : List Item)
    (hk : kind ∈ unlinkedKinds) (h : (items (s.including kind true) is empty).error = none) :
    RemovesOwn s kind is := by
  obtain ⟨hfits, hown, herror, hrest⟩ := items_without hk h
  have hentries := congrArg Collector.entries hrest
  constructor
  case error_none => exact herror
  case awaiting_eq => rw [hrest, isSome_awaiting_without]
  case awaited_eq => rw [hrest, awaited_without hfits]
  case classes_eq => simp [hrest]
  case definitions_eq => simp [hrest]
  case length_origins => simpa [ownMarks] using hfits.next_eq
  case length_attributeOrigins =>
    intro i
    simpa [ownMarks] using hfits.length_attributes i
  case entries_eq =>
    intro hne
    rw [hentries, ← unmarked_map_isOwn, without_entries, shown_eq_self hfits (hown.attributes hne)]
    rfl
  case attributes_eq =>
    intro heq
    have hlen := hfits.length_entries
    rw [hentries, without_entries, unmarked_eq_self ?_ (hown.entries heq)]
    · simp only [← unmarked_map_isOwn]
      rfl
    · simpa [Marks.shown] using hlen

/-- A function with keyword arguments, a macro in it, and a class with a method and an attribute
inside a documented function. -/
def nestedDefinitions : List Item :=
  [.plain (plainCommand "function" ["f"]), .plain (plainCommand "macro" ["g"]),
    .plain (plainCommand "endmacro" []), .plain (plainCommand "cmake_parse_arguments" []),
    .plain (plainCommand "endfunction" []),
    .documented "#[[[\n# Doc.\n#]]" (plainCommand "function" ["h"]),
    .plain (plainCommand "cpp_class" ["A"]), .plain (plainCommand "cpp_attr" ["A", "x"]),
    .plain (plainCommand "function" ["k"]), .plain (plainCommand "cmake_parse_arguments" []),
    .plain (plainCommand "cpp_member" ["m", "A"]), .plain (plainCommand "function" ["m", "self"]),
    .plain (plainCommand "endfunction" []), .plain (plainCommand "endfunction" []),
    .plain (plainCommand "cpp_end_class" []), .plain (plainCommand "endfunction" []),
    .plain (plainCommand "ct_add_test" ["NAME", "t"])]

theorem nestedDefinitions_removes_functions :
    .definition false ∈ unlinkedKinds ∧
      (items ((default : Settings).including (.definition false) true) nestedDefinitions
        empty).error = none ∧
      (items ((default : Settings).including (.definition false) true) nestedDefinitions
        empty).collector.entries.map Entry.name = ["f", "g", "h", "A", "k", "t"] ∧
      (items ((default : Settings).including (.definition false) false) nestedDefinitions
        empty).collector.entries.map Entry.name = ["g", "h", "A", "t"] ∧
      RemovesOwn default (.definition false) nestedDefinitions :=
  ⟨by decide, rfl, by decide, by decide,
    leftOut_removes_own default (.definition false) nestedDefinitions (by decide) rfl⟩

end Collector

end CMakeDocs
