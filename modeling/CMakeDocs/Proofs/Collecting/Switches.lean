import CMakeDocs.Proofs.Collecting.Origins

/-!
# Leaving out commands that others belong to

A unit test, a method or a class takes part in what comes after it: a definition that is awaited
belongs to what awaits it and gets no entry of its own. With such commands left out, their
definitions are definitions like others, and get their entries if those are included. Apart from
these, leaving out a kind of command adds no entry.
-/
namespace CMakeDocs

/-- The settings with a kind of command included without a comment, or left out. -/
def Settings.including (s : Settings) (kind : CommandKind) (isIncluded : Bool) : Settings :=
  { s with includes := fun k => if k = kind then isIncluded else s.includes k }

namespace Collector

variable {s : Settings} {kind : CommandKind} {is : List Item} {it : Item}

theorem record_including (isIncluded : Bool) (doc : String) (command : Command) (c : Collector) :
    record (s.including kind isIncluded) doc command c = record s doc command c := rfl

theorem recordedLabels_including (isIncluded : Bool) (doc : String) (command : Command) :
    recordedLabels (s.including kind isIncluded) doc command = recordedLabels s doc command := rfl

/-- A command that is recorded although its kind is left out would also be recorded otherwise,
unless it is a definition that something awaits then. -/
theorem isRecorded_including {isAwaited isAwaited' : Bool} {k : CommandKind}
    (h : isRecorded (s.including kind false) isAwaited k = true)
    (h' : isRecorded (s.including kind true) isAwaited' k = false) :
    (∃ isMacro, k = .definition isMacro) ∧ isAwaited = false ∧ isAwaited' = true := by
  have hne : k ≠ kind := by
    rintro rfl
    cases k <;> simp [isRecorded, Settings.including] at h
  cases k with
  | definition isMacro =>
    simp only [isRecorded, Settings.including, if_neg hne, Bool.and_eq_true, Bool.not_eq_true'] at h
    simp only [isRecorded, Settings.including, if_neg hne, h.2, Bool.and_true, Bool.not_eq_false']
      at h'
    exact ⟨⟨isMacro, rfl⟩, h.1, h'⟩
  | option | test | unitTest _ | classStart | member _ | classAttribute =>
    simp only [isRecorded, Settings.including, if_neg hne] at h h'
    rw [h] at h'
    cases h'
  | endDefinition | parseArguments | setVariable | classEnd | generic | other =>
    cases h

/-- What an item makes although a kind is left out, and not otherwise. -/
theorem made_including {isAwaited isAwaited' : Bool} {l : EntryKind × String}
    (h : l ∈ made (s.including kind false) isAwaited it)
    (h' : l ∉ made (s.including kind true) isAwaited' it) :
    ∃ command isMacro, it = .plain command ∧ command.kind = .definition isMacro ∧
      isAwaited = false ∧ isAwaited' = true := by
  cases it with
  | moduleComment text => exact absurd h h'
  | documented comment command => exact absurd h h'
  | strayComment => cases h
  | plain command =>
    simp only [made, recordedLabels_including] at h h'
    split_ifs at h with hrec
    · split_ifs at h' with hrec'
      · exact absurd h h'
      · obtain ⟨⟨isMacro, hk⟩, hfree, hawaited⟩ :=
          isRecorded_including hrec (eq_false_of_ne_true hrec')
        exact ⟨command, isMacro, rfl, hk, hfree, hawaited⟩
    · cases h

/-- The label of an undocumented definition's entry. -/
theorem kind_of_mem_recordedLabels {doc : String} {command : Command} {isMacro : Bool}
    {l : EntryKind × String} (hk : command.kind = .definition isMacro)
    (h : l ∈ recordedLabels s doc command) : l.1 = .definition isMacro := by
  have hkind := entryKind_of_mem_recordedLabels h
  rw [hk] at hkind
  exact (Option.some.inj hkind).symm

theorem exists_sourced {l : EntryKind × String} {k : Nat}
    (h : (l, k) ∈ (items s is empty).collector.labels.zip (origins s is)) :
    ∃ e, (e, k) ∈ sourced s is ∧ e.label = l := by
  rw [labels, List.zip_map_left] at h
  obtain ⟨⟨e, j⟩, hmem, heq⟩ := List.mem_map.mp h
  cases heq
  exact ⟨e, hmem, rfl⟩

theorem label_mem_of_sourced {e : Entry} {k : Nat} (h : (e, k) ∈ sourced s is) :
    (e.label, k) ∈ (items s is empty).collector.labels.zip (origins s is) := by
  rw [labels, List.zip_map_left]
  exact List.mem_map.mpr ⟨(e, k), h, rfl⟩

/-- No entry is there only because a kind of command is left out. -/
def NoneAdded (s : Settings) (kind : CommandKind) (is : List Item) : Prop :=
  ∀ x ∈ sourced (s.including kind false) is,
    ∃ y ∈ sourced (s.including kind true) is, y.2 = x.2 ∧ y.1.label = x.1.label

instance (s : Settings) (kind : CommandKind) (is : List Item) :
    Decidable (NoneAdded s kind is) :=
  inferInstanceAs (Decidable (∀ x ∈ sourced (s.including kind false) is,
    ∃ y ∈ sourced (s.including kind true) is, y.2 = x.2 ∧ y.1.label = x.1.label))

/-- With a kind of command left out, every entry comes from an item that makes an entry of the same
kind and name otherwise too, but for functions and macros without a comment that something awaits
otherwise. -/
theorem leftOut_adds_only_awaited (s : Settings) (kind : CommandKind) (is : List Item)
    (hout : (items (s.including kind false) is empty).error = none)
    (hin : (items (s.including kind true) is empty).error = none) :
    (sourced (s.including kind false) is).map Prod.fst =
        (items (s.including kind false) is empty).collector.entries ∧
      ∀ x ∈ sourced (s.including kind false) is,
        (∃ y ∈ sourced (s.including kind true) is, y.2 = x.2 ∧ y.1.label = x.1.label) ∨
        ∃ command isMacro, is[x.2]? = some (.plain command) ∧
          command.kind = .definition isMacro ∧ x.1.kind = .definition isMacro ∧
          (reached (s.including kind false) is x.2).awaiting = none ∧
          (reached (s.including kind true) is x.2).awaiting ≠ none := by
  obtain ⟨hlen, hmem⟩ := labels_origins hout
  obtain ⟨-, hmem'⟩ := labels_origins hin
  constructor
  · rw [sourced, List.map_fst_zip]
    exact Nat.le_of_eq hlen.symm
  rintro ⟨e, k⟩ hx
  obtain ⟨it, hk, hl⟩ := (hmem e.label k).mp (label_mem_of_sourced hx)
  by_cases hl' : e.label ∈
      made (s.including kind true) (reached (s.including kind true) is k).awaiting.isSome it
  · obtain ⟨e', hy, hlabel⟩ := exists_sourced ((hmem' e.label k).mpr ⟨it, hk, hl'⟩)
    exact .inl ⟨(e', k), hy, rfl, hlabel⟩
  · obtain ⟨command, isMacro, rfl, hkind, hfree, hawaited⟩ := made_including hl hl'
    refine .inr ⟨command, isMacro, hk, hkind, ?_, ?_, ?_⟩
    · simp only [made] at hl
      split_ifs at hl
      · exact kind_of_mem_recordedLabels hkind hl
      · cases hl
    · simpa using hfree
    · intro hnone
      rw [hnone] at hawaited
      cases hawaited

/-- The kinds of commands that others belong to. -/
def linkedKinds : List CommandKind :=
  [.unitTest false, .unitTest true, .member false, .member true, .classStart]

/-- A unit test, a section, a method and a constructor with their definitions. -/
def linkedCommands : List Item :=
  [.plain (plainCommand "ct_add_test" ["NAME", "t"]), .plain (plainCommand "function" ["t"]),
    .plain (plainCommand "ct_add_section" ["NAME", "u"]), .plain (plainCommand "macro" ["u"]),
    .plain (plainCommand "endmacro" []), .plain (plainCommand "endfunction" []),
    .plain (plainCommand "cpp_class" ["A"]),
    .plain (plainCommand "cpp_member" ["f", "A"]), .plain (plainCommand "function" ["f", "self"]),
    .plain (plainCommand "endfunction" []),
    .plain (plainCommand "cpp_constructor" ["CTOR", "A"]),
    .plain (plainCommand "function" ["CTOR", "self"]), .plain (plainCommand "endfunction" []),
    .plain (plainCommand "cpp_end_class" [])]

theorem linkedCommands_adds_only_awaited :
    (items ((default : Settings).including .classStart false) linkedCommands empty).error = none ∧
      (items ((default : Settings).including .classStart true) linkedCommands empty).error = none ∧
      ∀ x ∈ sourced ((default : Settings).including .classStart false) linkedCommands,
        (∃ y ∈ sourced ((default : Settings).including .classStart true) linkedCommands,
          y.2 = x.2 ∧ y.1.label = x.1.label) ∨
        ∃ command isMacro, linkedCommands[x.2]? = some (.plain command) ∧
          command.kind = .definition isMacro ∧ x.1.kind = .definition isMacro ∧
          (reached ((default : Settings).including .classStart false) linkedCommands x.2).awaiting =
            none ∧
          (reached ((default : Settings).including .classStart true) linkedCommands x.2).awaiting ≠
            none :=
  ⟨rfl, rfl, (leftOut_adds_only_awaited default .classStart linkedCommands rfl rfl).2⟩

/-- Whatever of them is left out, a definition gets an entry for it. -/
theorem linkedCommands_adds :
    (linkedKinds.all fun kind =>
      (items ((default : Settings).including kind false) linkedCommands empty).error.isNone &&
      (items ((default : Settings).including kind true) linkedCommands empty).error.isNone &&
      !decide (NoneAdded default kind linkedCommands)) = true := by
  decide

end Collector

end CMakeDocs
