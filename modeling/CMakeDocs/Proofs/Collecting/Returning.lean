import CMakeDocs.Proofs.Collecting.Definitions
import CMakeDocs.Proofs.Reading.Accepted
import CMakeDocs.Proofs.Reading.Items
import CMakeDocs.Proofs.Reading.Reported
import CMakeDocs.Proofs.Scanning.Spans

/-!
# Runs that return

A run over a file can stop for few reasons. The end of a class or a definition may be missing its
beginning, a definition may be missing its name, or the settings may be of no use. A variable may be
set to nothing at all, but no argument of a text is that short. What is left is the name that stands
for all commands without a rule of their own: a command that is called so stops the run.
-/
namespace CMakeDocs

open CMakeDocs.Tree

/-- An argument has something in it, and is no quote by itself. -/
def IsArgument (text : String) : Prop := text ≠ "" ∧ text ≠ "\""

theorem Scan.Reads.ne_quote {kind : TokenKind} {piece rest : List Char}
    (h : Reads (.token kind) piece rest) : piece ≠ ['"'] := by
  rintro rfl
  cases h with
  | quoted h =>
    cases rest with
    | nil => cases h
    | cons c cs =>
      have hpos := Extent.quoted_length_pos c cs
      rw [List.nil_append] at h
      rw [h] at hpos
      cases hpos
  | identifier h hrest => exact absurd (Extent.unquoted_of_isIdentifier h) (by decide)
  | unquoted h hrest hword hlonger => exact absurd h (by decide)
  | bracket h hlonger => exact absurd h (by decide)

/-- The texts of all tokens have something in them. -/
theorem Token.isArgument_of_mem {text : String} {t : Token} (h : t ∈ ofText text) :
    IsArgument t.text := by
  obtain ⟨rest, hreads⟩ := exists_reads h
  constructor
  · intro heq
    rw [heq] at hreads
    exact hreads.ne_nil rfl
  · intro heq
    rw [heq] at hreads
    exact hreads.ne_quote rfl

namespace Derivation

/-- An argument that is no group is one token. -/
theorem Arguments.exists_single {ts : List Tree} (h : Arguments ts) {kind : TokenKind}
    {text : String} (ht : .single kind text ∈ ts.filterMap CMakeDocs.Command.argumentOf?) :
    ∃ t ∈ leavesOfList ts, t.kind = kind ∧ t.text = text ∧ kind.isArgument = true := by
  induction h with
  | nil => cases ht
  | @single t rest hk _ ih =>
    have hfirst : CMakeDocs.Command.argumentOf? (.node .argument t.position [.token t]) =
        some (.single t.kind t.text) := by
      simp [CMakeDocs.Command.argumentOf?, Tree.rule?, CMakeDocs.Command.argumentKind, Tree.text,
        textOfList]
    rw [List.filterMap_cons_some hfirst, List.mem_cons, Argument.single.injEq] at ht
    rcases ht with ⟨rfl, rfl⟩ | ht
    · exact ⟨t, by simp, rfl, rfl, hk⟩
    · obtain ⟨u, hu, hfound⟩ := ih ht
      exact ⟨u, by simp [hu], hfound⟩
  | @group opening closing inner rest ho _ hc _ _ ih =>
    rw [List.filterMap_cons_some (f := CMakeDocs.Command.argumentOf?) rfl, List.mem_cons] at ht
    obtain ⟨u, hu, hfound⟩ := ih (ht.resolve_left (by simp))
    exact ⟨u, by simp [hu], hfound⟩

theorem Arguments.exists_token {ts : List Tree} (h : Arguments ts) {text : String}
    (ht : text ∈ (ts.filterMap CMakeDocs.Command.argumentOf?).filterMap Argument.single?) :
    ∃ t ∈ leavesOfList ts, t.text = text := by
  obtain ⟨argument, hmem, hsingle⟩ := List.mem_filterMap.mp ht
  cases argument with
  | group group => cases hsingle
  | single kind single =>
    cases hsingle
    obtain ⟨t, hleaf, -, htext, -⟩ := h.exists_single hmem
    exact ⟨t, hleaf, htext⟩

theorem Command.exists_token {tree : Tree} (h : Command tree) {command : CMakeDocs.Command}
    (hcommand : CMakeDocs.Command.ofTree? tree = some command) {text : String}
    (ht : text ∈ command.singles) : ∃ t ∈ tree.leaves, t.text = text := by
  cases h with
  | @mk name opening closing arguments hn _ ha _ =>
    rw [ofTree?_commandNode hn] at hcommand
    cases hcommand
    obtain ⟨t, hmem, htext⟩ := ha.exists_token ht
    exact ⟨t, by simp [hmem], htext⟩

theorem Item.exists_token {tree : Tree} (h : Item tree) {it : CMakeDocs.Item}
    (hit : CMakeDocs.Item.ofTree? tree = some it) {command : CMakeDocs.Command}
    (hcommand : it.command? = some command) {text : String} (ht : text ∈ command.singles) :
    ∃ t ∈ tree.leaves, t.text = text := by
  cases h with
  | documented _ hc =>
    obtain ⟨_, command', _, -, -, hcommand', -⟩ := hc.exists_moved rfl
    rw [ofTree?_documented hc hcommand'] at hit
    cases hit
    cases hcommand
    obtain ⟨t, hleaf, htext⟩ := hc.exists_token hcommand' ht
    exact ⟨t, by simp [hleaf], htext⟩
  | command hc =>
    obtain ⟨_, command', _, -, -, hcommand', -⟩ := hc.exists_moved rfl
    rw [ofTree?_command hc hcommand'] at hit
    cases hit
    cases hcommand
    exact hc.exists_token hcommand' ht
  | comment _ =>
    cases hit
    cases hcommand

theorem Attached.exists_token {ts : List Tree} (h : Attached ts) {it : CMakeDocs.Item}
    (hit : it ∈ ts.filterMap CMakeDocs.Item.ofTree?) {command : CMakeDocs.Command}
    (hcommand : it.command? = some command) {text : String} (ht : text ∈ command.singles) :
    ∃ t ∈ leavesOfList ts, t.text = text := by
  obtain ⟨tree, htree, hread⟩ := List.mem_filterMap.mp hit
  obtain ⟨t, hleaf, htext⟩ := (h.items tree htree).exists_token hread hcommand ht
  obtain ⟨before, after, rfl⟩ := List.append_of_mem htree
  exact ⟨t, by simp [hleaf], htext⟩

end Derivation

namespace Item

def isClass (it : Item) : Bool := it.kind? = some .classStart

def isClassEnd (it : Item) : Bool := it.kind? = some .classEnd

/-- Why an item stops a run whatever comes before it, if it does. -/
def genericFault? : Item → Option (CollectError × Command)
  | documented _ command =>
    if command.kind = .generic then some (.genericComment, command) else none
  | plain command => if command.kind = .generic then some (.genericSwitch, command) else none
  | _ => none

theorem genericFault?_eq_none_iff {it : Item} :
    it.genericFault? = none ↔ ∀ command ∈ it.command?, command.kind ≠ .generic := by
  cases it <;> simp [genericFault?, command?]

end Item

theorem Command.kind_eq_generic_iff {command : Command} :
    command.kind = .generic ↔ command.name = "generic_command" := by
  constructor
  · intro h
    cases hl : CommandKind.names.lookup command.name with
    | none => simp [kind, CommandKind.ofName, hl] at h
    | some found =>
      have hgeneric : found = .generic := by simpa [kind, CommandKind.ofName, hl] using h
      obtain ⟨before, after, hnames, -⟩ := List.lookup_eq_some_iff.mp hl
      have hmem : (command.name, found) ∈ CommandKind.names := by simp [hnames]
      rw [hgeneric] at hmem
      simpa [CommandKind.names] using hmem
  · intro h
    rw [kind, h]
    decide

/-- Definitions and classes begin before they end, and have names. -/
structure WellFormed (is : List Item) : Prop where
  definitions : Balanced is
  classes : Nested is
  named : ∀ it ∈ is, ∀ command ∈ it.command?,
    (command.kind = .classStart ∨ ∃ isMacro, command.kind = .definition isMacro) →
      command.singles ≠ []

theorem Item.isClass_eq_false {it : Item} (h : it.kind? ≠ some .classStart) :
    it.isClass = false := decide_eq_false h

theorem Item.isClassEnd_eq_false {it : Item} (h : it.kind? ≠ some .classEnd) :
    it.isClassEnd = false := decide_eq_false h

theorem Item.isClassEnd_of_start {it : Item} (h : it.kind? = some .classStart) :
    it.isClassEnd = false := isClassEnd_eq_false (by simp [h])

theorem Item.isClass_of_end {it : Item} (h : it.kind? = some .classEnd) :
    it.isClass = false := isClass_eq_false (by simp [h])

/-- No more classes end than have begun. -/
theorem Nested.ends_le {is : List Item} (h : Nested is) :
    is.countP Item.isClassEnd = is.countP Item.isClass ∧
      ∀ before, before <+: is → before.countP Item.isClassEnd ≤ before.countP Item.isClass := by
  induction h with
  | nil =>
    refine ⟨rfl, fun before hbefore => ?_⟩
    rw [List.prefix_nil.mp hbefore]
    exact Nat.le_refl _
  | @other it rest hs he _ ih =>
    have hcount (is : List Item) : (it :: is).countP Item.isClassEnd = is.countP Item.isClassEnd ∧
        (it :: is).countP Item.isClass = is.countP Item.isClass := by
      simp [Item.isClass_eq_false hs, Item.isClassEnd_eq_false he]
    refine ⟨by rw [(hcount rest).1, (hcount rest).2, ih.1], fun before hbefore => ?_⟩
    rcases List.prefix_cons_iff.mp hbefore with rfl | ⟨before, rfl, hrest⟩
    · exact Nat.le_refl _
    · rw [(hcount before).1, (hcount before).2]
      exact ih.2 before hrest
  | @block start stop inner rest hs he _ _ ihi ihr =>
    have hstart (is : List Item) :
        (start :: is).countP Item.isClassEnd = is.countP Item.isClassEnd ∧
          (start :: is).countP Item.isClass = is.countP Item.isClass + 1 := by
      have hclass : start.isClass = true := decide_eq_true hs
      simp [hclass, Item.isClassEnd_of_start hs]
    have hstop (is : List Item) :
        (stop :: is).countP Item.isClassEnd = is.countP Item.isClassEnd + 1 ∧
          (stop :: is).countP Item.isClass = is.countP Item.isClass := by
      have hend : stop.isClassEnd = true := decide_eq_true he
      simp [hend, Item.isClass_of_end he]
    obtain ⟨hieq, hile⟩ := ihi
    obtain ⟨hreq, hrle⟩ := ihr
    constructor
    · rw [(hstart _).1, (hstart _).2, List.countP_append, List.countP_append, (hstop rest).1,
        (hstop rest).2]
      omega
    intro before hbefore
    rcases List.prefix_cons_iff.mp hbefore with rfl | ⟨before, rfl, hothers⟩
    · exact Nat.le_refl _
    rw [(hstart before).1, (hstart before).2]
    -- The other items either end inside the class or go on behind it.
    rcases List.prefix_or_prefix_of_prefix hothers (List.prefix_append inner (stop :: rest)) with
      hinner | ⟨tail, rfl⟩
    · have := hile before hinner
      omega
    · have htail := (List.prefix_append_right_inj inner).mp hothers
      rw [List.countP_append, List.countP_append]
      rcases List.prefix_cons_iff.mp htail with rfl | ⟨tail, rfl, hrest⟩
      · simp only [List.countP_nil]
        omega
      · rw [(hstop tail).1, (hstop tail).2]
        have := hrle tail hrest
        omega

/-- What is deleted from names can be read, and what is looked for in comments is a text. -/
structure Settings.Readable (s : Settings) : Prop where
  strips : ∀ v ∈ [s.functionStrip, s.macroStrip, s.memberStrip], ∃ source p,
    v = .text source ∧ Pattern.ofString? s.characterNamed source = .ok p
  trigger : ∃ text, s.keywordTrigger = .text text

theorem Settings.default_readable : (default : Settings).Readable := by
  refine ⟨?_, _, rfl⟩
  intro v hv
  have htext : v = .text "" := by simpa [default] using hv
  exact ⟨"", .empty, htext, rfl⟩

namespace Collector

variable {s : Settings} {c c' : Collector} {doc : String} {command : Command} {is : List Item}
  {it : Item}

theorem strip_ok {named : String → Option Nat} {pattern : Value} {source : String} {p : Pattern}
    (hv : pattern = .text source) (hp : Pattern.ofString? named source = .ok p)
    (params : List String) : ∃ stripped, strip named pattern params = .ok stripped := by
  subst hv
  unfold strip
  split
  · exact ⟨[], rfl⟩
  · dsimp only
    rw [hp]
    exact ⟨_, rfl⟩

theorem unquote?_ok {value : String} (h : IsArgument value) :
    ∃ cs, unquote? value.toList = some cs := by
  cases hvalue : value.toList with
  | nil => exact absurd (String.toList_injective hvalue) h.1
  | cons c cs =>
    have hinner : (if c = '"' then cs else c :: cs) ≠ [] := by
      split
      · next hc =>
        rintro rfl
        rw [hc] at hvalue
        exact h.2 (String.toList_injective hvalue)
      · exact List.cons_ne_nil c cs
    obtain ⟨last, hlast⟩ := Option.ne_none_iff_exists'.mp
      (mt List.getLast?_eq_none_iff.mp hinner)
    simp only [unquote?, hlast]
    exact ⟨_, rfl⟩

/-- What a command has to be like so that nothing goes wrong with the command itself. -/
structure Harmless (command : Command) : Prop where
  named : (command.kind = .classStart ∨ ∃ isMacro, command.kind = .definition isMacro) →
    command.singles ≠ []
  arguments : ∀ text ∈ command.singles, IsArgument text
  not_generic : command.kind ≠ .generic

theorem define_ok (hs : s.Readable) {isMacro : Bool} (hk : command.kind = .definition isMacro)
    (hharmless : Harmless command) : ∃ r, define s isMacro doc command c = .ok r := by
  obtain ⟨name, rest, hsingles⟩ :=
    List.exists_cons_of_ne_nil (hharmless.named (.inr ⟨isMacro, hk⟩))
  have hmem : s.definitionStrip isMacro ∈ [s.functionStrip, s.macroStrip, s.memberStrip] := by
    cases isMacro <;> simp [Settings.definitionStrip]
  obtain ⟨source, p, hv, hp⟩ := hs.strips _ hmem
  obtain ⟨params, hparams⟩ := strip_ok hv hp rest
  obtain ⟨trigger, htrigger⟩ := hs.trigger
  simp only [define, hsingles, hparams, htrigger, hasTrigger]
  exact ⟨_, rfl⟩

theorem setVariable_ok (hharmless : Harmless command) : ∃ r, setVariable doc command c = .ok r := by
  unfold setVariable
  split
  · exact ⟨_, rfl⟩
  · exact ⟨_, rfl⟩
  · next name value hsingles =>
    obtain ⟨cs, hcs⟩ := unquote?_ok (hharmless.arguments value (by simp [hsingles]))
    rw [hcs]
    exact ⟨_, rfl⟩
  · exact ⟨_, rfl⟩

theorem record_ok (hs : s.Readable) (hharmless : Harmless command) (doc : String) (c : Collector) :
    ∃ r, record s doc command c = .ok r := by
  cases hk : command.kind with
  | definition isMacro =>
    rw [record_definition hk]
    exact define_ok hs hk hharmless
  | setVariable =>
    rw [record_setVariable hk]
    exact setVariable_ok hharmless
  | generic => exact absurd hk hharmless.not_generic
  | parseArguments => exact ⟨_, record_parseArguments hk⟩
  | option => exact ⟨_, record_option hk⟩
  | test => exact ⟨_, record_test hk⟩
  | unitTest isSection => exact ⟨_, record_unitTest hk⟩
  | classStart => exact ⟨_, record_classStart hk⟩
  | member isConstructor => exact ⟨_, record_member hk⟩
  | classAttribute => exact ⟨_, record_classAttribute hk⟩
  | endDefinition | classEnd | other =>
    exact ⟨_, record_ruleless (by simp [hk, CommandKind.ruleless])⟩

theorem linkAwaiting_ok (hs : s.Readable) (isMacro : Bool) (awaiting : Awaiting) :
    ∃ r, linkAwaiting s isMacro command awaiting c = .ok r := by
  cases awaiting with
  | unitTest i => exact ⟨_, rfl⟩
  | method i isConstructor j =>
    obtain ⟨source, p, hv, hp⟩ := hs.strips s.memberStrip (by simp)
    obtain ⟨params, hparams⟩ := strip_ok hv hp command.singles
    simp only [linkAwaiting, hparams]
    exact ⟨_, rfl⟩

theorem follow_ok (hs : s.Readable) (hharmless : Harmless command) (hasComment : Bool)
    (hclass : command.kind = .classEnd → c.classes ≠ [])
    (hdefinition : command.kind = .endDefinition → c.definitions ≠ []) :
    ∃ r, follow s hasComment command c = .ok r := by
  have hrecord : ∃ r, record s "" command c = .ok r := record_ok hs hharmless "" c
  by_cases hsettled : command.kind.isSettled = true
  · rw [follow_settled hsettled, recordIfIncluded]
    split_ifs
    · exact ⟨_, rfl⟩
    · exact hrecord
    · exact ⟨_, rfl⟩
  cases hk : command.kind with
  | classStart =>
    rw [follow_classStart hk]
    split_ifs
    · exact ⟨_, rfl⟩
    · exact ⟨_, rfl⟩
    · exact hrecord
  | classEnd =>
    obtain ⟨x, rest, hc⟩ := List.exists_cons_of_ne_nil (hclass hk)
    exact ⟨_, follow_classEnd_cons hk hc⟩
  | definition isMacro =>
    cases ha : c.awaiting with
    | some a =>
      rw [follow_awaited hk ha]
      exact linkAwaiting_ok hs isMacro a
    | none =>
      rw [follow_unawaited hk ha]
      split_ifs
      · exact ⟨_, rfl⟩
      · exact hrecord
      · exact ⟨_, rfl⟩
  | endDefinition =>
    obtain ⟨x, rest, hd⟩ := List.exists_cons_of_ne_nil (hdefinition hk)
    exact ⟨_, follow_endDefinition_cons hk hd⟩
  | generic => exact absurd hk hharmless.not_generic
  | parseArguments => exact ⟨_, follow_parseArguments hk⟩
  | setVariable | other => exact ⟨_, follow_inert (by simp [hk])⟩
  | option | test | unitTest _ | member _ | classAttribute =>
    simp [hk, CommandKind.isSettled] at hsettled

/-- An item can be passed if its command is harmless and what it ends is open. -/
theorem exists_pass (hs : s.Readable) (hharmless : ∀ command ∈ it.command?, Harmless command)
    (hclass : it.isClassEnd = true → c.classes ≠ [])
    (hdefinition : it.isDefinitionEnd = true → c.definitions ≠ []) :
    ∃ c', pass s c it = .ok c' := by
  have hends {command : Command} (hc : it.command? = some command) :
      (command.kind = .classEnd → c.classes ≠ []) ∧
        (command.kind = .endDefinition → c.definitions ≠ []) := by
    have hkind : it.kind? = some command.kind := by simp [Item.kind?, hc]
    exact ⟨fun hk => hclass (decide_eq_true (hk ▸ hkind)),
      fun hk => hdefinition (decide_eq_true (hk ▸ hkind))⟩
  cases it with
  | moduleComment text => exact ⟨_, rfl⟩
  | strayComment => exact ⟨_, rfl⟩
  | plain command =>
    obtain ⟨hclass, hdefinition⟩ := hends rfl
    obtain ⟨⟨c', logs⟩, hf⟩ := follow_ok hs (hharmless command rfl) false hclass hdefinition
    exact ⟨c', pass_plain.mpr ⟨logs, hf⟩⟩
  | documented comment command =>
    obtain ⟨hclass, hdefinition⟩ := hends rfl
    have hcommand := hharmless command rfl
    obtain ⟨⟨c₁, logs₁⟩, hr⟩ := record_ok hs hcommand (Comment.clean comment) c
    -- Recording the end of something opens and closes nothing.
    have hclass₁ : command.kind = .classEnd → c₁.classes ≠ [] := by
      intro hk
      rw [(record_keeps s _ (by simp [hk]) c _ _ hr).classes_eq]
      exact hclass hk
    have hdefinition₁ : command.kind = .endDefinition → c₁.definitions ≠ [] := by
      intro hk
      rw [record_definitions hr (by simp [hk])]
      exact hdefinition hk
    obtain ⟨⟨c', logs₂⟩, hf⟩ := follow_ok hs hcommand true hclass₁ hdefinition₁
    exact ⟨c', pass_documented.mpr ⟨c₁, logs₁, logs₂, hr, hf⟩⟩

theorem passes_of_pass (h : pass s c it = .ok c') : Passes s it c c' := by
  cases it with
  | moduleComment text =>
    cases h
    exact .moduleComment
  | strayComment =>
    cases h
    exact .strayComment
  | plain command =>
    obtain ⟨logs, hf⟩ := pass_plain.mp h
    exact .plain hf
  | documented comment command =>
    obtain ⟨c₁, logs₁, logs₂, hr, hf⟩ := pass_documented.mp h
    exact .documented hr hf

/-- A class that begins is open then, and the end of a class closes one at most. -/
theorem pass_classes_length (h : pass s c it = .ok c')
    (hn : it.kind? = some .classStart → ∀ command ∈ it.command?, command.singles ≠ []) :
    c.classes.length + (if it.isClass then 1 else 0) ≤
      c'.classes.length + (if it.isClassEnd then 1 else 0) := by
  have hpasses := passes_of_pass h
  by_cases hs : it.kind? = some .classStart
  · obtain ⟨-, hclasses⟩ := hpasses.opens hs (hn hs)
    have hclass : it.isClass = true := decide_eq_true hs
    have hpushed := pushed_length hs c.next (s := s)
    rw [hclasses, List.length_append, if_pos hclass]
    omega
  by_cases he : it.kind? = some .classEnd
  · obtain ⟨-, x, hx⟩ := hpasses.closes he
    have hend : it.isClassEnd = true := decide_eq_true he
    rw [hx, List.length_cons, if_pos hend, Item.isClass_of_end he]
    exact Nat.le_refl _
  · simp [(hpasses.keeps hs he).classes_eq, Item.isClass_eq_false hs, Item.isClassEnd_eq_false he]

theorem pass_definitions_length_le (h : pass s c it = .ok c') :
    c.definitions.length + (if it.isDefinition then 1 else 0) ≤
      c'.definitions.length + (if it.isDefinitionEnd then 1 else 0) := by
  have hlen := pass_definitions_length h
  have htimes : (if it.isDefinition then 1 else 0) ≤ timesOpened c it := by
    unfold timesOpened
    split
    · split <;> omega
    · omega
  omega

theorem item_error_of_generic {p : Progress} {x : CollectError × Command} (hp : p.error = none)
    (h : it.genericFault? = some x) : (item s p it).error = some x := by
  cases it with
  | moduleComment text => cases h
  | strayComment => cases h
  | plain command =>
    simp only [Item.genericFault?] at h
    split_ifs at h with hk
    cases h
    simp [item, followCommand, Progress.step, hp, follow_generic hk]
  | documented comment command =>
    simp only [Item.genericFault?] at h
    split_ifs at h with hk
    cases h
    simp [item, followCommand, Progress.step, hp, record_generic hk]

/-- As much is open as has begun and not ended. -/
structure Covers (c : Collector) (is : List Item) : Prop where
  classes : is.countP Item.isClass ≤ c.classes.length + is.countP Item.isClassEnd
  definitions : is.countP Item.isDefinition ≤ c.definitions.length + is.countP Item.isDefinitionEnd

theorem Covers.pass (h : Covers c is) (hp : pass s c it = .ok c')
    (hn : it.kind? = some .classStart → ∀ command ∈ it.command?, command.singles ≠ []) :
    Covers c' (is ++ [it]) := by
  have hclasses := pass_classes_length hp hn
  have hdefinitions := pass_definitions_length_le hp
  have hc := h.classes
  have hd := h.definitions
  constructor
  · rw [List.countP_append, List.countP_append, List.countP_singleton, List.countP_singleton]
    omega
  · rw [List.countP_append, List.countP_append, List.countP_singleton, List.countP_singleton]
    omega

/-- Where something ends after items that have begun it, something is open. -/
theorem Covers.ends_open (h : Covers c is)
    (hclasses : (is ++ [it]).countP Item.isClassEnd ≤ (is ++ [it]).countP Item.isClass)
    (hdefinitions :
      (is ++ [it]).countP Item.isDefinitionEnd ≤ (is ++ [it]).countP Item.isDefinition) :
    (it.isClassEnd = true → c.classes ≠ []) ∧
      (it.isDefinitionEnd = true → c.definitions ≠ []) := by
  have hc := h.classes
  have hd := h.definitions
  rw [List.countP_append, List.countP_append, List.countP_singleton, List.countP_singleton]
    at hclasses hdefinitions
  constructor
  · intro hend hnil
    have hstart : it.isClass = false := Item.isClass_of_end (of_decide_eq_true hend)
    rw [hnil, List.length_nil] at hc
    simp only [hend, hstart, if_true, Bool.false_eq_true, if_false] at hclasses
    omega
  · intro hend hnil
    have hstart : it.isDefinition = false := by
      by_contra hdef
      rw [Item.isDefinitionEnd_eq_false_of_isDefinition (eq_true_of_ne_false hdef)] at hend
      cases hend
    rw [hnil, List.length_nil] at hd
    simp only [hend, hstart, if_true, Bool.false_eq_true, if_false] at hdefinitions
    omega

/-- A run over a well-formed file stops at the first command that stops every run, and nowhere
else. -/
theorem items_error (hs : s.Readable)
    (hclasses : ∀ before, before <+: is →
      before.countP Item.isClassEnd ≤ before.countP Item.isClass)
    (hdefinitions : ∀ before, before <+: is →
      before.countP Item.isDefinitionEnd ≤ before.countP Item.isDefinition)
    (hnamed : ∀ it ∈ is, ∀ command ∈ it.command?,
      (command.kind = .classStart ∨ ∃ isMacro, command.kind = .definition isMacro) →
        command.singles ≠ [])
    (harguments : ∀ it ∈ is, ∀ command ∈ it.command?, ∀ text ∈ command.singles,
      IsArgument text) :
    (items s is empty).error = is.findSome? Item.genericFault? ∧
      ((items s is empty).error = none → Covers (items s is empty).collector is) := by
  induction is using List.reverseRecOn with
  | nil => exact ⟨rfl, fun _ => ⟨Nat.zero_le _, Nat.zero_le _⟩⟩
  | append_singleton is it ih =>
    obtain ⟨hnamed', hit⟩ := List.forall_mem_append.mp hnamed
    obtain ⟨harguments', hargs⟩ := List.forall_mem_append.mp harguments
    obtain ⟨herror, hcovers⟩ := ih
      (fun before hbefore => hclasses before (hbefore.trans (List.prefix_append _ _)))
      (fun before hbefore => hdefinitions before (hbefore.trans (List.prefix_append _ _)))
      hnamed' harguments'
    have hname := hit it List.mem_cons_self
    have hargument := hargs it List.mem_cons_self
    rw [List.findSome?_append, ← herror, items_concat]
    cases hbefore : (items s is empty).error with
    | some x =>
      rw [item_of_error hbefore]
      exact ⟨rfl, fun h => by cases h⟩
    | none =>
      cases hgeneric : it.genericFault? with
      | some x =>
        rw [item_error_of_generic hbefore hgeneric]
        exact ⟨by simp [hgeneric], fun h => by cases h⟩
      | none =>
        have hharmless : ∀ command ∈ it.command?, Harmless command := fun command hcommand =>
          ⟨hname command hcommand, hargument command hcommand,
            Item.genericFault?_eq_none_iff.mp hgeneric command hcommand⟩
        obtain ⟨hclass, hdefinition⟩ := (hcovers hbefore).ends_open
          (hclasses _ List.prefix_rfl) (hdefinitions _ List.prefix_rfl)
        obtain ⟨c', hpass⟩ := exists_pass hs hharmless hclass hdefinition
        obtain ⟨hnone, hcollector⟩ := item_of_pass hbefore hpass
        refine ⟨by simp [hnone, hgeneric], fun _ => ?_⟩
        rw [hcollector]
        refine (hcovers hbefore).pass hpass fun hstart command hcommand => ?_
        have hkind : command.kind = .classStart := by
          simpa [Item.kind?, Option.mem_def.mp hcommand] using hstart
        exact hname command hcommand (.inl hkind)

/-- The items of a text without a syntax error come from its tokens. -/
theorem isArgument_of_text {text : String} {tree : Tree}
    (hf : (Reader.file (Reader.start text)).fault = none)
    (hr : (Reader.file (Reader.start text)).reader.reports = Token.reportsOfText text)
    (ht : (Reader.file (Reader.start text)).tree? = some tree) :
    ∀ it ∈ Item.ofFile tree, ∀ command ∈ it.command?, ∀ argument ∈ command.singles,
      IsArgument argument := by
  have hcalm := Reader.start_calm text
  rw [← Reader.start_account] at hr
  obtain ⟨modules, ts, last, hm, hts, hl, hleaves⟩ :=
    Derivation.File.exists_of_kinds (Reader.grammar_of_unreported hcalm hf hr)
  obtain ⟨-, htrees, -⟩ := Reader.file_reads hm hts hl hcalm
    (by rw [← hleaves, List.append_assoc])
  obtain ⟨last', hlast', htokens⟩ := Reader.start_tokens text
  rw [htokens] at hleaves
  have hleaf : ∀ t ∈ leavesOfList ts, t ∈ Token.ofText text := by
    have hboth := List.append_inj_left' hleaves rfl
    intro t hmem
    rw [← hboth]
    exact List.mem_append_right _ hmem
  rw [Step.tree?, htrees, List.head?_cons, Option.some.injEq] at ht
  have hend : Item.ofTree? (.token last) = none := rfl
  rw [← ht, Item.ofFile, Tree.children, List.filterMap_append, List.filterMap_append,
    List.filterMap_cons_none hend, List.filterMap_nil, List.append_nil]
  intro it hit command hcommand argument hargument
  rcases List.mem_append.mp hit with hit | hit
  · cases hm with
    | none => cases hit
    | one hmodule =>
      rw [List.filterMap_cons_some (ofTree?_moduleComment hmodule)] at hit
      rw [List.mem_singleton.mp hit] at hcommand
      cases hcommand
  · obtain ⟨t, hmem, rfl⟩ := hts.exists_token hit hcommand hargument
    exact Token.isArgument_of_mem (hleaf t hmem)

/-- Under settings that can be read, a run over a well-formed text without a syntax error returns
exactly if no command is called by the name that stands for all others. Otherwise it stops at the
first command that is, with a comment or without one. -/
theorem file_returns_iff (s : Settings) (hs : s.Readable) (text : String) (tree : Tree)
    (hf : (Reader.file (Reader.start text)).fault = none)
    (hr : (Reader.file (Reader.start text)).reader.reports = Token.reportsOfText text)
    (ht : (Reader.file (Reader.start text)).tree? = some tree)
    (hw : WellFormed (Item.ofFile tree)) :
    (file s tree empty).error = (Item.ofFile tree).findSome? Item.genericFault? ∧
      ((file s tree empty).error = none ↔
        ∀ it ∈ Item.ofFile tree, ∀ command ∈ it.command?, command.name ≠ "generic_command") := by
  have hdefinitions : ∀ before, before <+: Item.ofFile tree →
      before.countP Item.isDefinitionEnd ≤ before.countP Item.isDefinition :=
    fun before hbefore => hw.definitions.ends_le before ((List.mem_inits _ _).mpr hbefore)
  have herror : (file s tree empty).error = (Item.ofFile tree).findSome? Item.genericFault? :=
    (items_error hs hw.classes.ends_le.2 hdefinitions hw.named (isArgument_of_text hf hr ht)).1
  refine ⟨herror, ?_⟩
  rw [herror, List.findSome?_eq_none_iff]
  simp only [Item.genericFault?_eq_none_iff, ne_eq, Command.kind_eq_generic_iff]

/-- A class in a function, with a comment in front of an unknown command and a variable that is set
to an empty text. -/
def classInFunction : String :=
  "function(f x)\ncpp_class(A)\n#[[[ a #]]\nfoo((b) c)\ncpp_end_class()\nendfunction()\n" ++
    "#[[[ d #]]\nset(v \"\")\n"

def classInFunctionItems : List Item :=
  [.plain ⟨"function", [.single .identifier "f", .single .identifier "x"], "function(fx)", 1⟩,
    .plain ⟨"cpp_class", [.single .identifier "A"], "cpp_class(A)", 2⟩,
    .documented "#[[[ a #]]" ⟨"foo", [.group "(b)", .single .identifier "c"], "foo((b)c)", 4⟩,
    .plain ⟨"cpp_end_class", [], "cpp_end_class()", 5⟩,
    .plain ⟨"endfunction", [], "endfunction()", 6⟩,
    .documented "#[[[ d #]]" ⟨"set", [.single .identifier "v", .single .quoted "\"\""],
      "set(v\"\")", 8⟩]

theorem classInFunction_wellFormed : WellFormed classInFunctionItems where
  definitions := ⟨by decide, by decide⟩
  classes := .other (by decide) (by decide) (.block (by decide) (by decide)
    (.other (by decide) (by decide) .nil)
    (.other (by decide) (by decide) (.other (by decide) (by decide) .nil)))
  named := by decide

theorem classInFunction_returns : ∃ tree,
    (Reader.file (Reader.start classInFunction)).fault = none ∧
      (Reader.file (Reader.start classInFunction)).reader.reports = [] ∧
      (Reader.file (Reader.start classInFunction)).tree? = some tree ∧
      WellFormed (Item.ofFile tree) ∧ (file default tree empty).error = none := by
  obtain ⟨hf, hr, hitems⟩ : (Reader.file (Reader.start classInFunction)).fault = none ∧
      (Reader.file (Reader.start classInFunction)).reader.reports = [] ∧
      (Reader.file (Reader.start classInFunction)).tree?.map Item.ofFile =
        some classInFunctionItems := by decide
  have hquiet : Token.reportsOfText classInFunction = [] := by decide
  obtain ⟨tree, ht, hofFile⟩ := Option.map_eq_some_iff.mp hitems
  have hw : WellFormed (Item.ofFile tree) := hofFile ▸ classInFunction_wellFormed
  refine ⟨tree, hf, hr, ht, hw, ?_⟩
  refine (file_returns_iff default Settings.default_readable classInFunction tree hf
    (hr.trans hquiet.symm) ht hw).2.mpr ?_
  rw [hofFile]
  decide

/-- Nothing is wrong with this text but the name of its command. -/
theorem lone_generic_command_stops : ∃ tree,
    (Reader.file (Reader.start "generic_command()\n")).fault = none ∧
      (Reader.file (Reader.start "generic_command()\n")).reader.reports = [] ∧
      (Reader.file (Reader.start "generic_command()\n")).tree? = some tree ∧
      WellFormed (Item.ofFile tree) ∧ (file default tree empty).error ≠ none := by
  obtain ⟨hf, hr, hitems⟩ : (Reader.file (Reader.start "generic_command()\n")).fault = none ∧
      (Reader.file (Reader.start "generic_command()\n")).reader.reports = [] ∧
      (Reader.file (Reader.start "generic_command()\n")).tree?.map Item.ofFile =
        some [.plain ⟨"generic_command", [], "generic_command()", 1⟩] := by decide
  obtain ⟨tree, ht, hofFile⟩ := Option.map_eq_some_iff.mp hitems
  refine ⟨tree, hf, hr, ht, ?_, ?_⟩
  · rw [hofFile]
    exact ⟨⟨by decide, by decide⟩, .other (by decide) (by decide) .nil, by decide⟩
  · rw [file, hofFile]
    simp [items, Progress.start, item_error_of_generic, Item.genericFault?,
      Command.kind_eq_generic_iff]

end Collector

end CMakeDocs
