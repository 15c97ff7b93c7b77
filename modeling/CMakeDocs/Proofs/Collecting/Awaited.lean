import CMakeDocs.Proofs.Collecting.Frozen

/-!
# What awaits its definition

A unit test or a method that has been declared awaits the next function or macro. Whatever commands
come in between, it stays as it was declared; the definition then adds its parameters to it, and
after that no call ever changes it again.
-/
namespace CMakeDocs

/-- Neither a definition nor something that awaits one. -/
def CommandKind.passesBy : CommandKind → Bool
  | definition _ | member _ | unitTest _ => false
  | _ => true

namespace Entry

def isMethod : Entry → Bool
  | methodDoc _ => true
  | _ => false

/-- The arguments of a definition that become parameters of what awaits it: all but the name and
the first parameter, and for a method without what a pattern matches. -/
def paramsFrom (pattern : Pattern) (arguments : List String) (d : Entry) : List String :=
  if d.isMethod then (arguments.drop 2).map pattern.delete else arguments.drop 2

/-- What its definition makes of a unit test or a method. -/
def defined (isMacro : Bool) (more : List String) : Entry → Entry
  | unitTest isSection t => unitTest isSection (t.defined isMacro more)
  | methodDoc m => methodDoc (m.defined isMacro more)
  | e => e

end Entry

/-- The pattern that a value can be read as, where characters have the given names. -/
def Value.pattern? (named : String → Option Nat) : Value → Option Pattern
  | .text source =>
    match Pattern.ofString? named source with
    | .ok pattern => some pattern
    | .error _ => none
  | _ => none

/-- A part more in a class leaves the methods that are there in their places. -/
theorem Class.Gains.method_eq {kind : CommandKind} {k k' : Class} {isConstructor : Bool} {j : Nat}
    {m : Method} (h : k.Gains kind k') (hm : (k.methods isConstructor)[j]? = some m) :
    (k'.methods isConstructor)[j]? = some m := by
  have hlt : j < (k.methods isConstructor).length := (List.getElem?_eq_some_iff.mp hm).1
  cases h with
  | newInnerClass | newAttribute => exact hm
  | newConstructor =>
    cases isConstructor with
    | true => exact (List.getElem?_append_left hlt).trans hm
    | false => exact hm
  | newMember =>
    cases isConstructor with
    | true => exact hm
    | false => exact (List.getElem?_append_left hlt).trans hm

namespace Collector

variable {s : Settings} {c c' : Collector} {kind : CommandKind} {kind? : Option CommandKind}
  {a : Awaiting} {d : Entry}

theorem heldAt_of_awaited? (hc : Linked c) (h : c.awaited? = some d) :
    ∃ a, c.awaiting = some a ∧ HeldAt c a d := by
  cases ha : c.awaiting with
  | none => simp [awaited?, ha] at h
  | some a =>
    obtain ⟨d', hheld⟩ := hc.awaiting a ha
    rw [hheld.awaited?_eq ha] at h
    cases h
    exact ⟨a, rfl, hheld⟩

/-- The definition of one method leaves the others as they are. -/
theorem modifyMethod_ne {k : Class} {isConstructor isConstructor' : Bool} {j j' : Nat}
    (h : (isConstructor', j') ≠ (isConstructor, j)) (f : Method → Method) :
    ((k.modifyMethod isConstructor' j' f).methods isConstructor)[j]? =
      (k.methods isConstructor)[j]? := by
  unfold Class.modifyMethod Class.methods
  cases isConstructor <;> cases isConstructor' <;> simp at h ⊢
  all_goals
    rw [List.getElem?_modify]
    simp [h]

/-- A call for anything but the definition that is awaited leaves a unit test or a method as it
is. -/
theorem Frozen.heldAt_same (h : Frozen c kind? c')
    (hne : ∀ isMacro, kind? = some (.definition isMacro) → c.awaiting ≠ some a)
    (hd : HeldAt c a d) : HeldAt c' a d := by
  cases hd with
  | unitTest hi =>
    rcases h.entry hi with hsame | ⟨e', hi', hamended⟩
    · exact .unitTest hsame
    · cases hamended with
      | unitTest isMacro _ _ more ha => exact absurd ha (hne isMacro rfl)
  | @method i j isConstructor k m hi hm =>
    rcases h.entry hi with hsame | ⟨e', hi', hamended⟩
    · exact .method hsame hm
    · cases hamended with
      | part _ hk => exact .method hi' (hk.method_eq hm)
      | @method isMacro isConstructor' j' _ more ha =>
        refine .method hi' ((modifyMethod_ne ?_ _).trans hm)
        rintro heq
        cases heq
        exact hne isMacro rfl ha

theorem Move.awaiting_eq (h : Move c (some kind) c') (hk : kind.passesBy = true) :
    c'.awaiting = c.awaiting := by
  cases h with
  | stay | openClass | closeClass | openDefinition | closeDefinition => rfl
  | link => cases hk
  | change hs =>
    refine hs.awaiting_eq ?_ ?_ c
    · rintro isSection rfl
      cases hk
    · rintro isConstructor rfl
      cases hk

/-- Commands without comments that pass by leave what awaits its definition as it is. -/
theorem items_passBy {commands : List Command}
    (hpass : ∀ command ∈ commands, command.kind.passesBy = true)
    (hok : (items s (commands.map .plain) c).error = none) (hd : HeldAt c a d) :
    (items s (commands.map .plain) c).collector.awaiting = c.awaiting ∧
      HeldAt (items s (commands.map .plain) c).collector a d := by
  induction commands using List.reverseRecOn with
  | nil => exact ⟨rfl, hd⟩
  | append_singleton commands command ih =>
    rw [List.map_append] at hok ⊢
    obtain ⟨herror, hstep⟩ := items_concat_error_none hok
    obtain ⟨hawaiting, hheld⟩ :=
      ih (fun other hother => hpass other (List.mem_append_left _ hother)) herror
    obtain ⟨logs, hfollow⟩ := pass_plain.mp hstep
    have hmove := move_of_follow hfollow
    have hkind : command.kind.passesBy = true := hpass command (by simp)
    refine ⟨(hmove.awaiting_eq hkind).trans hawaiting, hmove.frozen.heldAt_same ?_ hheld⟩
    intro isMacro heq
    rw [Option.some.inj heq] at hkind
    cases hkind

/-- A definition is taken for what awaits it: that gets its parameters, nothing waits any more, and
the definition is open without an entry of its own. -/
structure Settles (a : Awaiting) (d : Entry) (c c' : Collector) : Prop where
  held : HeldAt c' a d
  awaiting : c'.awaiting = none
  definitions : c'.definitions = none :: c.definitions
  classes : c'.classes = c.classes
  next : c'.next = c.next
  /-- The other unit tests and methods are as they were. -/
  others : ∀ b e, b ≠ a → HeldAt c b e → HeldAt c' b e

theorem heldAt_link (hd : HeldAt c a d) (isMacro : Bool) (more : List String) :
    HeldAt (c.link isMacro more a) a (d.defined isMacro more) := by
  cases hd with
  | @unitTest i isSection t hi =>
    refine .unitTest ?_
    simp [link, hi, Entry.mapUnitTest, UnitTest.defined]
  | @method i j isConstructor k m hi hm =>
    have hentry : (c.link isMacro more (.method i isConstructor j)).entries[i]? =
        some (.classDoc (k.modifyMethod isConstructor j (Method.defined isMacro more))) := by
      simp only [link, modify_entries, List.getElem?_modify, hi]
      cases isConstructor <;> rfl
    refine .method hentry ?_
    unfold Class.modifyMethod
    unfold Class.methods at hm ⊢
    cases isConstructor <;> simp at hm ⊢ <;> simp [hm]

theorem HeldAt.of_entries (h : HeldAt c a d) (he : c'.entries = c.entries) : HeldAt c' a d := by
  cases h with
  | unitTest hi => exact .unitTest (he ▸ hi)
  | method hi hm => exact .method (he ▸ hi) hm

theorem settles_link (ha : c.awaiting = some a) (hd : HeldAt c a d) (isMacro : Bool)
    (more : List String) :
    Settles a (d.defined isMacro more) c
      { c.link isMacro more a with awaiting := none, definitions := none :: c.definitions } where
  held := (heldAt_link hd isMacro more).of_entries rfl
  awaiting := rfl
  definitions := rfl
  classes := link_classes ..
  next := link_next ..
  others := by
    intro b e hne hb
    have hfrozen : Frozen c (some (.definition isMacro)) (c.link isMacro more a) :=
      frozen_link isMacro more ha rfl
    refine (hfrozen.heldAt_same (fun _ _ heq => hne ?_) hb).of_entries rfl
    rw [ha] at heq
    exact (Option.some.inj heq).symm

theorem strip_of_pattern? {named : String → Option Nat} {v : Value} {pattern : Pattern}
    {names : List String} (h : names ≠ [] → v.pattern? named = some pattern) :
    strip named v names = .ok (names.map pattern.delete) := by
  cases names with
  | nil => rfl
  | cons name names =>
    have hv := h (List.cons_ne_nil _ _)
    cases v with
    | text source =>
      cases hp : Pattern.ofString? named source with
      | error e => simp [Value.pattern?, hp] at hv
      | ok p =>
        simp only [Value.pattern?, hp, Option.some.injEq] at hv
        simp [strip, hp, hv]
    | _ => cases hv

theorem strip_of_no_pattern {named : String → Option Nat} {v : Value} {names : List String}
    (hn : names ≠ []) (h : v.pattern? named = none) : ∃ e, strip named v names = .error e := by
  have hempty : names.isEmpty = false := by simpa using hn
  cases v with
  | text source =>
    cases hp : Pattern.ofString? named source with
    | error e => exact ⟨_, by simp [strip, hempty, hp]; rfl⟩
    | ok p => simp [Value.pattern?, hp] at h
  | _ => exact ⟨_, by simp [strip, hempty]; rfl⟩

/-- The next definition is taken for what awaits one, if its parameters can be made out. -/
theorem follow_settles {command : Command} {isMacro : Bool} {pattern : Pattern}
    (hk : command.kind = .definition isMacro) (ha : c.awaiting = some a) (hd : HeldAt c a d)
    (hpattern : d.isMethod = true → command.singles ≠ [] →
      s.memberStrip.pattern? s.characterNamed = some pattern) :
    ∃ c', follow s false command c = .ok (c', []) ∧
      Settles a (d.defined isMacro (d.paramsFrom pattern command.singles)) c c' := by
  have hsettles (more : List String) := settles_link ha hd isMacro more
  rw [follow_awaited hk ha]
  cases hd with
  | unitTest => exact ⟨_, rfl, hsettles _⟩
  | method =>
    rw [linkAwaiting, strip_of_pattern? (hpattern rfl)]
    refine ⟨_, rfl, ?_⟩
    have hparams (m : Method) : (Entry.methodDoc m).paramsFrom pattern command.singles =
        (command.singles.map pattern.delete).drop 2 := by
      rw [← List.map_drop]
      rfl
    rw [hparams]
    exact hsettles _

theorem follow_stops {command : Command} {isMacro : Bool} (hk : command.kind = .definition isMacro)
    (ha : c.awaiting = some a) (hd : HeldAt c a d) (hm : d.isMethod = true)
    (hn : command.singles ≠ []) (hv : s.memberStrip.pattern? s.characterNamed = none) :
    ∃ e, follow s false command c = .error e := by
  cases hd with
  | unitTest => cases hm
  | method =>
    obtain ⟨e, he⟩ := strip_of_no_pattern hn hv
    exact ⟨e, by rw [follow_awaited hk ha, linkAwaiting, he]; rfl⟩

/-- What awaits nothing any more will never do so again: what does later on is new. -/
theorem Move.heldAt (hc : Linked c) (h : Move c kind? c') (hd : HeldAt c a d)
    (hne : c.awaiting ≠ some a) : HeldAt c' a d ∧ c'.awaiting ≠ some a := by
  refine ⟨h.frozen.heldAt_same (fun _ _ => hne) hd, fun ha => ?_⟩
  rcases h.awaiting hc ha with hold | ⟨-, hnew⟩
  · exact hne hold
  · exact hnew d hd

theorem Reaches.heldAt (h : Reaches s c c') (hc : Linked c) (hd : HeldAt c a d)
    (hne : c.awaiting ≠ some a) : HeldAt c' a d := by
  suffices hall : Linked c' ∧ HeldAt c' a d ∧ c'.awaiting ≠ some a from hall.2.1
  induction h with
  | refl => exact ⟨hc, hd, hne⟩
  | tail _ hlead ih =>
    obtain ⟨call, logs, hrun⟩ := hlead
    obtain ⟨hlinked, hheld, hne'⟩ := ih
    exact ⟨hlinked.move (move_of_run hrun), (move_of_run hrun).heldAt hlinked hheld hne'⟩

/-- A unit test or a method awaits its definition unchanged while commands without comments pass by
that are no definitions and declare nothing that awaits one. The function or macro that comes next
is taken for its definition, unless it is that of a method and its parameters cannot be made out;
and from then on no call changes what has been defined. -/
theorem awaited_until_defined (s : Settings) (c : Collector) (d : Entry) (between : List Command)
    (hc : Reachable s c) (hd : c.awaited? = some d)
    (hbetween : ∀ command ∈ between, command.kind.passesBy = true)
    (hok : (items s (between.map .plain) c).error = none) :
    ∃ a c₁, c.awaiting = some a ∧ c₁ = (items s (between.map .plain) c).collector ∧
      c₁.awaiting = some a ∧ c₁.awaited? = some d ∧
      ∀ (command : Command) (isMacro : Bool), command.kind = .definition isMacro →
        (∀ pattern, (d.isMethod = true → command.singles ≠ [] →
            s.memberStrip.pattern? s.characterNamed = some pattern) →
          ∃ c₂, follow s false command c₁ = .ok (c₂, []) ∧
            Settles a (d.defined isMacro (d.paramsFrom pattern command.singles)) c₁ c₂ ∧
            ∀ c₃, Reaches s c₂ c₃ →
              HeldAt c₃ a (d.defined isMacro (d.paramsFrom pattern command.singles))) ∧
        (d.isMethod = true → command.singles ≠ [] →
          s.memberStrip.pattern? s.characterNamed = none →
          ∃ e, follow s false command c₁ = .error e) := by
  obtain ⟨a, ha, hheld⟩ := heldAt_of_awaited? hc.linked hd
  obtain ⟨hawaiting, hheld₁⟩ := items_passBy hbetween hok hheld
  have ha₁ := hawaiting.trans ha
  have hc₁ : Reachable s (items s (between.map .plain) c).collector :=
    hc.trans (reaches_items s _ c)
  refine ⟨a, _, ha, rfl, ha₁, hheld₁.awaited?_eq ha₁, fun command isMacro hk => ⟨?_, ?_⟩⟩
  · intro pattern hpattern
    obtain ⟨c₂, hfollow, hsettles⟩ := follow_settles hk ha₁ hheld₁ hpattern
    refine ⟨c₂, hfollow, hsettles, fun c₃ hreaches => ?_⟩
    have hc₂ : Linked c₂ := hc₁.linked.move (move_of_follow hfollow)
    exact hreaches.heldAt hc₂ hsettles.held (by simp [hsettles.awaiting])
  · exact fun hm hn hv => follow_stops hk ha₁ hheld₁ hm hn hv

end Collector

/-- The letter `p` and an underscore in front, as small or as capital letters. -/
def Pattern.paramMark : Pattern :=
  .seq (.atStart false) (.seq (literal .folded 'p') (literal .folded '_'))

namespace Collector

/-- Settings under which the names of parameters of methods lose a mark in front, in any case. -/
def strippingMarks : Settings := { (default : Settings) with memberStrip := .text "(?i)^p_" }

/-- A method is declared in a class. -/
def declaredMethod : List Item :=
  [.plain (plainCommand "cpp_class" ["A"]),
    .documented "#[[[\n# Goes.\n#]]" (plainCommand "cpp_member" ["go", "A", "int"])]

/-- Commands that come between the method and its definition. -/
def otherCommands : List Command :=
  [plainCommand "cpp_attr" ["A", "size", "3"], plainCommand "cmake_parse_arguments" [],
    plainCommand "cpp_end_class" [], plainCommand "option" ["verbose", "Say more."]]

theorem declaredMethod_until_defined : ∃ c c₁ c₂,
    c = (items strippingMarks declaredMethod empty).collector ∧
      c₁ = (items strippingMarks (otherCommands.map .plain) c).collector ∧
      c₁.awaited? = some (.methodDoc ⟨"go", "Goes.\n", "A", ["int"], [], false, false⟩) ∧
      follow strippingMarks false (plainCommand "macro" ["go", "self", "P_x"]) c₁ =
        .ok (c₂, []) ∧
      c₂.awaiting = none ∧ c₂.definitions = [none] ∧
      ∀ c₃, Reaches strippingMarks c₂ c₃ →
        HeldAt c₃ (.method 0 false 0)
          (.methodDoc ⟨"go", "Goes.\n", "A", ["int"], ["x"], false, true⟩) := by
  have hok : (items strippingMarks (otherCommands.map .plain)
      (items strippingMarks declaredMethod empty).collector).error = none := rfl
  have hpattern : strippingMarks.memberStrip.pattern? strippingMarks.characterNamed =
      some .paramMark := rfl
  obtain ⟨a, c₁, ha, hc₁, -, hd, hnext⟩ := awaited_until_defined strippingMarks
    (items strippingMarks declaredMethod empty).collector
    (.methodDoc ⟨"go", "Goes.\n", "A", ["int"], [], false, false⟩) otherCommands
    (reaches_items _ _ _) rfl (by decide) hok
  obtain ⟨c₂, hfollow, hsettles, hkept⟩ := (hnext (plainCommand "macro" ["go", "self", "P_x"]) true
    rfl).1 .paramMark fun _ _ => hpattern
  obtain rfl : a = .method 0 false 0 := (Option.some.inj ha).symm
  have hparams : (plainCommand "macro" ["go", "self", "P_x"]).singles = ["go", "self", "P_x"] := rfl
  refine ⟨_, c₁, c₂, rfl, hc₁, hd, hfollow, hsettles.awaiting, ?_, fun c₃ hreaches => ?_⟩
  · rw [hsettles.definitions, hc₁]
    rfl
  · have hdelete : Pattern.paramMark.delete "P_x" = "x" := rfl
    have hheld := hkept c₃ hreaches
    simpa [Entry.paramsFrom, Entry.isMethod, Entry.defined, Method.defined, hparams, hdelete]
      using hheld

end Collector

end CMakeDocs
