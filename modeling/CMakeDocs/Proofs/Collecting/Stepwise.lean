import CMakeDocs.Collector

/-!
# Commands step by step

A command that fails leaves the collector as it was. This is so by the type of an outcome, and it
would be so for whatever a command does before it fails. Here the same commands are carried out in
place: a handler changes one part of the collector after the other, and what it has changed stays
changed when it stops. Handlers come to the same as the outcomes, because each of them finds out all
that can go wrong before its first change.
-/
namespace CMakeDocs.Collector

/-- Changes what has been waiting for its definition. -/
def updateAwaited (c : Collector) (onTest : UnitTest → UnitTest) (onMethod : Method → Method) :
    Awaiting → Collector
  | .unitTest i => c.modify i (Entry.mapUnitTest onTest)
  | .method i isConstructor j =>
    c.modify i (Entry.mapClass fun k =>
      if isConstructor then { k with constructors := k.constructors.modify j onMethod }
      else { k with members := k.members.modify j onMethod })

/-- What handlers work on: the collector and what has been said. -/
structure Session where
  collector : Collector
  logs : List LogRecord

/-- A procedure that changes a session. After an error the session is as the procedure left it. -/
abbrev Handler := EStateM CollectError Session

namespace Handler

variable {α : Type}

def change (f : Collector → Collector) : Handler Unit :=
  modifyThe Session fun p => { p with collector := f p.collector }

def say (log : LogRecord) : Handler Unit :=
  modifyThe Session fun p => { p with logs := p.logs ++ [log] }

/-- Goes on with a value, or stops with an error. -/
def ofExcept (x : Except CollectError α) : Handler α :=
  match x with
  | .ok a => pure a
  | .error e => throw e

def append (e : Entry) : Handler Unit := change (·.append e)

def modifyClass (i : Nat) (f : Class → Class) : Handler Unit :=
  change (·.modify i (Entry.mapClass f))

/-- Changes the innermost of some open classes, if it has an entry. -/
def modifyInnermost (classes : List (Option Nat)) (f : Class → Class) : Handler Unit :=
  match classes with
  | some i :: _ => modifyClass i f
  | _ => pure ()

def pushClass (entry : Option Nat) : Handler Unit :=
  change fun c => { c with classes := entry :: c.classes }

def pushDefinition (entry : Option Nat) : Handler Unit :=
  change fun c => { c with definitions := entry :: c.definitions }

def await (awaiting : Option Awaiting) : Handler Unit :=
  change fun c => { c with awaiting := awaiting }

def popClass : Handler Unit := do
  let p ← get
  match p.collector.classes with
  | [] => throw .notOpen
  | _ :: rest => change fun c => { c with classes := rest }

def popDefinition : Handler Unit := do
  let p ← get
  match p.collector.definitions with
  | [] => throw .notOpen
  | _ :: rest => change fun c => { c with definitions := rest }

/-- Puts parameters behind those of what has been waiting, if there are more than the name and the
first one. -/
def extendAwaited (params : List String) (awaiting : Awaiting) : Handler Unit :=
  if params.length > 2 then
    change (·.updateAwaited (fun t => { t with params := t.params ++ params.drop 2 })
      (fun m => { m with params := m.params ++ params.drop 2 }) awaiting)
  else pure ()

def define (s : Settings) (isMacro : Bool) (doc : String) (command : Command) : Handler Unit :=
  match command.singles with
  | [] => throw (.unnamed isMacro doc command)
  | name :: rest => do
    let params ← ofExcept (strip s.characterNamed (s.definitionStrip isMacro) rest)
    let hasKeywords ← ofExcept (hasTrigger s.keywordTrigger doc)
    let p ← get
    append (.definition isMacro ⟨name, doc, params, hasKeywords⟩)
    pushDefinition (some p.collector.next)

def addUnitTest (isSection : Bool) (doc : String) (command : Command) : Handler Unit :=
  let refused := badParameters (if isSection then "ct_add_section" else "ct_add_test") doc command
  if command.singles.length < 2 then say refused else
    match nameAfter? "" command.singles with
    | none => say refused
    | some name => do
      let expectFail := command.singles.any (Text.isSpellingOf "EXPECTFAIL")
      let p ← get
      append (.unitTest isSection ⟨name, doc, expectFail, [], false⟩)
      await (some (.unitTest p.collector.next))

def setVariable (doc : String) (command : Command) : Handler Unit :=
  match command.singles with
  | [] => say (badArguments "set" doc command)
  | [name] => append (.variableDoc ⟨name, doc, .unset, none⟩)
  | [name, value] =>
    match unquote? value.toList with
    | none => throw .emptyValue
    | some cs => append (.variableDoc ⟨name, doc, .string, some (String.ofList cs)⟩)
  | name :: values => append (.variableDoc ⟨name, doc, .list, some (" ".intercalate values)⟩)

def openClass (doc : String) (command : Command) : Handler Unit :=
  match command.singles with
  | [] => say (badArguments "cpp_class" doc command)
  | name :: superclasses => do
    let p ← get
    append (.classDoc ⟨name, doc, superclasses, [], [], [], []⟩)
    modifyInnermost p.collector.classes fun k => { k with innerClasses := k.innerClasses ++ [name] }
    pushClass (some p.collector.next)

def addMember (isConstructor : Bool) (doc : String) (command : Command) : Handler Unit :=
  match command.singles with
  | name :: parentClass :: paramTypes => do
    let p ← get
    match p.collector.classes with
    | [] =>
      say (outsideClass (if isConstructor then "cpp_constructor" else "cpp_member") doc command)
    | none :: _ => pure ()
    | some i :: _ =>
      modifyClass i (addToClass ⟨name, doc, parentClass, paramTypes, [], isConstructor, false⟩)
      await (some (.method i isConstructor (p.collector.methodCount i isConstructor)))
  | _ => say (badArguments "cpp_class" doc command)

def addAttribute (doc : String) (command : Command) : Handler Unit :=
  match command.singles with
  | parentClass :: name :: rest => do
    let p ← get
    match p.collector.classes with
    | [] => say (outsideClass "cpp_attr" doc command)
    | none :: _ => pure ()
    | some i :: _ =>
      modifyClass i fun k =>
        { k with attributes := k.attributes ++ [⟨name, doc, parentClass, rest.head?⟩] }
  | _ => say (badArguments "cpp_attr" doc command)

def addTest (doc : String) (command : Command) : Handler Unit :=
  if command.singles.length < 2 then say (badParameters "ct_add_section" doc command) else
    match nameAfter? "" command.singles with
    | none => say (badParameters "add_test" doc command)
    | some name =>
      append (.test ⟨name, doc, command.singles.filter fun p => p ≠ name ∧ p ≠ "NAME"⟩)

def addOption (doc : String) (command : Command) : Handler Unit :=
  match command.singles with
  | [name, help] => append (.option ⟨name, doc, .other (.text "bool"), none⟩ help)
  | [name, help, value] => append (.option ⟨name, doc, .other (.text "bool"), some value⟩ help)
  | _ => say (badParameters "ct_add_section" doc command)

/-- Gives a command its entry. -/
def record (s : Settings) (doc : String) (command : Command) : Handler Unit :=
  match command.kind with
  | .definition isMacro => define s isMacro doc command
  | .parseArguments => change markKeywords
  | .setVariable => setVariable doc command
  | .option => addOption doc command
  | .test => addTest doc command
  | .unitTest isSection => addUnitTest isSection doc command
  | .classStart => openClass doc command
  | .member isConstructor => addMember isConstructor doc command
  | .classAttribute => addAttribute doc command
  | .generic => throw .genericComment
  | .endDefinition | .classEnd | .other =>
    append (.generic ⟨command.name, doc, command.singles ++ command.groups⟩)

/-- Gives what has been waiting the sort and parameters of its definition, which is then open. -/
def link (isMacro : Bool) (params : List String) (awaiting : Awaiting) : Handler Unit := do
  change (·.updateAwaited (fun t => { t with isMacro := isMacro })
    (fun m => { m with isMacro := isMacro }) awaiting)
  extendAwaited params awaiting
  await none
  pushDefinition none

def linkAwaiting (s : Settings) (isMacro : Bool) (command : Command) (awaiting : Awaiting) :
    Handler Unit :=
  match awaiting with
  | .unitTest _ => link isMacro command.singles awaiting
  | .method _ _ _ => do
    let params ← ofExcept (strip s.characterNamed s.memberStrip command.singles)
    link isMacro params awaiting

/-- Follows a command, with its comment dealt with already or without one. -/
def follow (s : Settings) (hasComment : Bool) (command : Command) : Handler Unit :=
  match command.kind with
  | .classStart =>
    if !s.includes .classStart then pushClass none
    else if hasComment then pure () else record s "" command
  | .classEnd => popClass
  | .parseArguments => change markKeywords
  | .definition isMacro => do
    let p ← get
    match p.collector.awaiting with
    | some awaiting => linkAwaiting s isMacro command awaiting
    | none =>
      if hasComment then pure ()
      else if s.includes (.definition isMacro) then record s "" command
      else pushDefinition none
  | .endDefinition => popDefinition
  | .generic => if hasComment then pure () else throw .genericSwitch
  | .setVariable | .other => pure ()
  | .option | .test | .unitTest _ | .member _ | .classAttribute =>
    if hasComment then pure ()
    else if s.includes command.kind then record s "" command else pure ()

/-- Says where an error has come up, and stops with it. What was changed until then stays so. -/
def guarded (text : String) (command : Command) (h : Handler Unit) : Handler Unit := fun p =>
  match h p with
  | .ok a q => .ok a q
  | .error e q =>
    .error e ⟨q.collector, q.logs ++
      [⟨.collector, .error, s!"{text} beginning at line number {command.line}"⟩]⟩

/-- What is done with a command that has a comment, before it is followed. -/
def enterDocumented (s : Settings) (comment : String) (command : Command) : Handler Unit :=
  guarded "Caught exception while processing documented command" command
    (record s (Comment.clean comment) command)

/-- What is done with every command. -/
def enterCommand (s : Settings) (hasComment : Bool) (command : Command) : Handler Unit :=
  guarded "Caught exception while processing command" command (follow s hasComment command)

/-- What an outcome makes of a session: all of its changes, or none. -/
def commit (p : Session) (o : Outcome) : EStateM.Result CollectError Session Unit :=
  match o with
  | .ok (c, logs) => .ok () ⟨c, p.logs ++ logs⟩
  | .error e => .error e p

theorem commit_silent (p : Session) (c : Collector) :
    commit p (.ok (c, [])) = .ok () ⟨c, p.logs⟩ := by
  simp [commit]

/-- A handler comes to an outcome from every session. -/
def Commits (h : Handler Unit) (f : Collector → Outcome) : Prop :=
  ∀ p, h p = commit p (f p.collector)

theorem Commits.ofExcept_bind (x : Except CollectError α) {f : α → Handler Unit}
    {g : α → Collector → Outcome} (h : ∀ a, Commits (f a) (g a)) :
    Commits (ofExcept x >>= f) fun c => x >>= fun a => g a c := by
  intro p
  cases x with
  | ok a => exact h a p
  | error e => rfl

theorem commits_pure : Commits (pure ()) fun c => .ok (c, []) :=
  fun p => (commit_silent p p.collector).symm

theorem commits_change (f : Collector → Collector) : Commits (change f) fun c => .ok (f c, []) :=
  fun p => (commit_silent p (f p.collector)).symm

theorem Commits.ite (b : Prop) [Decidable b] {h h' : Handler Unit} {f f' : Collector → Outcome}
    (hpos : Commits h f) (hneg : Commits h' f') :
    Commits (if b then h else h') fun c => if b then f c else f' c := by
  intro p
  split
  · exact hpos p
  · exact hneg p

variable {s : Settings} {doc : String} {command : Command}

theorem commits_define (isMacro : Bool) :
    Commits (define s isMacro doc command) (Collector.define s isMacro doc command) := by
  unfold define Collector.define
  cases command.singles with
  | nil => exact fun p => rfl
  | cons name rest =>
    apply Commits.ofExcept_bind
    intro params
    apply Commits.ofExcept_bind
    intro hasKeywords p
    exact (commit_silent p _).symm

theorem commits_addUnitTest (isSection : Bool) :
    Commits (addUnitTest isSection doc command)
      fun c => .ok (Collector.addUnitTest isSection doc command c) := by
  intro p
  unfold addUnitTest Collector.addUnitTest
  by_cases hlength : command.singles.length < 2
  · simp only [if_pos hlength]
    rfl
  · simp only [if_neg hlength]
    cases nameAfter? "" command.singles with
    | none => rfl
    | some name => exact (commit_silent p _).symm

theorem commits_setVariable :
    Commits (setVariable doc command) (Collector.setVariable doc command) := by
  intro p
  unfold setVariable Collector.setVariable
  rcases command.singles with _ | ⟨name, _ | ⟨value, _ | ⟨value', values⟩⟩⟩
  · rfl
  · exact (commit_silent p _).symm
  · dsimp only
    cases unquote? value.toList with
    | none => rfl
    | some cs => exact (commit_silent p _).symm
  · exact (commit_silent p _).symm

theorem commits_openClass :
    Commits (openClass doc command) fun c => .ok (Collector.openClass doc command c) := by
  rintro ⟨⟨entries, classes, awaiting, definitions⟩, logs⟩
  unfold openClass Collector.openClass
  cases command.singles with
  | nil => rfl
  | cons name superclasses =>
    rcases classes with _ | ⟨_ | i, classes⟩
    all_goals exact (commit_silent ⟨_, logs⟩ _).symm

theorem commits_addMember (isConstructor : Bool) :
    Commits (addMember isConstructor doc command)
      fun c => .ok (Collector.addMember isConstructor doc command c) := by
  rintro ⟨⟨entries, classes, awaiting, definitions⟩, logs⟩
  unfold addMember Collector.addMember
  rcases command.singles with _ | ⟨name, _ | ⟨parentClass, paramTypes⟩⟩
  · rfl
  · rfl
  · rcases classes with _ | ⟨_ | i, classes⟩
    · rfl
    · exact (commit_silent ⟨_, logs⟩ _).symm
    · exact (commit_silent ⟨_, logs⟩ _).symm

theorem commits_addAttribute :
    Commits (addAttribute doc command) fun c => .ok (Collector.addAttribute doc command c) := by
  rintro ⟨⟨entries, classes, awaiting, definitions⟩, logs⟩
  unfold addAttribute Collector.addAttribute
  rcases command.singles with _ | ⟨parentClass, _ | ⟨name, rest⟩⟩
  · rfl
  · rfl
  · rcases classes with _ | ⟨_ | i, classes⟩
    · rfl
    · exact (commit_silent ⟨_, logs⟩ _).symm
    · exact (commit_silent ⟨_, logs⟩ _).symm

theorem commits_addTest :
    Commits (addTest doc command) fun c => .ok (Collector.addTest doc command c) := by
  intro p
  unfold addTest Collector.addTest
  by_cases hlength : command.singles.length < 2
  · simp only [if_pos hlength]
    rfl
  · simp only [if_neg hlength]
    cases nameAfter? "" command.singles with
    | none => rfl
    | some name => exact (commit_silent p _).symm

theorem commits_addOption :
    Commits (addOption doc command) fun c => .ok (Collector.addOption doc command c) := by
  intro p
  unfold addOption Collector.addOption
  rcases command.singles with _ | ⟨name, _ | ⟨help, _ | ⟨value, _ | ⟨more, rest⟩⟩⟩⟩
  · rfl
  · rfl
  · exact (commit_silent p _).symm
  · exact (commit_silent p _).symm
  · rfl

theorem commits_record : Commits (record s doc command) (Collector.record s doc command) := by
  unfold record Collector.record
  cases command.kind with
  | definition isMacro => exact commits_define isMacro
  | setVariable => exact commits_setVariable
  | option => exact commits_addOption
  | test => exact commits_addTest
  | unitTest isSection => exact commits_addUnitTest isSection
  | classStart => exact commits_openClass
  | member isConstructor => exact commits_addMember isConstructor
  | classAttribute => exact commits_addAttribute
  | generic => exact fun p => rfl
  | parseArguments | endDefinition | classEnd | other => exact commits_change _

theorem updateAwaited_updateAwaited (c : Collector) (f f' : UnitTest → UnitTest)
    (g g' : Method → Method) (awaiting : Awaiting) :
    (c.updateAwaited f g awaiting).updateAwaited f' g' awaiting =
      c.updateAwaited (f' ∘ f) (g' ∘ g) awaiting := by
  cases awaiting with
  | unitTest i =>
    have hcomp : Entry.mapUnitTest f' ∘ Entry.mapUnitTest f = Entry.mapUnitTest (f' ∘ f) := by
      funext e
      cases e <;> rfl
    simp [updateAwaited, Collector.modify, List.modify_modify_eq, hcomp]
  | method i isConstructor j =>
    simp only [updateAwaited, Collector.modify, List.modify_modify_eq]
    congr 2
    funext e
    cases e with
    | classDoc k => cases isConstructor <;> simp [Entry.mapClass, List.modify_modify_eq]
    | _ => rfl

theorem link_eq_updateAwaited (c : Collector) (isMacro : Bool) (params : List String)
    (awaiting : Awaiting) :
    c.link isMacro params awaiting =
      c.updateAwaited (fun t => { t with isMacro := isMacro, params := t.params ++ params })
        (fun m => { m with isMacro := isMacro, params := m.params ++ params }) awaiting := by
  cases awaiting <;> rfl

theorem commits_link (isMacro : Bool) (params : List String) (awaiting : Awaiting) :
    Commits (link isMacro params awaiting) fun c =>
      .ok ({ c.link isMacro (params.drop 2) awaiting with
        awaiting := none, definitions := none :: c.definitions }, []) := by
  intro p
  rw [commit_silent, link_eq_updateAwaited]
  unfold link extendAwaited
  by_cases hmore : params.length > 2
  · simp only [if_pos hmore]
    have htwice := updateAwaited_updateAwaited p.collector
      (fun t => { t with isMacro := isMacro })
      (fun t => { t with params := t.params ++ params.drop 2 })
      (fun m => { m with isMacro := isMacro })
      (fun m => { m with params := m.params ++ params.drop 2 }) awaiting
    -- the two steps behind do not look at the entries
    refine (congrArg (fun c : Collector => EStateM.Result.ok () (Session.mk
      { c with awaiting := none, definitions := none :: c.definitions } p.logs)) htwice).trans ?_
    cases awaiting <;> rfl
  · have hnone : params.drop 2 = [] := List.drop_eq_nil_of_le (by omega)
    simp only [if_neg hmore, hnone, List.append_nil]
    cases awaiting <;> rfl

theorem commits_linkAwaiting (isMacro : Bool) (awaiting : Awaiting) :
    Commits (linkAwaiting s isMacro command awaiting)
      (Collector.linkAwaiting s isMacro command awaiting) := by
  cases awaiting with
  | unitTest i => exact commits_link isMacro command.singles _
  | method i isConstructor j => exact Commits.ofExcept_bind _ fun params => commits_link _ _ _

theorem commits_follow (hasComment : Bool) :
    Commits (follow s hasComment command) (Collector.follow s hasComment command) := by
  unfold follow Collector.follow recordIfIncluded
  cases command.kind with
  | classStart => exact .ite _ (commits_change _) (.ite _ commits_pure commits_record)
  | classEnd =>
    rintro ⟨⟨entries, classes, awaiting, definitions⟩, logs⟩
    cases classes with
    | nil => rfl
    | cons entry rest => exact (commit_silent ⟨_, logs⟩ _).symm
  | parseArguments => exact commits_change _
  | definition isMacro =>
    rintro ⟨⟨entries, classes, awaiting, definitions⟩, logs⟩
    cases awaiting with
    | some awaiting => exact commits_linkAwaiting isMacro awaiting _
    | none => exact Commits.ite _ commits_pure (.ite _ commits_record (commits_change _)) _
  | endDefinition =>
    rintro ⟨⟨entries, classes, awaiting, definitions⟩, logs⟩
    cases definitions with
    | nil => rfl
    | cons entry rest => exact (commit_silent ⟨_, logs⟩ _).symm
  | generic => exact .ite _ commits_pure fun p => rfl
  | setVariable | other => exact commits_pure
  | option | test | unitTest | member | classAttribute =>
    exact .ite _ commits_pure (.ite _ commits_record commits_pure)

end Handler

/-- The collector is as it was if anything is said. -/
def Reserved (c : Collector) (o : Outcome) : Prop :=
  ∀ c' logs, o = .ok (c', logs) → logs = [] ∨ c' = c

section Reserved

variable {c : Collector} {s : Settings} {doc : String} {command : Command}

theorem reserved_error (e : CollectError) : Reserved c (.error e) := by
  intro c' logs h
  cases h

theorem reserved_silent (c' : Collector) : Reserved c (.ok (c', [])) := by
  intro c'' logs h
  cases h
  exact .inl rfl

theorem reserved_same (logs : List LogRecord) : Reserved c (.ok (c, logs)) := by
  intro c' logs' h
  cases h
  exact .inr rfl

theorem Reserved.bind {α : Type} (x : Except CollectError α) {f : α → Outcome}
    (hf : ∀ a, Reserved c (f a)) : Reserved c (x >>= f) := by
  cases x with
  | ok a => exact hf a
  | error e => exact reserved_error e

theorem Reserved.ite (b : Prop) [Decidable b] {o o' : Outcome} (hpos : Reserved c o)
    (hneg : Reserved c o') : Reserved c (if b then o else o') := by
  split
  · exact hpos
  · exact hneg

theorem reserved_define (isMacro : Bool) : Reserved c (define s isMacro doc command c) := by
  unfold define
  split
  · exact reserved_error _
  · exact .bind _ fun params => .bind _ fun hasKeywords => reserved_silent _

theorem reserved_addUnitTest (isSection : Bool) :
    Reserved c (.ok (addUnitTest isSection doc command c)) := by
  unfold addUnitTest
  dsimp only
  split
  · exact reserved_same _
  split
  · exact reserved_same _
  · exact reserved_silent _

theorem reserved_setVariable : Reserved c (setVariable doc command c) := by
  unfold setVariable
  split
  · exact reserved_same _
  · exact reserved_silent _
  · split
    · exact reserved_error _
    · exact reserved_silent _
  · exact reserved_silent _

theorem reserved_openClass : Reserved c (.ok (openClass doc command c)) := by
  unfold openClass
  split
  · exact reserved_same _
  · exact reserved_silent _

theorem reserved_addMember (isConstructor : Bool) :
    Reserved c (.ok (addMember isConstructor doc command c)) := by
  unfold addMember
  split
  · split
    · exact reserved_same _
    · exact reserved_silent _
    · exact reserved_silent _
  · exact reserved_same _

theorem reserved_addAttribute : Reserved c (.ok (addAttribute doc command c)) := by
  unfold addAttribute
  split
  · split
    · exact reserved_same _
    · exact reserved_silent _
    · exact reserved_silent _
  · exact reserved_same _

theorem reserved_addTest : Reserved c (.ok (addTest doc command c)) := by
  unfold addTest
  dsimp only
  split
  · exact reserved_same _
  split
  · exact reserved_same _
  · exact reserved_silent _

theorem reserved_addOption : Reserved c (.ok (addOption doc command c)) := by
  unfold addOption
  split
  · exact reserved_silent _
  · exact reserved_silent _
  · exact reserved_same _

theorem reserved_record : Reserved c (record s doc command c) := by
  unfold record
  cases command.kind with
  | definition isMacro => exact reserved_define isMacro
  | setVariable => exact reserved_setVariable
  | option => exact reserved_addOption
  | test => exact reserved_addTest
  | unitTest isSection => exact reserved_addUnitTest isSection
  | classStart => exact reserved_openClass
  | member isConstructor => exact reserved_addMember isConstructor
  | classAttribute => exact reserved_addAttribute
  | generic => exact reserved_error _
  | parseArguments | endDefinition | classEnd | other => exact reserved_silent _

theorem reserved_linkAwaiting (isMacro : Bool) (awaiting : Awaiting) :
    Reserved c (linkAwaiting s isMacro command awaiting c) := by
  cases awaiting with
  | unitTest i => exact reserved_silent _
  | method i isConstructor j => exact .bind _ fun params => reserved_silent _

theorem reserved_follow (hasComment : Bool) : Reserved c (follow s hasComment command c) := by
  unfold follow recordIfIncluded
  cases command.kind with
  | classStart => exact .ite _ (reserved_silent _) (.ite _ (reserved_silent _) reserved_record)
  | definition isMacro =>
    cases c.awaiting with
    | some awaiting => exact reserved_linkAwaiting isMacro awaiting
    | none =>
      exact .ite _ (reserved_silent _) (.ite _ reserved_record (reserved_silent _))
  | classEnd | endDefinition =>
    dsimp only
    split
    · exact reserved_error _
    · exact reserved_silent _
  | generic => exact .ite _ (reserved_silent _) (reserved_error _)
  | parseArguments | setVariable | other => exact reserved_silent _
  | option | test | unitTest | member | classAttribute =>
    exact .ite _ (reserved_silent _) (.ite _ reserved_record (reserved_silent _))

end Reserved

/-- What is to be seen of failures from outside. -/
structure Handler.Atomic (h : Handler Unit) : Prop where
  stopped : ∀ p q e, h p = .error e q → q.collector = p.collector
  said : ∀ p q, h p = .ok () q → q.logs ≠ p.logs → q.collector = p.collector

theorem Handler.Commits.atomic_guarded {h : Handler Unit} {f : Collector → Outcome}
    (hf : Commits h f) (hr : ∀ c, Reserved c (f c)) (text : String) (command : Command) :
    Atomic (guarded text command h) := by
  constructor
  · intro p q e hq
    rw [guarded, hf p] at hq
    cases ho : f p.collector with
    | ok r =>
      rw [ho] at hq
      cases hq
    | error e' =>
      rw [ho] at hq
      cases hq
      rfl
  · intro p q hq hlogs
    rw [guarded, hf p] at hq
    cases ho : f p.collector with
    | ok r =>
      rw [ho] at hq
      cases hq
      refine (hr _ _ _ ho).resolve_left fun hnil => hlogs ?_
      rw [hnil, List.append_nil]
    | error e =>
      rw [ho] at hq
      cases hq

/-- Goes on with a handler unless there was an error. -/
def Progress.handle (p : Progress) (command : Command) (h : Handler Unit) : Progress :=
  match p.error with
  | some _ => p
  | none =>
    match h ⟨p.collector, p.logs⟩ with
    | .ok _ q => ⟨q.collector, q.logs, none⟩
    | .error e q => ⟨q.collector, q.logs, some (e, command)⟩

open Handler

theorem Handler.Commits.handle_guarded {h : Handler Unit} {f : Collector → Outcome}
    (hf : Commits h f) (text : String) (command : Command) (p : Progress) :
    p.handle command (guarded text command h) = p.step text command f := by
  obtain ⟨c, logs, error⟩ := p
  cases error with
  | some e => rfl
  | none =>
    have hp : h ⟨c, logs⟩ = commit ⟨c, logs⟩ (f c) := hf ⟨c, logs⟩
    unfold Progress.handle Progress.step guarded
    simp only [hp]
    cases f c <;> rfl

/-- A handler that stops leaves the collector as it was, and so does one that returns and has said
something. This is so from every collector and with all settings, for the handler of a command with
a comment and for that of a command as such, and going through the items of a file is running these
handlers one after the other. -/
theorem failed_handler_changes_nothing (s : Settings) (comment : String) (hasComment : Bool)
    (command : Command) :
    Atomic (enterDocumented s comment command) ∧ Atomic (enterCommand s hasComment command) ∧
      ∀ p : Progress,
        item s p (.documented comment command) =
          (p.handle command (enterDocumented s comment command)).handle command
            (enterCommand s true command) ∧
        item s p (.plain command) = p.handle command (enterCommand s false command) := by
  refine ⟨commits_record.atomic_guarded (fun _ => reserved_record) _ _,
    (commits_follow hasComment).atomic_guarded (fun _ => reserved_follow hasComment) _ _,
    fun p => ⟨?_, ?_⟩⟩
  · unfold enterDocumented enterCommand
    rw [commits_record.handle_guarded, (commits_follow true).handle_guarded]
    rfl
  · unfold enterCommand
    rw [(commits_follow false).handle_guarded]
    rfl

/-- A method of a class waits for its definition. -/
def methodWaits : Session :=
  ⟨⟨[.classDoc ⟨"A", "", [], [], [], [⟨"f", "", "A", [], [], false, false⟩], []⟩], [some 0],
    some (.method 0 false 0), []⟩, []⟩

/-- The definition comes, but the pattern for its parameters cannot be read. -/
def unreadable : Handler Unit :=
  enterCommand { (default : Settings) with memberStrip := .text "(" } false
    ⟨"function", [.single .identifier "f", .single .identifier "self"], "function(fself)", 1⟩

/-- A class comes that has no name. -/
def unnamedClass : Handler Unit :=
  enterDocumented default "#[[[\n#]]" ⟨"cpp_class", [], "cpp_class()", 1⟩

theorem waiting_method_unchanged :
    (∃ e q, unreadable methodWaits = .error e q ∧ q.collector = methodWaits.collector) ∧
      ∃ q, unnamedClass methodWaits = .ok () q ∧ q.logs ≠ methodWaits.logs ∧
        q.collector = methodWaits.collector := by
  obtain ⟨e, q, hq⟩ : ∃ e q, unreadable methodWaits = .error e q := ⟨_, _, rfl⟩
  obtain ⟨q', hq', hlogs⟩ : ∃ q, unnamedClass methodWaits = .ok () q ∧ q.logs ≠ methodWaits.logs :=
    ⟨_, rfl, List.cons_ne_nil _ _⟩
  exact ⟨⟨e, q, hq, (failed_handler_changes_nothing _ "" _ _).2.1.stopped _ _ _ hq⟩,
    q', hq', hlogs, (failed_handler_changes_nothing _ _ false _).1.said _ _ hq' hlogs⟩

end CMakeDocs.Collector
