import CMakeDocs.Proofs.Reading.Conserved
import CMakeDocs.Proofs.Reading.Items

/-!
# What stands in front of a file

A module comment is read as such only if it is the first token of a text. Wherever else one stands,
it ends the reading or is skipped, and no rule makes a module of it. This holds of every text, with
faults or without, because the rule of module comments is called in one place only.
-/
namespace CMakeDocs

/-- All trees of the step are such. -/
def Step.All (step : Step) (P : Tree → Prop) : Prop := ∀ t ∈ step.trees, P t

namespace Step.All

variable {step : Step} {next : Reader → Step} {P Q : Tree → Prop}

theorem of_nil (h : step.trees = []) : step.All P := by
  intro t ht
  rw [h] at ht
  cases ht

theorem done (r : Reader) : (Step.done r).All P := of_nil rfl

theorem mono (h : step.All P) (hPQ : ∀ t, P t → Q t) : step.All Q := fun t ht => hPQ t (h t ht)

theorem andThen (h : step.All P) (hn : (next step.reader).All P) : (step.andThen next).All P := by
  unfold Step.andThen
  split
  · exact h
  · exact List.forall_mem_append.mpr ⟨h, hn⟩

end Step.All

/-- All trees of the step are single tokens, or marks for missing ones. -/
def Step.Leafy (step : Step) : Prop := step.All fun t => t.rule? = none

/-- No tree of the step is a module comment. -/
def Step.Avoids (step : Step) : Prop := ∀ t ∈ step.trees, t.rule? ≠ some .documentedModule

theorem Step.Leafy.avoids {step : Step} (h : step.Leafy) : step.Avoids := by
  intro t ht
  rw [h t ht]
  simp

namespace Step.Avoids

variable {step : Step} {next : Reader → Step}

theorem done (r : Reader) : (Step.done r).Avoids := All.done r

theorem andThen (h : step.Avoids) (hn : ∀ r, (next r).Avoids) : (step.andThen next).Avoids :=
  All.andThen h (hn _)

theorem calledAt (h : step.Avoids) (place : Place) : (step.calledAt place).Avoids := h

end Step.Avoids

theorem Step.done_andThen (r : Reader) (next : Reader → Step) :
    (Step.done r).andThen next = next r := rfl

/-- The trees of the step begin with the given ones, and none of the others is a module comment. -/
def Step.Leads (step : Step) (front : List Tree) : Prop :=
  ∃ others, step.trees = front ++ others ∧ ∀ t ∈ others, t.rule? ≠ some .documentedModule

theorem Step.Avoids.leads {step : Step} (h : step.Avoids) : step.Leads [] :=
  ⟨step.trees, rfl, h⟩

theorem Step.Leads.andThen {step : Step} {front : List Tree} {next : Reader → Step}
    (h : step.Leads front) (hn : ∀ r, (next r).Avoids) : (step.andThen next).Leads front := by
  unfold Step.andThen
  split
  · exact h
  · obtain ⟨others, htrees, havoids⟩ := h
    refine ⟨others ++ (next step.reader).trees, ?_,
      List.forall_mem_append.mpr ⟨havoids, hn step.reader⟩⟩
    dsimp only
    rw [htrees, List.append_assoc]

namespace Reader

theorem consume_leafy (r : Reader) : r.consume.Leafy := by
  intro t ht
  rw [List.mem_singleton.mp ht]
  split
  · rfl
  · rfl

theorem checkEntry_leafy (r : Reader) (place : Place) : (r.checkEntry place).Leafy := by
  refine .of_nil ?_
  unfold checkEntry
  split
  · rfl
  · dsimp only
    split
    · rfl
    · rfl

theorem checkNext_leafy (r : Reader) (place : Place) : (r.checkNext place).Leafy := by
  refine .of_nil ?_
  unfold checkNext
  split
  · rfl
  · rfl

theorem expect_leafy (r : Reader) (calls : List Place) (place : Place) :
    (r.expect calls place).Leafy := by
  unfold expect
  split
  · exact consume_leafy _
  · dsimp only
    split
    · split
      · exact .andThen (consume_leafy _) (consume_leafy _)
      · exact .of_nil rfl
    · split
      · split
        · intro t ht
          obtain ⟨kind, -, rfl⟩ := List.mem_map.mp ht
          rfl
        · exact .of_nil rfl
      · exact .of_nil rfl

theorem skipTo_leafy (kinds : List TokenKind) (fuel : Nat) (r : Reader) :
    (skipTo kinds fuel r).Leafy := by
  induction fuel generalizing r with
  | zero => exact .done r
  | succ fuel ih =>
    unfold skipTo
    split
    · exact .done r
    · exact .andThen (consume_leafy r) (ih _)

theorem recover_leafy (r : Reader) (calls : List Place) (place : Place) :
    (r.recover calls place).Leafy := by
  unfold recover
  dsimp only
  refine .andThen ?_ (skipTo_leafy _ _ _)
  split
  · exact consume_leafy r
  · exact .done r

/-- A rule ends with one node, in which its trees are followed by what was skipped. -/
theorem close_trees (rule : Rule) (p : Position) (calls : List Place) (step : Step) :
    ∃ skipped : Step, skipped.Leafy ∧
      (close rule p calls step).trees = [.node rule p (step.trees ++ skipped.trees)] := by
  have hnothing : ∃ skipped : Step, skipped.Leafy ∧
      [Tree.node rule p step.trees] = [.node rule p (step.trees ++ skipped.trees)] :=
    ⟨.done step.reader, .done _, by simp [Step.done]⟩
  cases hfault : step.fault with
  | none =>
    rw [close_of_none rule p calls hfault]
    exact hnothing
  | some fault =>
    obtain ⟨fault, place⟩ := fault
    cases hhalts : fault.halts with
    | true =>
      rw [close_of_halts rule p calls hfault hhalts]
      exact hnothing
    | false =>
      cases hr : step.reader.recovering with
      | true =>
        rw [close_of_recovering rule p calls hfault hhalts hr]
        exact ⟨_, recover_leafy step.reader calls place, rfl⟩
      | false =>
        rw [close_of_calm rule p calls hfault hhalts hr]
        exact hnothing

/-- So the trees of a rule are a node of that rule. -/
theorem close_rule (rule : Rule) (p : Position) (calls : List Place) (step : Step) :
    (close rule p calls step).All fun t => t.rule? = some rule := by
  obtain ⟨skipped, -, htrees⟩ := close_trees rule p calls step
  intro t ht
  rw [htrees] at ht
  rw [List.mem_singleton.mp ht]
  rfl

theorem close_avoids {rule : Rule} (h : rule ≠ .documentedModule) (p : Position)
    (calls : List Place) (step : Step) : (close rule p calls step).Avoids :=
  (close_rule rule p calls step).mono fun t ht => by simpa [ht] using h

theorem item_avoids (r : Reader) : (item r).Avoids := by
  unfold item
  split
  · dsimp only
    split
    · exact (close_avoids (by decide) _ _ _).calledAt _
    · exact (close_avoids (by decide) _ _ _).calledAt _
    · exact Step.All.of_nil rfl
  · exact (close_avoids (by decide) _ _ _).calledAt _

theorem items_avoids (fuel : Nat) (r : Reader) : (items fuel r).Avoids := by
  induction fuel generalizing r with
  | zero => exact .done r
  | succ fuel ih =>
    unfold items
    split
    · exact ((item_avoids r).andThen fun _ => (checkNext_leafy _ _).avoids).andThen ih
    · exact .done r

/-- The module comment that a reader has before it, if any. -/
def front (r : Reader) : List Tree :=
  if r.kind = .moduleComment then [Derivation.moduleComment r.current] else []

theorem moduleComment_eq {r : Reader} (h : r.kind = .moduleComment) (calls : List Place) :
    moduleComment calls r =
      ⟨r.settle.advance, [Derivation.moduleComment r.current], none⟩ := by
  have hexpect : r.expect calls .moduleToken = r.settle.consume := by
    rw [expect, if_pos (by simp [h, Place.expected])]
  rw [moduleComment, hexpect, close_of_none _ _ _ rfl]
  rfl

theorem checkEntry_of_fault_eq_none {r : Reader} {place : Place}
    (h : (r.checkEntry place).fault = none) : r.checkEntry place = .done r := by
  unfold checkEntry at h ⊢
  split
  · rfl
  · next hk =>
    rw [if_neg hk] at h
    dsimp only at h
    split at h
    · cases h
    · cases h

theorem opening_leads (r : Reader) :
    ((r.checkEntry .fileStart).andThen fun r =>
      if r.kind = .moduleComment then (moduleComment [.callModule] r).calledAt .callModule
      else .done r).Leads r.front := by
  by_cases hk : r.kind = .moduleComment
  · have hentry : r.checkEntry .fileStart = .done r := by
      rw [checkEntry, if_pos (.inr (by simp [hk, Place.expected]))]
    rw [hentry, Step.done_andThen, if_pos hk, moduleComment_eq hk, front, if_pos hk]
    exact ⟨[], rfl, by simp⟩
  · rw [front, if_neg hk]
    cases hfault : (r.checkEntry .fileStart).fault with
    | some fault =>
      rw [Step.andThen_of_some hfault]
      exact (checkEntry_leafy r _).avoids.leads
    | none =>
      rw [checkEntry_of_fault_eq_none hfault, Step.done_andThen, if_neg hk]
      exact (Step.Avoids.done r).leads

/-- A file is read as one node. The module comment in front of it is the first child of that node,
and none of the others is one. -/
theorem file_leads (r : Reader) :
    ∃ children, (file r).trees = [.node .file r.current.position (r.front ++ children)] ∧
      ∀ t ∈ children, t.rule? ≠ some .documentedModule := by
  have hleads : (r.untilEnd.andThen fun r => r.expect [] .fileEnd).Leads r.front :=
    (((opening_leads r).andThen fun _ => (checkEntry_leafy _ _).avoids).andThen
      fun _ => items_avoids _ _).andThen fun _ => (expect_leafy _ _ _).avoids
  obtain ⟨read, hread, havoids⟩ := hleads
  obtain ⟨skipped, hskipped, htrees⟩ := close_trees .file r.current.position []
    (r.untilEnd.andThen fun r => r.expect [] .fileEnd)
  refine ⟨read ++ skipped.trees, ?_, List.forall_mem_append.mpr ⟨havoids, hskipped.avoids⟩⟩
  rw [file_eq, htrees, hread, List.append_assoc]

end Reader

/-- The text of a module comment. -/
def Item.moduleText? : Item → Option String
  | moduleComment text => some text
  | _ => none

theorem Item.moduleText?_eq_none {t : Tree} {it : Item} (ht : t.rule? ≠ some .documentedModule)
    (h : Item.ofTree? t = some it) : it.moduleText? = none := by
  unfold ofTree? at h
  split at h
  · simp [Tree.rule?] at ht
  · simp only [Option.bind_eq_some_iff, Option.map_eq_some_iff] at h
    obtain ⟨comment, -, command, -, c, -, rfl⟩ := h
    rfl
  · cases h
    rfl
  · obtain ⟨command, -, rfl⟩ := Option.map_eq_some_iff.mp h
    rfl

namespace Reader

/-- The text of the module comment that a reader has before it. -/
def moduleText? (r : Reader) : Option String :=
  if r.kind = .moduleComment then some r.current.text else none

theorem items_front (r : Reader) :
    r.front.filterMap Item.ofTree? = r.moduleText?.toList.map .moduleComment := by
  unfold front moduleText?
  split
  · next hk =>
    rw [List.filterMap_cons_some (ofTree?_moduleComment hk)]
    rfl
  · rfl

/-- Of the items of a file only the first can be a module comment, and it is one just if the text
begins with one. -/
theorem file_items (r : Reader) :
    ∃ tree others, (file r).tree? = some tree ∧
      Item.ofFile tree = r.moduleText?.toList.map .moduleComment ++ others ∧
      ∀ it ∈ others, it.moduleText? = none := by
  obtain ⟨children, htrees, havoids⟩ := file_leads r
  refine ⟨_, children.filterMap Item.ofTree?, by rw [Step.tree?, htrees, List.head?_cons], ?_, ?_⟩
  · rw [Item.ofFile, Tree.children, List.filterMap_append, items_front]
  · intro it hit
    obtain ⟨t, ht, hitem⟩ := List.mem_filterMap.mp hit
    exact Item.moduleText?_eq_none (havoids t ht) hitem

end Reader

end CMakeDocs
