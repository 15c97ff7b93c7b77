import CMakeDocs.Proofs.Collecting.Classes
import Mathlib.Data.List.Induction

/-!
# Runs item by item

A run is an item behind a shorter run. A run without an error passes all its items, one after the
other, and what it has reached before an item does not depend on what comes later.
-/
namespace CMakeDocs.Collector

variable {s : Settings} {c c' : Collector} {is : List Item} {it : Item}

/-- What an item makes of a collector, or why it cannot be dealt with. -/
def pass (s : Settings) (c : Collector) : Item → Except CollectError Collector
  | .moduleComment text =>
    .ok (c.append (.moduleDoc (Comment.moduleParts text).1 (some (Comment.moduleParts text).2)))
  | .documented comment command => do
    let recorded ← record s (Comment.clean comment) command c
    let followed ← follow s true command recorded.1
    .ok followed.1
  | .plain command => do
    let followed ← follow s false command c
    .ok followed.1
  | .strayComment => .ok c

theorem pass_documented {comment : String} {command : Command} :
    pass s c (.documented comment command) = .ok c' ↔
      ∃ c₁ logs₁ logs₂, record s (Comment.clean comment) command c = .ok (c₁, logs₁) ∧
        follow s true command c₁ = .ok (c', logs₂) := by
  simp only [pass, bind, Except.bind]
  cases hr : record s (Comment.clean comment) command c with
  | error e => simp
  | ok recorded =>
    obtain ⟨c₁, logs₁⟩ := recorded
    dsimp only
    cases hf : follow s true command c₁ with
    | error e =>
      simp only [reduceCtorEq, Except.ok.injEq, Prod.mk.injEq, false_iff]
      rintro ⟨_, _, _, ⟨rfl, rfl⟩, h⟩
      rw [hf] at h
      cases h
    | ok followed =>
      obtain ⟨c₂, logs₂⟩ := followed
      constructor
      · intro h
        cases h
        exact ⟨c₁, logs₁, logs₂, rfl, hf⟩
      · rintro ⟨_, _, _, h₁, h₂⟩
        cases h₁
        rw [hf] at h₂
        cases h₂
        rfl

theorem pass_plain {command : Command} :
    pass s c (.plain command) = .ok c' ↔ ∃ logs, follow s false command c = .ok (c', logs) := by
  simp only [pass, bind, Except.bind]
  cases hf : follow s false command c with
  | error e => simp
  | ok followed =>
    obtain ⟨c₁, logs⟩ := followed
    simp

theorem items_concat (s : Settings) (is : List Item) (it : Item) (c : Collector) :
    items s (is ++ [it]) c = item s (items s is c) it := by
  simp [items, List.foldl_append]

/-- An item without an error has been passed. -/
theorem pass_of_error_none {p : Progress} (h : (item s p it).error = none) :
    p.error = none ∧ pass s p.collector it = .ok (item s p it).collector := by
  cases it with
  | moduleComment text =>
    obtain ⟨hp, -⟩ := item_passes h
    refine ⟨hp, ?_⟩
    simp [pass, item, Progress.append, hp]
  | documented comment command =>
    obtain ⟨hp₁, logs₂, hf⟩ := step_of_error_none h
    obtain ⟨hp, logs₁, hr⟩ := step_of_error_none hp₁
    exact ⟨hp, pass_documented.mpr ⟨_, logs₁, logs₂, hr, hf⟩⟩
  | plain command =>
    obtain ⟨hp, logs, hf⟩ := step_of_error_none h
    exact ⟨hp, pass_plain.mpr ⟨logs, hf⟩⟩
  | strayComment =>
    obtain ⟨hp, -⟩ := item_passes h
    refine ⟨hp, ?_⟩
    simp [pass, item, Progress.say, hp]

/-- An item that can be passed leaves no error. -/
theorem item_of_pass {p : Progress} (hp : p.error = none) (h : pass s p.collector it = .ok c') :
    (item s p it).error = none ∧ (item s p it).collector = c' := by
  cases it with
  | moduleComment text =>
    cases h
    simp [item, Progress.append, hp]
  | documented comment command =>
    obtain ⟨c₁, logs₁, logs₂, hr, hf⟩ := pass_documented.mp h
    simp [item, followCommand, Progress.step, hp, hr, hf]
  | plain command =>
    obtain ⟨logs, hf⟩ := pass_plain.mp h
    simp [item, followCommand, Progress.step, hp, hf]
  | strayComment =>
    cases h
    simp [item, Progress.say, hp]

theorem items_concat_error_none (h : (items s (is ++ [it]) c).error = none) :
    (items s is c).error = none ∧
      pass s (items s is c).collector it = .ok (items s (is ++ [it]) c).collector := by
  rw [items_concat] at h ⊢
  exact pass_of_error_none h

theorem items_concat_of_pass (h : (items s is c).error = none)
    (hp : pass s (items s is c).collector it = .ok c') :
    (items s (is ++ [it]) c).error = none ∧ (items s (is ++ [it]) c).collector = c' := by
  rw [items_concat]
  exact item_of_pass h hp

/-- The collector after a number of items. -/
def reached (s : Settings) (is : List Item) (k : Nat) : Collector :=
  (items s (is.take k) empty).collector

theorem reached_length (s : Settings) (is : List Item) :
    reached s is is.length = (items s is empty).collector := by
  rw [reached, List.take_length]

/-- What comes later does not matter for what has been reached. -/
theorem reached_concat {k : Nat} (h : k ≤ is.length) :
    reached s (is ++ [it]) k = reached s is k := by
  rw [reached, reached, List.take_append_of_le_length h]

/-- A run without an error passes each of its items. -/
theorem pass_reached {k : Nat} (h : (items s is empty).error = none) (hk : is[k]? = some it) :
    pass s (reached s is k) it = .ok (reached s is (k + 1)) := by
  obtain ⟨hlt, rfl⟩ := List.getElem?_eq_some_iff.mp hk
  have hsplit : is = is.take (k + 1) ++ is.drop (k + 1) := (List.take_append_drop _ _).symm
  have htake : is.take (k + 1) = is.take k ++ [is[k]] := List.take_succ_eq_append_getElem hlt
  rw [items, hsplit, List.foldl_append] at h
  have hprefix : (items s (is.take (k + 1)) empty).error = none := run_error_none h
  rw [htake] at hprefix
  rw [reached, reached, htake]
  exact (items_concat_error_none hprefix).2

end CMakeDocs.Collector
