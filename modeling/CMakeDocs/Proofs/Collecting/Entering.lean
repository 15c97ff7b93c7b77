import CMakeDocs.Proofs.Collecting.Frozen
import CMakeDocs.Proofs.Collecting.Nesting

/-!
# Entries for good

A run that comes to an item goes on behind it if the item can be passed. What the item has added to
the entries then stays there, under the same numbers and with all that it says, whatever items
follow and wherever the run may stop. For the commands that stand for themselves, recording is all
that there is to do.
-/
namespace CMakeDocs

namespace Collector

variable {s : Settings} {c c' : Collector} {before : List Item} {it : Item} {doc : String}
  {command : Command} {logs : List LogRecord} {added : List Entry}

/-- An item is passed as its command is recorded, with a comment or without one. -/
theorem pass_of_recorded (hk : command.kind.isSettled = true)
    (hit : it.recorded? s = some (doc, command))
    (hr : record s doc command c = .ok (c', logs)) : pass s c it = .ok c' := by
  cases it with
  | documented comment other =>
    cases hit
    exact pass_documented.mpr ⟨c', logs, [], hr, by rw [follow_settled hk, if_pos rfl]⟩
  | plain other =>
    by_cases hi : s.includes other.kind = true
    · rw [Item.recorded?_plain hi] at hit
      cases hit
      rw [← isRecorded_of_settled hk c.awaiting.isSome] at hi
      exact pass_plain.mpr ⟨logs, (follow_of_isRecorded hi).trans hr⟩
    · simp [Item.recorded?, hi] at hit
  | moduleComment text => cases hit
  | strayComment => cases hit

/-- A run that has come to an item goes on behind it with some entries more, and what they say
lasts whatever items follow. -/
structure Enters (s : Settings) (c : Collector) (before : List Item) (it : Item)
    (added : List Entry) : Prop where
  goes_on : (items s (before ++ [it]) c).error = none
  entries_eq : (items s (before ++ [it]) c).collector.entries =
    (items s before c).collector.entries ++ added
  lasts : ∀ (after : List Item) (j : Nat) (e : Entry), added[j]? = some e →
    ∃ e', (items s (before ++ it :: after) c).collector.entries[
      (items s before c).collector.next + j]? = some e' ∧ e.Lasts e'

theorem enters_of_pass (hfree : (items s before c).error = none)
    (hpass : pass s (items s before c).collector it = .ok c')
    (hadded : c'.entries = (items s before c).collector.entries ++ added) :
    Enters s c before it added := by
  obtain ⟨herror, rfl⟩ := items_concat_of_pass hfree hpass
  refine ⟨herror, hadded, fun after j e he => ?_⟩
  have hrest : items s (before ++ it :: after) c =
      after.foldl (item s) (items s (before ++ [it]) c) := by
    simp only [items, List.foldl_append, List.foldl_cons, List.foldl_nil]
  rw [hrest]
  refine (reaches_foldl s (items s (before ++ [it]) c) after).lasts ?_
  rw [hadded, next, List.getElem?_append_right (Nat.le_add_right _ _), Nat.add_sub_cancel_left]
  exact he

end Collector

end CMakeDocs
