import CMakeDocs.Proofs.Reading.Stream
import Mathlib.Tactic.SplitIfs

/-!
# What no step of a reader loses

Whatever a reader meets, also while it recovers from a fault, it goes on from a state in which it
can go on again, keeps every report, and passes each token into the tree once and in order. This
holds of every rule because it holds of the few things they are made of.
-/
namespace CMakeDocs

open CMakeDocs.Tree

/-- The tokens without those that end the text. -/
def written (ts : List Token) : List Token := ts.filter fun t => t.kind ≠ .endOfText

@[simp] theorem written_nil : written [] = [] := rfl

@[simp] theorem written_append (ts us : List Token) :
    written (ts ++ us) = written ts ++ written us := List.filter_append ..

theorem written_cons_end {t : Token} (h : t.kind = .endOfText) (ts : List Token) :
    written (t :: ts) = written ts := by simp [written, h]

theorem written_cons {t : Token} (h : t.kind ≠ .endOfText) (ts : List Token) :
    written (t :: ts) = t :: written ts := by simp [written, h]

/-- A step that starts from a reader leads to a ready one. It may add reports, and what it has
passed is in its trees. -/
structure Step.Follows (step : Step) (r : Reader) : Prop where
  ready : step.reader.Ready
  account_sub : r.account.Sublist step.reader.account
  written_eq : written r.tokens = written (leavesOfList step.trees) ++ written step.reader.tokens

namespace Step.Follows

variable {step : Step} {r r' : Reader}

theorem done (h : r.Ready) : (Step.done r).Follows r := ⟨h, .refl _, by simp [Step.done]⟩

/-- A step that starts from a reader with the same tokens and the same reports. -/
theorem of_same (h : step.Follows r') (ht : r'.tokens = r.tokens) (ha : r'.account = r.account) :
    step.Follows r := ⟨h.ready, ha ▸ h.account_sub, ht ▸ h.written_eq⟩

theorem andThen (h : step.Follows r) {next : Reader → Step}
    (hn : ∀ r' : Reader, r'.Ready → (next r').Follows r') : (step.andThen next).Follows r := by
  unfold Step.andThen
  split
  · exact h
  · have hnext := hn step.reader h.ready
    refine ⟨hnext.ready, h.account_sub.trans hnext.account_sub, ?_⟩
    rw [h.written_eq, hnext.written_eq]
    simp

theorem calledAt (h : step.Follows r) (place : Place) : (step.calledAt place).Follows r :=
  ⟨h.ready, h.account_sub, h.written_eq⟩

end Step.Follows

namespace Reader

variable {r : Reader}

theorem consume_follows (h : r.Ready) : r.consume.Follows r := by
  refine ⟨h.advance, (advance_account h).symm ▸ .refl _, ?_⟩
  have hleaves : leavesOfList r.consume.trees = [r.current] := by
    unfold consume
    split <;> simp [leaves]
  obtain ⟨rest, ht⟩ := h.tokens_eq
  have he := h.ended
  rw [hleaves, consume, ht]
  rw [ht] at he
  cases he with
  | last hl =>
    rw [advance_eq_self ht, ht]
    simp [written_cons_end hl]
  | cons hk hs =>
    obtain ⟨u, us, rfl⟩ := hs.exists_cons
    rw [advance_tokens ht, written_cons hk, written_cons hk]
    simp

theorem settle_consume_follows (h : r.Ready) : r.settle.consume.Follows r :=
  (consume_follows h.settle.toReady).of_same rfl rfl

/-- A reader that has printed a report of its own. -/
theorem print_account (r : Reader) (report : Report) :
    r.account.Sublist (r.print report).account ∧
      (r.print report).account.length = r.account.length + 1 := by
  constructor
  · simp [account, print]
  · simp only [account, print, List.length_append, List.length_singleton]
    omega

theorem unwanted_follows (h : r.Ready) (place : Place) : (r.unwanted place).Follows r :=
  ⟨⟨h.looked, h.ended⟩, (r.print_account _).1, by simp [unwanted, print, tokens]⟩

theorem lacking_follows (h : r.Ready) (place : Place) : (r.lacking place).Follows r :=
  ⟨⟨h.looked, h.ended⟩, (r.print_account _).1, by simp [lacking, print, tokens]⟩

theorem mismatched_follows (h : r.Ready) (place : Place) : (r.mismatched place).Follows r :=
  ⟨h, .refl _, by simp [mismatched]⟩

theorem checkEntry_follows (h : r.Ready) (place : Place) : (r.checkEntry place).Follows r := by
  unfold checkEntry
  split
  · exact .done h
  · dsimp only
    split
    · exact (unwanted_follows (h.look 2) place).of_same (by simp) (by simp)
    · exact (mismatched_follows (h.look 2) place).of_same (by simp) (by simp)

theorem checkNext_follows (h : r.Ready) (place : Place) : (r.checkNext place).Follows r := by
  unfold checkNext
  split
  · exact .done h
  · exact unwanted_follows h place

/-- A mark for a token that should have stood there takes no token. -/
theorem missing_follows (h : r.Ready) (kinds : List TokenKind) :
    (Step.mk r (kinds.map .missing) none).Follows r := by
  have hleaves : leavesOfList (kinds.map Tree.missing) = [] := by
    induction kinds with
    | nil => simp
    | cons k ks ih => simp [leaves, ih]
  exact ⟨h, .refl _, by simp [hleaves]⟩

theorem expect_follows (h : r.Ready) (calls : List Place) (place : Place) :
    (r.expect calls place).Follows r := by
  have hlook := h.look 2
  unfold expect
  split
  · exact settle_consume_follows h
  · dsimp only
    split_ifs
    · exact ((consume_follows hlook).andThen fun r' h' => settle_consume_follows h').of_same
        (by simp) (by simp)
    · exact (unwanted_follows hlook place).of_same (by simp) (by simp)
    · exact (missing_follows hlook _).of_same (by simp) (by simp)
    · exact (lacking_follows hlook place).of_same (by simp) (by simp)
    · exact (mismatched_follows hlook place).of_same (by simp) (by simp)

theorem skipTo_follows (kinds : List TokenKind) (fuel : Nat) (h : r.Ready) :
    (skipTo kinds fuel r).Follows r := by
  induction fuel generalizing r with
  | zero => exact .done h
  | succ fuel ih =>
    unfold skipTo
    split
    · exact .done h
    · exact (consume_follows h).andThen fun r' h' => ih h'

theorem recover_follows (h : r.Ready) (calls : List Place) (place : Place) :
    (r.recover calls place).Follows r := by
  unfold recover
  dsimp only
  refine Step.Follows.andThen ?_ fun r' h' => ?_
  · split
    · exact consume_follows h
    · exact .done h
  · have hready : Ready { r' with
        faultIndex := some r'.index, faultPlaces := place :: r'.faultPlaces } :=
      ⟨h'.looked, h'.ended⟩
    exact (skipTo_follows _ _ hready).of_same rfl rfl

theorem reportFault_account (r : Reader) (fault : Fault) :
    r.account.Sublist (r.reportFault fault).account ∧
      (r.reportFault fault).account.length = r.account.length + 1 := by
  unfold reportFault
  cases fault with
  | noChoice ts t =>
    have hprint := r.lookAtAll.print_account (Fault.noChoice ts t).report
    rw [show r.lookAtAll.account = r.account from r.look_account _] at hprint
    exact hprint
  | halt report => exact r.print_account _
  | mismatch t kinds => exact r.print_account _

theorem reportFault_tokens (r : Reader) (fault : Fault) :
    (r.reportFault fault).tokens = r.tokens := by
  cases fault with
  | noChoice ts t => exact r.look_tokens _
  | halt report => rfl
  | mismatch t kinds => rfl

theorem Ready.reportFault (h : r.Ready) (fault : Fault) : (r.reportFault fault).Ready := by
  refine ⟨?_, by rw [reportFault_tokens]; exact h.ended⟩
  cases fault with
  | noChoice ts t => exact (h.look _).looked
  | halt report => exact h.looked
  | mismatch t kinds => exact h.looked

/-- Ending a rule loses nothing either, whether its fault is passed on or recovered from. -/
theorem close_conserves {step : Step} (h : step.reader.Ready) (rule : Rule) (p : Position)
    (calls : List Place) :
    (close rule p calls step).reader.Ready ∧
      step.reader.account.Sublist (close rule p calls step).reader.account ∧
      written (leavesOfList step.trees) ++ written step.reader.tokens =
        written (leavesOfList (close rule p calls step).trees) ++
          written (close rule p calls step).reader.tokens := by
  cases hf : step.fault with
  | none =>
    rw [close_of_none rule p calls hf]
    exact ⟨h, .refl _, by simp⟩
  | some found =>
    obtain ⟨fault, place⟩ := found
    cases hh : fault.halts with
    | true =>
      rw [close_of_halts rule p calls hf hh]
      exact ⟨h, .refl _, by simp⟩
    | false =>
      cases hr : step.reader.recovering with
      | true =>
        have hrecover := recover_follows h calls place
        rw [close_of_recovering rule p calls hf hh hr]
        exact ⟨hrecover.ready, hrecover.account_sub, by simp [hrecover.written_eq]⟩
      | false =>
        rw [close_of_calm rule p calls hf hh hr]
        exact ⟨h.reportFault fault, (step.reader.reportFault_account fault).1,
          by simp [reportFault_tokens]⟩

end Reader

theorem Step.Follows.close {step : Step} {r : Reader} (h : step.Follows r) (rule : Rule)
    (p : Position) (calls : List Place) : (Reader.close rule p calls step).Follows r := by
  obtain ⟨hready, haccount, hwritten⟩ := Reader.close_conserves h.ready rule p calls
  exact ⟨hready, h.account_sub.trans haccount, h.written_eq.trans hwritten⟩

namespace Reader

variable {r : Reader}

theorem argument_follows (h : r.Ready) (calls : List Place) : (argument calls r).Follows r :=
  (expect_follows h _ _).close _ _ _

theorem comment_follows (h : r.Ready) (calls : List Place) : (comment calls r).Follows r :=
  (expect_follows h _ _).close _ _ _

theorem moduleComment_follows (h : r.Ready) (calls : List Place) :
    (moduleComment calls r).Follows r :=
  (expect_follows h _ _).close _ _ _

/-- Lists and their arguments, by the number of rounds that are left. -/
theorem lists_follow (fuel : Nat) :
    (∀ (owner : ListOwner) (calls : List Place) (r : Reader), r.Ready →
      (arguments fuel owner calls r).Follows r) ∧
    ∀ (calls : List Place) (r : Reader), r.Ready → (group fuel calls r).Follows r := by
  induction fuel with
  | zero =>
    constructor
    · intro owner calls r h
      rw [arguments]
      exact .done h
    · intro calls r h
      rw [group]
      exact .done h
  | succ fuel ih =>
    constructor
    · intro owner calls r h
      have hrest {step : Step} (hs : step.Follows r) :
          ((step.andThen fun r => r.checkNext (.listNext owner)).andThen
            (arguments fuel owner calls)).Follows r :=
        (hs.andThen fun r' h' => checkNext_follows h' _).andThen fun r' h' =>
          ih.1 owner calls r' h'
      rw [arguments]
      by_cases ha : r.kind.isArgument = true
      · simp only [ha, if_true]
        exact hrest ((argument_follows h _).calledAt _)
      by_cases hl : r.kind = .leftParen
      · simp only [hl, TokenKind.isArgument]
        exact hrest ((ih.2 _ r h).calledAt _)
      · simp only [ha, hl, if_false]
        exact .done h
    · intro calls r h
      rw [group]
      refine Step.Follows.close ?_ _ _ _
      exact (((expect_follows h _ _).andThen fun r' h' => checkEntry_follows h' _).andThen
        fun r' h' => ih.1 _ _ r' h').andThen fun r' h' => expect_follows h' _ _

theorem command_follows (h : r.Ready) (calls : List Place) : (command calls r).Follows r := by
  refine Step.Follows.close ?_ _ _ _
  exact ((((expect_follows h _ _).andThen fun r' h' => expect_follows h' _ _).andThen
    fun r' h' => checkEntry_follows h' _).andThen
    fun r' h' => (lists_follow _).1 _ _ r' h').andThen fun r' h' => expect_follows h' _ _

theorem documentedCommand_follows (h : r.Ready) (calls : List Place) :
    (documentedCommand calls r).Follows r := by
  refine Step.Follows.close ?_ _ _ _
  exact ((comment_follows h _).calledAt _).andThen fun r' h' => (command_follows h' _).calledAt _

theorem item_follows (h : r.Ready) : (item r).Follows r := by
  unfold item
  split
  · dsimp only
    have hlook := h.look ((outlook ((r.cells.map Cell.token).tail.map Token.kind)).2 + 1)
    split
    · exact ((documentedCommand_follows hlook _).calledAt _).of_same (by simp) (by simp)
    · exact ((comment_follows hlook _).calledAt _).of_same (by simp) (by simp)
    · exact ⟨hlook, by simp, by simp⟩
  · exact (command_follows h _).calledAt _

theorem items_follows (fuel : Nat) (h : r.Ready) : (items fuel r).Follows r := by
  induction fuel generalizing r with
  | zero => exact .done h
  | succ fuel ih =>
    unfold items
    split
    · exact ((item_follows h).andThen fun r' h' => checkNext_follows h' _).andThen
        fun r' h' => ih h'
    · exact .done h

/-- The rule of a file up to the end of the text, which it expects last. -/
def untilEnd (r : Reader) : Step :=
  (((r.checkEntry .fileStart).andThen fun r =>
    if r.kind = .moduleComment then
      (moduleComment [.callModule] r).calledAt .callModule
    else .done r).andThen
    fun r => r.checkEntry .fileItems).andThen
    fun r => items r.cells.length r

theorem file_eq (r : Reader) :
    file r = close .file r.current.position []
      (r.untilEnd.andThen fun r => r.expect [] .fileEnd) := rfl

theorem untilEnd_follows (h : r.Ready) : r.untilEnd.Follows r := by
  refine (((checkEntry_follows h _).andThen fun r' h' => ?_).andThen fun r' h' =>
    checkEntry_follows h' _).andThen fun r' h' => items_follows _ h'
  split
  · exact (moduleComment_follows h' _).calledAt _
  · exact .done h'

theorem file_follows (h : r.Ready) : (file r).Follows r :=
  ((untilEnd_follows h).andThen fun _ h' => expect_follows h' _ _).close _ _ _

theorem Ready.tokens_eq_of_endOfText (h : r.Ready) (hk : r.kind = .endOfText) :
    r.tokens = [r.current] := by
  obtain ⟨rest, ht⟩ := h.tokens_eq
  have he := h.ended
  rw [ht] at he ⊢
  cases he with
  | last _ => rfl
  | cons hne _ => exact absurd hk hne

theorem consume_kind_of_endOfText (h : r.Ready) (hk : r.kind = .endOfText) :
    r.consume.reader.kind = .endOfText := by
  rw [consume, advance_eq_self (h.tokens_eq_of_endOfText hk)]
  exact hk

/-- Where there is nothing to stop at, skipping ends with the text. -/
theorem skipTo_nil_kind (fuel : Nat) (h : r.Ready) (hfuel : r.tokens.length ≤ fuel + 1) :
    (skipTo [] fuel r).reader.kind = .endOfText := by
  induction fuel generalizing r with
  | zero =>
    obtain ⟨rest, ht⟩ := h.tokens_eq
    have he := h.ended
    rw [ht] at he hfuel
    cases he with
    | last hl => exact hl
    | cons _ hs =>
      obtain ⟨u, us, rfl⟩ := hs.exists_cons
      simp at hfuel
  | succ fuel ih =>
    rw [skipTo]
    split
    · next hk => simpa [Step.done] using hk
    · next hk =>
      rw [Step.andThen_of_none rfl]
      refine ih h.advance ?_
      obtain ⟨rest, ht⟩ := h.tokens_eq
      have he := h.ended
      rw [ht] at he hfuel
      obtain ⟨u, us, rfl⟩ := (he.tail fun hend => hk (.inl hend)).exists_cons
      rw [consume, advance_tokens ht]
      simpa using hfuel

theorem recover_nil_kind (h : r.Ready) (place : Place) :
    (r.recover [] place).reader.kind = .endOfText := by
  have hskip {r' : Reader} (h' : r'.Ready) : (skipTo [] r'.cells.length { r' with
      faultIndex := some r'.index, faultPlaces := place :: r'.faultPlaces }).reader.kind =
        .endOfText :=
    skipTo_nil_kind _ ⟨h'.looked, h'.ended⟩ (by simp [tokens])
  unfold recover
  dsimp only
  split
  · rw [Step.andThen_of_none rfl]
    exact hskip h.advance
  · rw [Step.andThen_of_none rfl]
    exact hskip h

theorem expect_fileEnd_kind (h : r.Ready) (hf : (r.expect [] .fileEnd).fault = none) :
    (r.expect [] .fileEnd).reader.kind = .endOfText := by
  by_cases hk : r.kind ∈ Place.fileEnd.expected
  · rw [expect, if_pos hk]
    exact consume_kind_of_endOfText h.settle.toReady (List.mem_singleton.mp hk)
  -- The text goes on, so the reader gets past the current token only while it recovers.
  · obtain ⟨rest, ht⟩ := h.tokens_eq
    have he := h.ended
    rw [ht] at he
    obtain ⟨u, us, rfl⟩ := (he.tail fun hend => hk (List.mem_singleton.mpr hend)).exists_cons
    have hlook : (r.look 2).tokens = r.current :: u :: us := by rw [look_tokens, ht]
    have hafter : (r.look 2).kind ∉ Place.fileEnd.afterToken [] := by
      rw [kind_eq hlook]
      exact hk
    rw [expect, if_neg hk] at hf ⊢
    dsimp only at hf ⊢
    rw [if_neg hafter] at hf ⊢
    rw [nextKind_eq hlook] at hf ⊢
    split_ifs at hf ⊢ with hu hr
    · have hready := (h.look 2).advance
      have hlast : (r.look 2).advance.kind = .endOfText :=
        (kind_eq (advance_tokens hlook)).trans (List.mem_singleton.mp hu)
      rw [Step.andThen_of_none rfl]
      exact consume_kind_of_endOfText hready.settle.toReady hlast
    · cases hf
    · cases hf

/-- A file that is left without a fault is left at the end of the text. -/
theorem file_kind (h : r.Ready) (hf : (file r).fault = none) :
    (file r).reader.kind = .endOfText := by
  rw [file_eq] at hf ⊢
  have hstep := (untilEnd_follows h).andThen fun r' h' => expect_follows h' [] .fileEnd
  generalize hs : r.untilEnd.andThen (fun r => r.expect [] .fileEnd) = step at hf hstep ⊢
  cases hfault : step.fault with
  | none =>
    rw [close_of_none _ _ _ hfault]
    subst hs
    cases hu : r.untilEnd.fault with
    | none =>
      rw [Step.andThen_of_none hu] at hfault ⊢
      exact expect_fileEnd_kind (untilEnd_follows h).ready hfault
    | some found => rw [Step.andThen_of_some hu, hu] at hfault; cases hfault
  | some found =>
    obtain ⟨fault, place⟩ := found
    cases hh : fault.halts with
    | true =>
      rw [close_of_halts _ _ _ hfault hh, hfault] at hf
      cases hf
    | false =>
      cases hr : step.reader.recovering with
      | true =>
        rw [close_of_recovering _ _ _ hfault hh hr]
        exact recover_nil_kind hstep.ready place
      | false =>
        rw [close_of_calm _ _ _ hfault hh hr] at hf
        cases hf

end Reader

end CMakeDocs
