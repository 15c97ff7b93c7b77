import CMakeDocs.Proofs.Grammar
import CMakeDocs.Reader.Rules

/-!
# What a reader has before it

A reader is seen here as two lists: the tokens from its current one on, and all reports, those it
has printed and those that still wait in its cells. Looking ahead changes neither of them, passing
a token takes one off the first, and only a fault adds to the second.
-/
namespace CMakeDocs

/-- The end of the text is the last token, and there is no other one. -/
inductive Ended : List Token → Prop where
  | last {t : Token} (ht : t.kind = .endOfText) : Ended [t]
  | cons {t : Token} {ts : List Token} (ht : t.kind ≠ .endOfText) (hs : Ended ts) :
      Ended (t :: ts)

theorem Ended.exists_cons {ts : List Token} (h : Ended ts) : ∃ t us, ts = t :: us := by
  cases h with
  | last _ => exact ⟨_, _, rfl⟩
  | cons _ _ => exact ⟨_, _, rfl⟩

theorem Ended.tail {t : Token} {ts : List Token} (h : Ended (t :: ts))
    (ht : t.kind ≠ .endOfText) : Ended ts := by
  cases h with
  | last hl => exact absurd hl ht
  | cons _ hs => exact hs

theorem Ended.append {ts us : List Token} (ht : ∀ t ∈ ts, t.kind ≠ .endOfText) (hu : Ended us) :
    Ended (ts ++ us) := by
  induction ts with
  | nil => exact hu
  | cons t ts ih =>
    exact .cons (ht t List.mem_cons_self) (ih fun u h => ht u (List.mem_cons_of_mem t h))

/-- The tokens of a valid file end where the text does. -/
theorem Grammar.File.ended {tokens : List Token} (h : Grammar.File (tokens.map Token.kind)) :
    Ended tokens := by
  generalize hk : tokens.map Token.kind = kinds at h
  have hitems {body tail : List Token} (hi : Grammar.Items (body.map Token.kind))
      (ht : tail.map Token.kind = [.endOfText]) : Ended (body ++ tail) := by
    obtain ⟨last, rest, rfl, hl, hr⟩ := List.map_eq_cons_iff.mp ht
    rw [List.map_eq_nil_iff.mp hr]
    exact .append (fun t h => hi.ne_endOfText _ (List.mem_map_of_mem h)) (.last hl)
  cases h with
  | plain hi =>
    obtain ⟨body, tail, rfl, rfl, htail⟩ := List.map_eq_append_iff.mp hk
    exact hitems hi htail
  | withModule hi =>
    obtain ⟨m, others, rfl, hm, hothers⟩ := List.map_eq_cons_iff.mp hk
    obtain ⟨body, tail, rfl, rfl, htail⟩ := List.map_eq_append_iff.mp hothers
    exact .cons (by simp [hm]) (hitems hi htail)

namespace Reader

/-- The tokens from the current one on. -/
def tokens (r : Reader) : List Token := r.cells.map Cell.token

/-- The reports that a reader has printed and those that wait in its cells. -/
def account (r : Reader) : List Report := r.reports ++ r.cells.flatMap Cell.reports

/-- The reader has looked at its current token, and its last token ends the text. -/
structure Ready (r : Reader) : Prop where
  looked : ∀ cell ∈ r.cells.head?, cell.reports = []
  ended : Ended r.tokens

/-- A ready reader that recovers from nothing. -/
structure Calm (r : Reader) : Prop extends Ready r where
  settled : r.settle = r

theorem Calm.recovering {r : Reader} (h : r.Calm) : r.recovering = false := by
  rw [← h.settled]
  rfl

/-- The reader at the first of some cells. -/
def ofCells (cells : List Cell) : Reader := look ⟨cells, 0, [], false, none, []⟩ 1

theorem start_eq_ofCells (text : String) : start text = ofCells (Cell.ofText text) := rfl

theorem takeReports_tokens (n : Nat) (cells : List Cell) :
    (takeReports n cells).2.map Cell.token = cells.map Cell.token := by
  induction n generalizing cells with
  | zero => simp [takeReports]
  | succ n ih => cases cells <;> simp [takeReports, ih]

theorem takeReports_reports (n : Nat) (cells : List Cell) :
    (takeReports n cells).1 ++ (takeReports n cells).2.flatMap Cell.reports =
      cells.flatMap Cell.reports := by
  induction n generalizing cells with
  | zero => simp [takeReports]
  | succ n ih => cases cells <;> simp [takeReports, ih]

@[simp] theorem look_tokens (r : Reader) (n : Nat) : (r.look n).tokens = r.tokens :=
  takeReports_tokens n r.cells

@[simp] theorem look_account (r : Reader) (n : Nat) : (r.look n).account = r.account := by
  simp [look, account, ← takeReports_reports n r.cells]

theorem look_looked (r : Reader) (n : Nat) :
    ∀ cell ∈ (r.look (n + 1)).cells.head?, cell.reports = [] := by
  cases h : r.cells <;> simp [look, takeReports, h]

theorem Ready.look {r : Reader} (h : r.Ready) (n : Nat) : (r.look n).Ready := by
  refine ⟨?_, by simpa using h.ended⟩
  cases n with
  | zero => exact h.looked
  | succ n => exact r.look_looked n

theorem Calm.look {r : Reader} (h : r.Calm) (n : Nat) : (r.look n).Calm := by
  refine ⟨h.toReady.look n, ?_⟩
  have hs := h.settled
  simp only [settle, Reader.look] at hs ⊢
  rw [Reader.mk.injEq] at hs
  simp [hs.2.2.2.1, hs.2.2.2.2.1, hs.2.2.2.2.2]

@[simp] theorem ofCells_tokens (cells : List Cell) :
    (ofCells cells).tokens = cells.map Cell.token := by
  rw [ofCells, look_tokens]
  rfl

@[simp] theorem ofCells_account (cells : List Cell) :
    (ofCells cells).account = cells.flatMap Cell.reports := by
  rw [ofCells, look_account]
  rfl

theorem ofCells_calm {cells : List Cell} (h : Ended (cells.map Cell.token)) :
    (ofCells cells).Calm where
  looked := look_looked _ 0
  ended := by simpa using h
  settled := rfl

theorem current_eq {r : Reader} {t : Token} {rest : List Token} (h : r.tokens = t :: rest) :
    r.current = t := by
  obtain ⟨cell, cells, hc, rfl, -⟩ := List.map_eq_cons_iff.mp h
  simp [current, hc]

theorem kind_eq {r : Reader} {t : Token} {rest : List Token} (h : r.tokens = t :: rest) :
    r.kind = t.kind := by
  rw [kind, current_eq h]

theorem nextKind_eq {r : Reader} {t u : Token} {rest : List Token}
    (h : r.tokens = t :: u :: rest) : r.nextKind = u.kind := by
  obtain ⟨cell, cells, hc, -, hcs⟩ := List.map_eq_cons_iff.mp h
  obtain ⟨next, others, rfl, rfl, -⟩ := List.map_eq_cons_iff.mp hcs
  simp [nextKind, hc]

theorem Ready.tokens_eq {r : Reader} (h : r.Ready) : ∃ rest, r.tokens = r.current :: rest := by
  obtain ⟨t, rest, ht⟩ := h.ended.exists_cons
  exact ⟨rest, by rw [ht, current_eq ht]⟩

/-- At the end of the text no report waits any more. -/
theorem Ready.reports_eq_account {r : Reader} (h : r.Ready) {t : Token} (ht : r.tokens = [t]) :
    r.reports = r.account := by
  obtain ⟨cell, cells, hc, -, hcs⟩ := List.map_eq_cons_iff.mp ht
  have hnil : cells = [] := List.map_eq_nil_iff.mp hcs
  have hl : cell.reports = [] := h.looked cell (by simp [hc])
  simp [account, hc, hnil, hl]

theorem advance_tokens {r : Reader} {t u : Token} {rest : List Token}
    (h : r.tokens = t :: u :: rest) : r.advance.tokens = u :: rest := by
  obtain ⟨cell, cells, hc, rfl, hcs⟩ := List.map_eq_cons_iff.mp h
  obtain ⟨next, others, rfl, rfl, hos⟩ := List.map_eq_cons_iff.mp hcs
  simp only [advance, hc, look_tokens]
  simpa [tokens] using hos

theorem advance_account {r : Reader} (h : r.Ready) : r.advance.account = r.account := by
  unfold advance
  split
  · next cell next rest hc =>
    have hl : cell.reports = [] := h.looked cell (by simp [hc])
    rw [look_account]
    simp [account, hc, hl]
  · rfl

theorem advance_eq_self {r : Reader} {t : Token} (h : r.tokens = [t]) : r.advance = r := by
  obtain ⟨cell, cells, hc, -, hcs⟩ := List.map_eq_cons_iff.mp h
  have hnil : cells = [] := List.map_eq_nil_iff.mp hcs
  simp [advance, hc, hnil]

theorem Ready.advance {r : Reader} (h : r.Ready) : r.advance.Ready := by
  obtain ⟨rest, ht⟩ := h.tokens_eq
  have he := h.ended
  rw [ht] at he
  cases he with
  | last _ => rwa [advance_eq_self ht]
  | cons _ hs =>
    obtain ⟨u, us, rfl⟩ := hs.exists_cons
    refine ⟨?_, by rwa [advance_tokens ht]⟩
    unfold Reader.advance
    split
    · exact look_looked _ 0
    · exact h.looked

theorem Calm.advance {r : Reader} (h : r.Calm) : r.advance.Calm := by
  refine ⟨h.toReady.advance, ?_⟩
  have hs := h.settled
  unfold Reader.advance
  split
  · simp only [settle, Reader.look] at hs ⊢
    rw [Reader.mk.injEq] at hs
    simp [hs.2.2.2.1, hs.2.2.2.2.1, hs.2.2.2.2.2]
  · exact hs

theorem Ready.settle {r : Reader} (h : r.Ready) : r.settle.Calm := ⟨⟨h.looked, h.ended⟩, rfl⟩

end Reader

namespace Step

variable {step : Step} {next : Reader → Step}

theorem andThen_of_none (h : step.fault = none) : step.andThen next =
    { next step.reader with trees := step.trees ++ (next step.reader).trees } := by
  simp only [andThen, h]

theorem andThen_of_some {fault : Fault × Place} (h : step.fault = some fault) :
    step.andThen next = step := by
  simp only [andThen, h]

end Step

/-- Whether no rule catches a fault. -/
def Fault.halts : Fault → Bool
  | halt _ => true
  | _ => false

namespace Reader

variable {step : Step} {fault : Fault} {place : Place} (rule : Rule) (p : Position)
  (calls : List Place)

theorem close_of_none (h : step.fault = none) :
    close rule p calls step = { step with trees := [.node rule p step.trees] } := by
  simp only [close, h]

theorem close_of_halts (h : step.fault = some (fault, place)) (hh : fault.halts = true) :
    close rule p calls step = { step with trees := [.node rule p step.trees] } := by
  cases fault with
  | halt report => simp only [close, h]
  | mismatch t kinds => cases hh
  | noChoice ts t => cases hh

theorem close_of_recovering (h : step.fault = some (fault, place)) (hh : fault.halts = false)
    (hr : step.reader.recovering = true) :
    close rule p calls step = { step.reader.recover calls place with
      trees := [.node rule p (step.trees ++ (step.reader.recover calls place).trees)] } := by
  cases fault with
  | halt report => cases hh
  | mismatch t kinds => simp only [close, h, hr, if_true]
  | noChoice ts t => simp only [close, h, hr, if_true]

theorem close_of_calm (h : step.fault = some (fault, place)) (hh : fault.halts = false)
    (hr : step.reader.recovering = false) :
    close rule p calls step =
      ⟨step.reader.reportFault fault, [.node rule p step.trees], some (fault, place)⟩ := by
  cases fault with
  | halt report => cases hh
  | mismatch t kinds => simp [close, h, hr]
  | noChoice ts t => simp [close, h, hr]

end Reader

end CMakeDocs
