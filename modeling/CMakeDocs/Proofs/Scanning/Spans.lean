import CMakeDocs.Proofs.Scanning.Lexemes

/-!
# Where the pieces stand

The tokens of a text, what is skipped between them and the characters that are reported as faults
lie side by side and leave no gap. A token is where it says: its text stands between its indices,
and its line and column count what stands before it.
-/
namespace CMakeDocs

/-- The place behind some characters: one line for each line feed, and a column for each character
since the last of them. -/
def Position.behind (before : List Char) : Position :=
  ⟨1 + before.count '\n', (before.reverse.takeWhile (· ≠ '\n')).length⟩

theorem Position.behind_concat (before : List Char) (c : Char) :
    behind (before ++ [c]) = (behind before).next c := by
  by_cases hc : c = '\n'
  · simp [behind, next, hc, Nat.add_assoc]
  · simp [behind, next, hc, List.count_append]

theorem Position.behind_append (before cs : List Char) :
    behind (before ++ cs) = (behind before).after cs := by
  induction cs generalizing before with
  | nil => simp
  | cons c cs ih => rw [after_cons, ← behind_concat, ← ih, List.append_assoc, List.singleton_append]

/-- The place of a piece in a text: from the index `start` up to the one before `stop`. -/
structure Span where
  kind : PieceKind
  start : Nat
  stop : Nat
deriving DecidableEq, Repr

/-- The spans lie side by side, are not empty and leave no gap. -/
structure Tiles (first last : Nat) (spans : List Span) : Prop where
  nonempty : ∀ s ∈ spans, s.start < s.stop
  ordered : spans.Pairwise fun s t => s.stop ≤ t.start
  covered : ∀ i, first ≤ i ∧ i < last ↔ ∃ s ∈ spans, s.start ≤ i ∧ i < s.stop

theorem Tiles.nil (n : Nat) : Tiles n n [] where
  nonempty := by simp
  ordered := .nil
  covered := by simp

theorem Tiles.cons {first mid last : Nat} {spans : List Span} (kind : PieceKind)
    (hlt : first < mid) (hle : mid ≤ last) (h : Tiles mid last spans) :
    Tiles first last (⟨kind, first, mid⟩ :: spans) where
  nonempty := List.forall_mem_cons.mpr ⟨hlt, h.nonempty⟩
  ordered := by
    refine .cons (fun s hs => ?_) h.ordered
    exact ((h.covered s.start).mpr ⟨s, hs, le_rfl, h.nonempty s hs⟩).1
  covered i := by
    have hcons : (∃ s ∈ (⟨kind, first, mid⟩ :: spans : List Span), s.start ≤ i ∧ i < s.stop) ↔
        (first ≤ i ∧ i < mid) ∨ ∃ s ∈ spans, s.start ≤ i ∧ i < s.stop := by
      simp
    rw [hcons, ← h.covered i]
    omega

namespace Scan

/-- The spans of some pieces that begin at the given index. -/
def spansFrom (start : Nat) : List Piece → List Span
  | [] => []
  | piece :: rest =>
    ⟨piece.kind, start, start + piece.chars.length⟩ :: spansFrom (start + piece.chars.length) rest

/-- The spans of a whole text. -/
def spans (cs : List Char) : List Span := spansFrom 0 (pieces cs)

theorem spansFrom_of_reads {kind : PieceKind} {piece rest : List Char}
    (h : Reads kind piece rest) (start : Nat) :
    spansFrom start (pieces (piece ++ rest)) =
      ⟨kind, start, start + piece.length⟩ :: spansFrom (start + piece.length) (pieces rest) := by
  rw [pieces_of_reads h, spansFrom]

theorem spansFrom_tiles (cs : List Char) (start : Nat) :
    Tiles start (start + cs.length) (spansFrom start (pieces cs)) := by
  induction cs using text_induction generalizing start with
  | nil => exact .nil start
  | cons kind piece rest h ih =>
    have hpos := List.length_pos_iff.mpr h.ne_nil
    rw [spansFrom_of_reads h, List.length_append, ← Nat.add_assoc]
    exact (ih (start + piece.length)).cons kind (by omega) (by omega)

theorem extract_middle (before piece rest : List Char) :
    (before ++ piece ++ rest).extract before.length (before ++ piece).length = piece := by
  rw [List.extract_eq_take_drop, List.append_assoc, List.drop_left, List.length_append,
    Nat.add_sub_cancel_left, List.take_left]

/-- Each span is the one of the lexeme that the text has there. -/
theorem spansFrom_reads (before cs : List Char) :
    ∀ s ∈ spansFrom before.length (pieces cs),
      Reads s.kind ((before ++ cs).extract s.start s.stop) ((before ++ cs).drop s.stop) := by
  induction cs using text_induction generalizing before with
  | nil => simp [pieces, piecesAfter, spansFrom]
  | cons kind piece rest h ih =>
    rw [spansFrom_of_reads h, ← List.length_append, ← List.append_assoc, List.forall_mem_cons]
    refine ⟨?_, ih (before ++ piece)⟩
    dsimp only
    rw [extract_middle, List.drop_left]
    exact h

end Scan

namespace Span

/-- The token at a span of a text. -/
def token? (cs : List Char) (s : Span) : Option Token :=
  match s.kind with
  | .token kind =>
    some ⟨kind, String.ofList (cs.extract s.start s.stop), s.start, .behind (cs.take s.start)⟩
  | _ => none

/-- The report about a span of a text. -/
def report? (cs : List Char) (s : Span) : Option Report :=
  match s.kind with
  | .fault => some (Cell.faultReport (.behind (cs.take s.start)) (cs.extract s.start s.stop))
  | _ => none

theorem token?_middle (kind : TokenKind) (before piece rest : List Char) :
    token? (before ++ piece ++ rest) ⟨.token kind, before.length, (before ++ piece).length⟩ =
      some ⟨kind, String.ofList piece, before.length, .behind before⟩ := by
  simp only [token?, Scan.extract_middle]
  rw [List.append_assoc, List.take_left]

theorem report?_middle (before piece rest : List Char) :
    report? (before ++ piece ++ rest) ⟨.fault, before.length, (before ++ piece).length⟩ =
      some (Cell.faultReport (.behind before) piece) := by
  simp only [report?, Scan.extract_middle]
  rw [List.append_assoc, List.take_left]

end Span

namespace Cell

open Scan

/-- The tokens and reports behind some characters are those of the spans there. -/
theorem ofPieces_eq_spans (before cs : List Char) (waiting : List Report) :
    (((ofPieces before.length (.behind before) waiting (pieces cs)).map Cell.token).filter
        fun t => t.kind ≠ .endOfText) =
      (spansFrom before.length (pieces cs)).filterMap (Span.token? (before ++ cs)) ∧
    (ofPieces before.length (.behind before) waiting (pieces cs)).flatMap Cell.reports =
      waiting ++ (spansFrom before.length (pieces cs)).filterMap (Span.report? (before ++ cs)) := by
  induction cs using text_induction generalizing before waiting with
  | nil => simp [pieces, piecesAfter, spansFrom, ofPieces]
  | cons kind piece rest h ih =>
    rw [spansFrom_of_reads h, pieces_of_reads h, ofPieces]
    dsimp only
    rw [← List.length_append, ← Position.behind_append, ← List.append_assoc]
    cases kind with
    | token kind =>
      obtain ⟨htokens, hreports⟩ := ih (before ++ piece) []
      have hkind : kind ≠ .endOfText := by
        rintro rfl
        cases h
      rw [List.filterMap_cons_some (Span.token?_middle kind before piece rest),
        List.filterMap_cons_none rfl, ← htokens, List.map_cons, List.filter_cons_of_pos (by simpa),
        List.flatMap_cons, hreports, List.nil_append]
      exact ⟨rfl, rfl⟩
    | skipped =>
      rw [List.filterMap_cons_none rfl, List.filterMap_cons_none rfl]
      exact ih (before ++ piece) waiting
    | fault =>
      obtain ⟨htokens, hreports⟩ :=
        ih (before ++ piece) (waiting ++ [faultReport (.behind before) piece])
      rw [List.filterMap_cons_none rfl,
        List.filterMap_cons_some (Span.report?_middle before piece rest)]
      refine ⟨htokens, hreports.trans ?_⟩
      rw [List.append_assoc, List.singleton_append]

end Cell

theorem Token.ofText_eq_spans (text : String) :
    ofText text = (Scan.spans text.toList).filterMap (Span.token? text.toList) :=
  (Cell.ofPieces_eq_spans [] text.toList []).1

theorem Token.reportsOfText_eq_spans (text : String) :
    reportsOfText text = (Scan.spans text.toList).filterMap (Span.report? text.toList) :=
  (Cell.ofPieces_eq_spans [] text.toList []).2

/-- A token of a text is a lexeme there. -/
theorem Token.exists_reads {text : String} {t : Token} (h : t ∈ ofText text) :
    ∃ rest, Scan.Reads (.token t.kind) t.text.toList rest := by
  rw [ofText_eq_spans] at h
  obtain ⟨s, hs, ht⟩ := List.mem_filterMap.mp h
  have hreads := Scan.spansFrom_reads [] text.toList s hs
  rw [List.nil_append] at hreads
  unfold Span.token? at ht
  split at ht
  · next kind hkind =>
    cases ht
    rw [hkind] at hreads
    rw [String.toList_ofList]
    exact ⟨_, hreads⟩
  · cases ht

/-- A token between the indices of a span lies where it says. -/
theorem Span.token?_eq_some {cs : List Char} {s : Span} {t : Token}
    (hlt : s.start < s.stop) (hle : s.stop ≤ cs.length) (h : s.token? cs = some t) :
    s.start = t.start ∧ s.stop = t.stop + 1 ∧
      t.text.toList = cs.extract s.start s.stop ∧ t.position = .behind (cs.take s.start) := by
  unfold token? at h
  split at h
  · cases h
    have hlen : (cs.extract s.start s.stop).length = s.stop - s.start := by
      rw [List.extract_eq_take_drop, List.length_take, List.length_drop]
      omega
    refine ⟨rfl, ?_, String.toList_ofList, rfl⟩
    rw [Token.stop, String.length_ofList, hlen]
    show s.stop = s.start + (s.stop - s.start) - 1 + 1
    omega
  · cases h

/-- The pieces tile a text, and each is the lexeme that stands there. The tokens and the reports are
those of the pieces, in order, and a token's text, line and column are those of its place. -/
theorem Token.ofText_placed (text : String) :
    Tiles 0 text.length (Scan.spans text.toList) ∧
    (∀ s ∈ Scan.spans text.toList,
      Scan.Reads s.kind (text.toList.extract s.start s.stop) (text.toList.drop s.stop)) ∧
    ofText text = (Scan.spans text.toList).filterMap (Span.token? text.toList) ∧
    reportsOfText text = (Scan.spans text.toList).filterMap (Span.report? text.toList) ∧
    ∀ t ∈ ofText text,
      t.text.toList = text.toList.extract t.start (t.stop + 1) ∧
      t.position.line = 1 + (text.toList.take t.start).count '\n' ∧
      t.position.column = ((text.toList.take t.start).reverse.takeWhile (· ≠ '\n')).length := by
  have htiles : Tiles 0 text.length (Scan.spans text.toList) := by
    have h := Scan.spansFrom_tiles text.toList 0
    rwa [Nat.zero_add, String.length_toList] at h
  refine ⟨htiles, Scan.spansFrom_reads [] text.toList, ofText_eq_spans text,
    reportsOfText_eq_spans text, fun t ht => ?_⟩
  rw [ofText_eq_spans] at ht
  obtain ⟨s, hs, hst⟩ := List.mem_filterMap.mp ht
  have hlt := htiles.nonempty s hs
  have hle : s.stop ≤ text.toList.length := by
    have hlast := ((htiles.covered (s.stop - 1)).mpr ⟨s, hs, by omega, by omega⟩).2
    rw [String.length_toList]
    omega
  obtain ⟨hstart, hstop, htext, hposition⟩ := Span.token?_eq_some hlt hle hst
  rw [← hstart, ← hstop, hposition]
  exact ⟨htext, rfl, rfl⟩

end CMakeDocs
