import CMakeDocs.Proofs.Lines
import CMakeDocs.Proofs.Reading.Stream

/-!
# The tokens of a text

No lexeme is the end of the text: that token stands once, behind all the others. Where they stand
apart, tokens are known by kind and text alone (`Scan.words`); those of a text follow from its
characters step by step, whatever comes after.
-/
namespace CMakeDocs

namespace Scan

open Extent

/-- What was found is not the end of the text. -/
def NotEnd (found : PieceKind × Nat) : Prop := found.1 ≠ .token .endOfText

theorem NotEnd.ite {p : Prop} [Decidable p] {a b : PieceKind × Nat} (ha : NotEnd a)
    (hb : NotEnd b) : NotEnd (if p then a else b) :=
  iteInduction (fun _ => ha) fun _ => hb

theorem NotEnd.of_ne {kind : PieceKind} (h : kind ≠ .token .endOfText) (n : Nat) :
    NotEnd (kind, n) := h

theorem notEnd_bracketComment (found : Option Nat) {other : PieceKind × Nat} (h : NotEnd other) :
    NotEnd (match found with
      | some n => (.skipped, 1 + n)
      | none => other) := by
  cases found with
  | none => exact h
  | some n => exact .of_ne (by decide) _

theorem comment_notEnd (cs : List Char) : NotEnd (comment cs) := by
  unfold comment
  cases bracketLevel? cs with
  | none => exact .of_ne (by decide) _
  | some level =>
    refine .ite ?_ (notEnd_bracketComment _ (.of_ne (by decide) _))
    cases docBody? (cs.drop 3) with
    | none => exact notEnd_bracketComment _ (.of_ne (by decide) _)
    | some n =>
      cases moduleBody? (cs.drop 3) with
      | none => exact .of_ne (by decide) _
      | some m => exact .of_ne (by decide) _

theorem lexeme_notEnd (c : Char) (cs : List Char) : NotEnd (lexeme c cs) := by
  unfold lexeme
  refine .ite (.of_ne (by decide) _) (.ite (.of_ne (by decide) _) ?_)
  refine .ite (.of_ne (by decide) _) (.ite (.of_ne (by decide) _) ?_)
  refine .ite (comment_notEnd cs) (.ite ?_ ?_)
  · cases quoted cs with
    | closed n => exact .of_ne (by decide) _
    | stuck n => exact .of_ne (by decide) _
  · refine .ite (.of_ne (by decide) _) (.ite (.of_ne (by decide) _) ?_)
    cases bracketed? (c :: cs) with
    | none => exact .of_ne (by decide) _
    | some k => exact .ite (.of_ne (by decide) _) (.of_ne (by decide) _)

theorem piecesAfter_ne_end (skip : Nat) (cs : List Char) :
    ∀ piece ∈ piecesAfter skip cs, piece.kind ≠ .token .endOfText := by
  induction cs generalizing skip with
  | nil => simp [piecesAfter]
  | cons c cs ih =>
    cases skip with
    | zero =>
      rw [piecesAfter]
      exact List.forall_mem_cons.mpr ⟨lexeme_notEnd c cs, ih _⟩
    | succ skip => exact ih skip

end Scan

namespace Cell

theorem ofPieces_tokens_ended {pieces : List Piece}
    (h : ∀ piece ∈ pieces, piece.kind ≠ .token .endOfText) (start : Nat) (position : Position)
    (waiting : List Report) :
    ∃ (ts : List Token) (last : Token),
      (ofPieces start position waiting pieces).map Cell.token = ts ++ [last] ∧
      last.kind = .endOfText ∧ ∀ t ∈ ts, t.kind ≠ .endOfText := by
  induction pieces generalizing start position waiting with
  | nil => exact ⟨[], _, rfl, rfl, by simp⟩
  | cons piece pieces ih =>
    obtain ⟨hp, hps⟩ := List.forall_mem_cons.mp h
    rw [ofPieces]
    cases hk : piece.kind with
    | token kind =>
      obtain ⟨ts, last, hts, hl, hne⟩ :=
        ih hps (start + piece.chars.length) (position.after piece.chars) []
      refine ⟨_ :: ts, last, congrArg (List.cons _) hts, hl, List.forall_mem_cons.mpr ⟨?_, hne⟩⟩
      rintro rfl
      exact hp hk
    | skipped => exact ih hps _ _ _
    | fault => exact ih hps _ _ _

/-- The tokens of a text, and behind them the token that ends it. -/
theorem ofText_tokens (text : String) :
    ∃ last : Token, (ofText text).map Cell.token = Token.ofText text ++ [last] ∧
      last.kind = .endOfText := by
  obtain ⟨ts, last, hts, hl, hne⟩ :=
    ofPieces_tokens_ended (Scan.piecesAfter_ne_end 0 text.toList) 0 Position.origin []
  have hfilter : Token.ofText text = ts := by
    rw [Token.ofText, ofText, Scan.pieces, hts]
    simpa [hl] using hne
  exact ⟨last, by rw [hfilter]; exact hts, hl⟩

theorem ofText_ended (text : String) : Ended ((ofText text).map Cell.token) := by
  obtain ⟨last, ht, hl⟩ := ofText_tokens text
  rw [ht]
  exact .append (fun t h => by simpa using (List.mem_filter.mp h).2) (.last hl)

end Cell

theorem Reader.start_calm (text : String) : (start text).Calm :=
  ofCells_calm (Cell.ofText_ended text)

/-- A token without its place. -/
def Token.word (t : Token) : TokenKind × String := (t.kind, t.text)

/-- What a piece adds to the tokens of a text. -/
def Piece.word? (piece : Piece) : Option (TokenKind × String) :=
  match piece.kind with
  | .token kind => some (kind, String.ofList piece.chars)
  | _ => none

theorem Cell.ofPieces_words (pieces : List Piece) (start : Nat) (position : Position)
    (waiting : List Report) :
    ((ofPieces start position waiting pieces).map Cell.token).map Token.word =
      pieces.filterMap Piece.word? ++ [(.endOfText, "<EOF>")] := by
  induction pieces generalizing start position waiting with
  | nil => rfl
  | cons piece pieces ih =>
    rw [ofPieces]
    cases hk : piece.kind with
    | token kind =>
      have hword : piece.word? = some (kind, String.ofList piece.chars) := by
        simp [Piece.word?, hk]
      simp [hword, Token.word, ← ih (start + piece.chars.length) (position.after piece.chars) []]
    | skipped =>
      have hword : piece.word? = none := by simp [Piece.word?, hk]
      simp [hword, ← ih (start + piece.chars.length) (position.after piece.chars) waiting]
    | fault =>
      have hword : piece.word? = none := by simp [Piece.word?, hk]
      simp [hword, ← ih (start + piece.chars.length) (position.after piece.chars)
        (waiting ++ [faultReport position piece.chars])]

namespace Scan

open Extent

theorem piecesAfter_eq (n : Nat) (cs : List Char) : piecesAfter n cs = pieces (cs.drop n) := by
  induction cs generalizing n with
  | nil => cases n <;> rfl
  | cons c cs ih =>
    cases n with
    | zero => rfl
    | succ n => exact ih n

/-- The tokens of some characters, by kind and text. -/
def words (cs : List Char) : List (TokenKind × String) := (pieces cs).filterMap Piece.word?

theorem words_of_token {c : Char} {cs rest : List Char} {kind : TokenKind}
    (h : lexeme c (cs ++ rest) = (.token kind, cs.length + 1)) :
    words (c :: cs ++ rest) = (kind, String.ofList (c :: cs)) :: words rest := by
  rw [words, List.cons_append, pieces, piecesAfter, h]
  simp [Piece.word?, piecesAfter_eq, words]

theorem words_of_skipped {c : Char} {cs : List Char} {n : Nat}
    (h : lexeme c cs = (.skipped, 1 + n)) : words (c :: cs) = words (cs.drop n) := by
  rw [words, pieces, piecesAfter, h]
  dsimp only
  rw [List.filterMap_cons_none rfl, piecesAfter_eq, Nat.add_sub_cancel_left, words]

/-- Where runs of a class are skipped, each character of the class can be skipped by itself. -/
theorem words_skip {p : Char → Bool}
    (hp : ∀ c cs, p c = true → lexeme c cs = (.skipped, 1 + run p cs)) {c : Char}
    (hc : p c = true) (cs : List Char) : words (c :: cs) = words cs := by
  rw [words_of_skipped (hp c cs hc)]
  cases cs with
  | nil => rfl
  | cons d cs =>
    cases hd : p d with
    | false => simp [run, hd]
    | true =>
      rw [words_of_skipped (hp d cs hd)]
      simp [run, hd]

theorem lexeme_blank {c : Char} (h : isBlank c = true) (cs : List Char) :
    lexeme c cs = (.skipped, 1 + run isBlank cs) := by
  simp only [isBlank, Bool.or_eq_true, decide_eq_true_eq] at h
  rcases h with rfl | rfl <;> rfl

theorem lexeme_lineEnd {c : Char} (h : isLineEnd c = true) (cs : List Char) :
    lexeme c cs = (.skipped, 1 + run isLineEnd cs) := by
  simp only [isLineEnd, Bool.or_eq_true, decide_eq_true_eq] at h
  rcases h with rfl | rfl <;> rfl

theorem words_blank {c : Char} (h : isBlank c = true) (cs : List Char) :
    words (c :: cs) = words cs :=
  words_skip (fun _ cs hc => lexeme_blank hc cs) h cs

theorem words_lineEnd {c : Char} (h : isLineEnd c = true) (cs : List Char) :
    words (c :: cs) = words cs :=
  words_skip (fun _ cs hc => lexeme_lineEnd hc cs) h cs

theorem words_newline (cs : List Char) : words ('\n' :: cs) = words cs :=
  words_lineEnd (by decide) cs

theorem words_blanks {w : List Char} (h : ∀ c ∈ w, isBlank c = true) (cs : List Char) :
    words (w ++ cs) = words cs := by
  induction w with
  | nil => rfl
  | cons c w ih =>
    obtain ⟨hc, hw⟩ := List.forall_mem_cons.mp h
    rw [List.cons_append, words_blank hc, ih hw]

theorem words_leftParen (cs : List Char) :
    words ('(' :: cs) = (.leftParen, "(") :: words cs :=
  words_of_token (show lexeme '(' ([] ++ cs) = (.token .leftParen, 1) from rfl)

theorem words_rightParen (cs : List Char) :
    words (')' :: cs) = (.rightParen, ")") :: words cs :=
  words_of_token (show lexeme ')' ([] ++ cs) = (.token .rightParen, 1) from rfl)

theorem isPlain_of_isIdentifierRest {c : Char} (h : isIdentifierRest c = true) :
    isPlain c = true := by
  cases hp : isPlain c with
  | true => rfl
  | false =>
    simp only [isPlain, isBlank, isLineEnd, Bool.not_eq_false', Bool.or_eq_true,
      decide_eq_true_eq, or_assoc] at hp
    rcases hp with rfl | rfl | rfl | rfl | rfl | rfl | rfl | rfl | rfl <;>
      exact absurd h (by decide)

theorem isIdentifierRest_of_start {c : Char} (h : isIdentifierStart c = true) :
    isIdentifierRest c = true := by
  simp only [isIdentifierStart, isIdentifierRest, Char.isAlphanum, Bool.or_eq_true] at h ⊢
  rcases h with h | h
  · exact .inl (.inl h)
  · exact .inr h

theorem unquoted_cons {c : Char} (h : c ≠ '\\') (cs : List Char) :
    unquoted (c :: cs) = if isPlain c then 1 + unquoted cs else 0 := by
  rw [unquoted.eq_def]
  split
  · next heq => cases heq
  · next heq => exact absurd (List.cons.inj heq).1 h
  · next heq => exact absurd (List.cons.inj heq).1 h
  · next heq =>
    cases heq
    rfl

/-- A character that ends a word. -/
def isWordEnd (c : Char) : Bool := c = ' ' || c = '(' || c = ')'

theorem unquoted_append {cs rest : List Char} {d : Char}
    (h : ∀ c ∈ cs, isIdentifierRest c = true) (hd : isWordEnd d = true) :
    unquoted (cs ++ d :: rest) = cs.length := by
  induction cs with
  | nil =>
    simp only [isWordEnd, Bool.or_eq_true, decide_eq_true_eq, or_assoc] at hd
    rcases hd with rfl | rfl | rfl <;> rfl
  | cons c cs ih =>
    obtain ⟨hc, hcs⟩ := List.forall_mem_cons.mp h
    have hplain := isPlain_of_isIdentifierRest hc
    have hne : c ≠ '\\' := by
      rintro rfl
      exact absurd hplain (by decide)
    rw [List.cons_append, unquoted_cons hne, if_pos hplain, ih hcs, List.length_cons, Nat.add_comm]

theorem identifier_append {c d : Char} {cs rest : List Char} (hc : isIdentifierStart c = true)
    (h : ∀ c ∈ cs, isIdentifierRest c = true) (hd : isWordEnd d = true) :
    identifier (c :: cs ++ d :: rest) = cs.length + 1 := by
  have hrest : isIdentifierRest d = false := by
    simp only [isWordEnd, Bool.or_eq_true, decide_eq_true_eq, or_assoc] at hd
    rcases hd with rfl | rfl | rfl <;> decide
  rw [List.cons_append, identifier, if_pos hc, run, List.takeWhile_append_of_pos h,
    List.takeWhile_cons_of_neg (by simp [hrest]), List.append_nil, Nat.add_comm]

theorem lexeme_of_isPlain {c : Char} {cs : List Char} (hc : isPlain c = true)
    (hi : identifier (c :: cs) = unquoted (c :: cs)) :
    lexeme c cs = (.token .identifier, unquoted (c :: cs)) := by
  have hkinds := hc
  simp only [isPlain, Bool.not_eq_true', Bool.or_eq_false_iff, decide_eq_false_iff_not] at hkinds
  obtain ⟨⟨⟨⟨⟨⟨hblank, hend⟩, hleft⟩, hright⟩, hhash⟩, hquote⟩, hslash⟩ := hkinds
  have hn : unquoted (c :: cs) ≠ 0 := by
    rw [unquoted_cons hslash, if_pos hc]
    omega
  simp [lexeme, hleft, hright, hblank, hend, hhash, hquote, hn, hi]

/-- A text that is read as an identifier wherever it stands by itself. -/
def IsIdentifier (cs : List Char) : Prop :=
  ∃ c rest, cs = c :: rest ∧ isIdentifierStart c = true ∧ ∀ d ∈ rest, isIdentifierRest d = true

instance : DecidablePred IsIdentifier
  | [] => .isFalse (by simp [IsIdentifier])
  | c :: rest =>
    decidable_of_iff (isIdentifierStart c = true ∧ rest.all isIdentifierRest = true) (by
      rw [List.all_eq_true]
      constructor
      · exact fun h => ⟨c, rest, rfl, h⟩
      · rintro ⟨_, _, heq, h⟩
        cases heq
        exact h)

theorem words_identifier {cs rest : List Char} {d : Char} (h : IsIdentifier cs)
    (hd : isWordEnd d = true) :
    words (cs ++ d :: rest) = (.identifier, String.ofList cs) :: words (d :: rest) := by
  obtain ⟨c, cs, rfl, hc, hcs⟩ := h
  have hrest := isIdentifierRest_of_start hc
  have hunquoted : unquoted (c :: cs ++ d :: rest) = cs.length + 1 :=
    unquoted_append (List.forall_mem_cons.mpr ⟨hrest, hcs⟩) hd
  refine words_of_token ?_
  rw [lexeme_of_isPlain (isPlain_of_isIdentifierRest hrest)]
  · rw [← List.cons_append, hunquoted]
  · rw [← List.cons_append, hunquoted, identifier_append hc hcs hd]

theorem find?_cons_of_not_start {mark cs : List Char} {c : Char}
    (h : mark.isPrefixOf (c :: cs) = false) :
    find? mark (c :: cs) = (find? mark cs).map (· + 1) := by
  rw [find?, h, if_neg (by simp)]

theorem find?_append_sep (sep : Char) {mark l : List Char} (hne : mark ≠ []) (hs : sep ∉ mark)
    (hl : Text.occursIn mark l = false) (rest : List Char) :
    find? mark (l ++ sep :: rest) = (find? mark rest).map (· + (l.length + 1)) := by
  induction l with
  | nil =>
    refine find?_cons_of_not_start ?_
    rw [← List.nil_append (sep :: rest), Text.isPrefixOf_append_sep hs]
    cases mark with
    | nil => exact absurd rfl hne
    | cons _ _ => rfl
  | cons c l ih =>
    rw [Text.occursIn, Bool.or_eq_false_iff] at hl
    rw [List.cons_append, find?_cons_of_not_start, ih hl.2, Option.map_map]
    · rfl
    · rw [← List.cons_append, Text.isPrefixOf_append_sep hs]
      exact hl.1

theorem find?_docClosing_blanks {w : List Char} (hw : ∀ c ∈ w, isBlank c = true)
    (rest : List Char) : find? docClosing (w ++ (docClosing ++ rest)) = some w.length := by
  induction w with
  | nil => rfl
  | cons c w ih =>
    obtain ⟨hc, hw⟩ := List.forall_mem_cons.mp hw
    have hne : '#' ≠ c := by
      rintro rfl
      exact absurd hc (by decide)
    rw [List.cons_append, find?_cons_of_not_start (by simp [docClosing, List.isPrefixOf, hne]),
      ih hw]
    rfl

/-- The closing mark is found behind lines without one. -/
theorem find?_docClosing {ls : List (List Char)} {w : List Char}
    (hls : ∀ l ∈ ls, Text.occursIn docClosing l = false) (hw : ∀ c ∈ w, isBlank c = true)
    (rest : List Char) :
    find? docClosing (ls.flatMap (· ++ ['\n']) ++ (w ++ (docClosing ++ rest))) =
      some ((ls.flatMap (· ++ ['\n'])).length + w.length) := by
  induction ls with
  | nil => simpa using find?_docClosing_blanks hw rest
  | cons l ls ih =>
    obtain ⟨hl, hls⟩ := List.forall_mem_cons.mp hls
    have hfind := find?_append_sep '\n' (by decide) (by decide) hl
      (ls.flatMap (· ++ ['\n']) ++ (w ++ (docClosing ++ rest)))
    rw [ih hls] at hfind
    simp only [List.flatMap_cons, List.append_assoc, List.cons_append, List.nil_append,
      List.length_append, List.length_cons] at hfind ⊢
    rw [hfind, Option.map_some, Option.some.injEq]
    omega

theorem moduleBody?_newline (cs : List Char) : moduleBody? ('\n' :: cs) = none := by
  have hrest : moduleRest? ('\n' :: cs) = none := rfl
  rw [moduleBody?, hrest]
  rfl

theorem lexeme_docComment {cs : List Char} {n : Nat}
    (h : find? docClosing ('\n' :: cs) = some n) :
    lexeme '#' ('[' :: '[' :: '[' :: '\n' :: cs) = (.token .docComment, n + 7) := by
  have hlevel : bracketLevel? ('[' :: '[' :: '[' :: '\n' :: cs) = some 0 := rfl
  have hstart : ['[', '[', '['].isPrefixOf ('[' :: '[' :: '[' :: '\n' :: cs) = true := rfl
  have hbody : docBody? ('\n' :: cs) = some (n + 3) := by
    rw [docBody?, h]
    rfl
  have hcomment : comment ('[' :: '[' :: '[' :: '\n' :: cs) =
      (.token .docComment, 4 + (n + 3)) := by
    simp only [comment, hlevel, hstart, if_true, List.drop_succ_cons, List.drop_zero, hbody,
      moduleBody?_newline]
  calc lexeme '#' ('[' :: '[' :: '[' :: '\n' :: cs)
      = comment ('[' :: '[' :: '[' :: '\n' :: cs) := rfl
    _ = (.token .docComment, n + 7) := by rw [hcomment, Nat.add_comm]

theorem words_docComment {body rest : List Char}
    (h : find? docClosing ('\n' :: (body ++ (docClosing ++ rest))) = some (body.length + 1)) :
    words (docOpening ++ '\n' :: (body ++ (docClosing ++ rest))) =
      (.docComment, String.ofList (docOpening ++ '\n' :: (body ++ docClosing))) :: words rest := by
  have hlexeme : lexeme '#' ('[' :: '[' :: '[' :: '\n' :: (body ++ docClosing) ++ rest) =
      (.token .docComment, ('[' :: '[' :: '[' :: '\n' :: (body ++ docClosing)).length + 1) := by
    simp only [List.cons_append, List.append_assoc]
    rw [lexeme_docComment h]
    simp [docClosing]
  have hwords := words_of_token hlexeme
  simpa only [docOpening, List.cons_append, List.nil_append, List.append_assoc] using hwords

end Scan

theorem Reader.start_words (text : String) :
    (start text).tokens.map Token.word =
      Scan.words text.toList ++ [(.endOfText, "<EOF>")] := by
  rw [start_eq_ofCells, ofCells_tokens]
  exact Cell.ofPieces_words _ _ _ _

end CMakeDocs
