import CMakeDocs.Proofs.Scanning.Comments

/-!
# What the lexemes are

One rule for each class of lexemes says when some characters are a lexeme in front of others. The
rules are the scanner: every text that is not empty begins with what one of them allows, and the
scanner finds no other lexeme there.
-/
namespace CMakeDocs

namespace Extent

theorem identifier_append_eq_length_iff {c : Char} {cs rest : List Char} :
    identifier (c :: cs ++ rest) = (c :: cs).length ↔
      Scan.IsIdentifier (c :: cs) ∧ run isIdentifierRest rest = 0 := by
  have hiff : Scan.IsIdentifier (c :: cs) ↔
      isIdentifierStart c = true ∧ ∀ d ∈ cs, isIdentifierRest d = true := by
    constructor
    · rintro ⟨_, _, heq, h⟩
      cases heq
      exact h
    · exact fun h => ⟨c, cs, rfl, h⟩
  rw [hiff, and_assoc, ← run_append_eq_length_iff, List.cons_append, identifier]
  cases hc : isIdentifierStart c with
  | true =>
    simp only [if_true, true_and, List.length_cons]
    omega
  | false => simp

theorem run_isIdentifierRest_of_stop {rest : List Char} (h : unquoted rest = 0) :
    run isIdentifierRest rest = 0 := by
  rw [run_eq_zero_iff]
  intro c hc
  obtain ⟨cs, rfl⟩ := List.head?_eq_some_iff.mp hc
  cases hrest : isIdentifierRest c with
  | false => rfl
  | true =>
    have hplain := isPlain_head_of_stop h
    rw [Scan.isPlain_of_isIdentifierRest hrest] at hplain
    cases hplain

theorem unquoted_of_isPlain {cs : List Char} (h : ∀ c ∈ cs, isPlain c = true) :
    unquoted cs = cs.length := by
  induction cs with
  | nil => rfl
  | cons c cs ih =>
    obtain ⟨hc, hcs⟩ := List.forall_mem_cons.mp h
    rw [unquoted_plain hc, ih hcs, List.length_cons]

theorem unquoted_of_isIdentifier {cs : List Char} (h : Scan.IsIdentifier cs) :
    unquoted cs = cs.length := by
  obtain ⟨c, cs, rfl, hc, hcs⟩ := h
  have hrest := Scan.isIdentifierRest_of_start hc
  have hall : ∀ d ∈ c :: cs, isIdentifierRest d = true := List.forall_mem_cons.mpr ⟨hrest, hcs⟩
  exact unquoted_of_isPlain fun d hd => Scan.isPlain_of_isIdentifierRest (hall d hd)

end Extent

namespace Scan

open Extent

/-- In front of the rest, the characters are the lexeme, and this is its kind. -/
inductive Reads : PieceKind → List Char → List Char → Prop where
  | leftParen (rest : List Char) : Reads (.token .leftParen) ['('] rest
  | rightParen (rest : List Char) : Reads (.token .rightParen) [')'] rest
  | blanks {c : Char} {cs rest : List Char} (h : ∀ d ∈ c :: cs, isBlank d = true)
      (hrest : ∀ d ∈ rest.head?, isBlank d = false) : Reads .skipped (c :: cs) rest
  | lineEnds {c : Char} {cs rest : List Char} (h : ∀ d ∈ c :: cs, isLineEnd d = true)
      (hrest : ∀ d ∈ rest.head?, isLineEnd d = false) : Reads .skipped (c :: cs) rest
  | lineComment {cs rest : List Char} (hlevel : ∀ level, ¬ bracketOpen level <+: cs ++ rest)
      (h : lineComment (cs ++ rest) = cs.length) : Reads .skipped ('#' :: cs) rest
  | moduleComment {body rest : List Char} (h : moduleBody? (body ++ rest) = some body.length) :
      Reads (.token .moduleComment) ('#' :: '[' :: '[' :: '[' :: body) rest
  | docComment {body rest : List Char} (h : docBody? (body ++ rest) = some body.length)
      (hmodule : moduleBody? (body ++ rest) = none) :
      Reads (.token .docComment) ('#' :: '[' :: '[' :: '[' :: body) rest
  | openComment {rest : List Char} (hdoc : ¬ docClosing <:+: rest)
      (h : ¬ bracketClose 0 <:+: '[' :: rest) :
      Reads (.token .openComment) ['#', '[', '[', '['] rest
  | bracketComment {cs rest : List Char}
      (hdoc : ∀ body, cs ++ rest = '[' :: '[' :: '[' :: body → ¬ docClosing <:+: body)
      (h : bracketed? cs = some cs.length) : Reads .skipped ('#' :: cs) rest
  | openBracket {cs : List Char} {level : Nat} (hlevel : bracketOpen level <+: cs)
      (hopen : ¬ ['[', '[', '['] <+: cs) (h : bracketed? cs = none) :
      Reads .fault ('#' :: cs) []
  | quoted {cs rest : List Char} (h : quoted (cs ++ rest) = .closed cs.length) :
      Reads (.token .quoted) ('"' :: cs) rest
  | openQuote {cs rest : List Char} (h : quoted (cs ++ rest) = .stuck cs.length) :
      Reads .fault ('"' :: cs) rest
  | escape {c : Char} (rest : List Char) (h : isEscapable c = false) :
      Reads .fault ['\\', c] rest
  | backslash : Reads .fault ['\\'] []
  | identifier {c : Char} {cs rest : List Char} (h : IsIdentifier (c :: cs))
      (hrest : unquoted rest = 0) : Reads (.token .identifier) (c :: cs) rest
  | unquoted {c : Char} {cs rest : List Char} (h : unquoted (c :: cs) = (c :: cs).length)
      (hrest : unquoted rest = 0) (hword : ¬ IsIdentifier (c :: cs))
      (hlonger : ∀ n, bracketed? (c :: cs ++ rest) = some n → n ≤ (c :: cs).length) :
      Reads (.token .unquoted) (c :: cs) rest
  | bracket {c : Char} {cs rest : List Char} (h : bracketed? (c :: cs) = some (c :: cs).length)
      (hlonger : unquoted (c :: cs ++ rest) < (c :: cs).length) :
      Reads (.token .bracket) (c :: cs) rest

theorem Reads.ne_nil {kind : PieceKind} {piece rest : List Char} (h : Reads kind piece rest) :
    piece ≠ [] := by
  cases h <;> exact List.cons_ne_nil _ _

/-- What was found in front of some characters is a lexeme there. -/
def Found (cs : List Char) (found : PieceKind × Nat) : Prop :=
  ∃ piece rest, cs = piece ++ rest ∧ found.2 = piece.length ∧ Reads found.1 piece rest

theorem Reads.found {kind : PieceKind} {piece rest : List Char} {n : Nat}
    (h : Reads kind piece rest) (hn : n = piece.length) : Found (piece ++ rest) (kind, n) :=
  ⟨piece, rest, rfl, hn, h⟩

theorem exists_split {cs : List Char} {n : Nat} (h : n ≤ cs.length) :
    ∃ p q, cs = p ++ q ∧ n = p.length :=
  ⟨cs.take n, cs.drop n, (List.take_append_drop n cs).symm, by
    rw [List.length_take, Nat.min_eq_left h]⟩

/-- A run is split off from what comes after it. -/
theorem exists_run (p : Char → Bool) (cs : List Char) :
    ∃ a b, cs = a ++ b ∧ 1 + run p cs = a.length + 1 ∧ (∀ c ∈ a, p c = true) ∧
      ∀ d ∈ b.head?, p d = false := by
  obtain ⟨a, b, rfl, hrun⟩ := exists_split (run_le p cs)
  obtain ⟨ha, hb⟩ := run_append_eq_length_iff.mp hrun
  exact ⟨a, b, rfl, by omega, ha, run_eq_zero_iff.mp hb⟩

theorem found_blanks {c : Char} (hc : isBlank c = true) (cs : List Char) :
    Found (c :: cs) (.skipped, 1 + run isBlank cs) := by
  obtain ⟨a, b, rfl, hlen, ha, hb⟩ := exists_run isBlank cs
  have hpiece : ∀ d ∈ c :: a, isBlank d = true := List.forall_mem_cons.mpr ⟨hc, ha⟩
  exact (Reads.blanks hpiece hb).found hlen

theorem found_lineEnds {c : Char} (hc : isLineEnd c = true) (cs : List Char) :
    Found (c :: cs) (.skipped, 1 + run isLineEnd cs) := by
  obtain ⟨a, b, rfl, hlen, ha, hb⟩ := exists_run isLineEnd cs
  have hpiece : ∀ d ∈ c :: a, isLineEnd d = true := List.forall_mem_cons.mpr ⟨hc, ha⟩
  exact (Reads.lineEnds hpiece hb).found hlen

theorem found_bracketComment {cs : List Char} {n : Nat} (h : bracketed? cs = some n)
    (hdoc : ∀ body, cs = '[' :: '[' :: '[' :: body → ¬ docClosing <:+: body) :
    Found ('#' :: cs) (.skipped, 1 + n) := by
  obtain ⟨p, q, rfl, rfl⟩ := exists_split (bracketed?_bound h).2
  exact (Reads.bracketComment hdoc ((bracketed?_append_iff le_rfl q).mp h)).found
    (Nat.add_comm 1 _)

theorem found_docComment {body : List Char} {n : Nat} (h : docBody? body = some n)
    (hmodule : moduleBody? body = none) :
    Found ('#' :: '[' :: '[' :: '[' :: body) (.token .docComment, 4 + n) := by
  obtain ⟨p, q, rfl, rfl⟩ := exists_split (docBody?_le h)
  exact (Reads.docComment h hmodule).found (Nat.add_comm 4 _)

theorem found_moduleComment {body : List Char} {n : Nat} (h : moduleBody? body = some n) :
    Found ('#' :: '[' :: '[' :: '[' :: body) (.token .moduleComment, 4 + n) := by
  obtain ⟨p, q, rfl, rfl⟩ := exists_split (moduleBody?_le h)
  exact (Reads.moduleComment h).found (Nat.add_comm 4 _)

theorem found_comment (cs : List Char) : Found ('#' :: cs) (comment cs) := by
  unfold comment
  cases hlevel : bracketLevel? cs with
  | none =>
    obtain ⟨p, q, rfl, hline⟩ := exists_split (lineComment_le cs)
    have hlen : 1 + lineComment (p ++ q) = ('#' :: p).length := by
      rw [hline, Nat.add_comm]
      rfl
    refine (Reads.lineComment (fun level hopen => ?_) hline).found hlen
    rw [bracketLevel?_eq_some_iff.mpr hopen] at hlevel
    cases hlevel
  | some level =>
    dsimp only
    split
    · next hstart =>
      obtain ⟨body, rfl⟩ := List.isPrefixOf_iff_prefix.mp hstart
      simp only [List.cons_append, List.nil_append, List.drop_succ_cons, List.drop_zero]
      cases hdoc : docBody? body with
      | some n =>
        cases hmodule : moduleBody? body with
        | none => exact found_docComment hdoc hmodule
        | some m => exact found_moduleComment hmodule
      | none =>
        have hnone := docBody?_eq_none_iff.mp hdoc
        have hopen : bracketOpen 0 <+: '[' :: '[' :: '[' :: body := ⟨'[' :: body, rfl⟩
        cases hbracket : bracketed? ('[' :: '[' :: '[' :: body) with
        | none =>
          exact (Reads.openComment hnone ((bracketed?_of_open hopen).mp hbracket)).found rfl
        | some n =>
          refine found_bracketComment hbracket fun body' heq => ?_
          cases heq
          exact hnone
    · next hstart =>
      rw [List.isPrefixOf_iff_prefix] at hstart
      cases hbracket : bracketed? cs with
      | none =>
        have hreads := Reads.openBracket (bracketLevel?_eq_some_iff.mp hlevel) hstart hbracket
        rw [← List.append_nil ('#' :: cs)]
        exact hreads.found (Nat.add_comm 1 _)
      | some n => exact found_bracketComment hbracket fun body heq => absurd ⟨body, heq.symm⟩ hstart

theorem found_quoted {cs : List Char} {n : Nat} (h : quoted cs = .closed n) :
    Found ('"' :: cs) (.token .quoted, 1 + n) := by
  have hle := quoted_length_le cs
  rw [h] at hle
  obtain ⟨p, q, rfl, rfl⟩ := exists_split hle
  exact (Reads.quoted h).found (Nat.add_comm 1 _)

theorem found_openQuote {cs : List Char} {n : Nat} (h : quoted cs = .stuck n) :
    Found ('"' :: cs) (.fault, 1 + n) := by
  have hle := quoted_length_le cs
  rw [h] at hle
  obtain ⟨p, q, rfl, rfl⟩ := exists_split hle
  exact (Reads.openQuote h).found (Nat.add_comm 1 _)

/-- The characters that a word can begin with. -/
def startsWord (c : Char) : Bool := isPlain c || c = '\\'

theorem found_escape {c : Char} {cs : List Char} (hc : startsWord c = true)
    (h : unquoted (c :: cs) = 0) : Found (c :: cs) (.fault, min 2 (1 + cs.length)) := by
  have hslash : c = '\\' := by simpa [startsWord, isPlain_head_of_stop h] using hc
  subst hslash
  cases cs with
  | nil => exact Reads.backslash.found rfl
  | cons d cs =>
    have hd : isEscapable d = false := by
      cases hd : isEscapable d with
      | false => rfl
      | true =>
        rw [unquoted_escape hd] at h
        omega
    exact (Reads.escape cs hd).found (Nat.min_eq_left (by rw [List.length_cons]; omega))

/-- A word is split off from what comes after it. -/
theorem exists_word {cs : List Char} (h : unquoted cs ≠ 0) :
    ∃ c p q, cs = c :: p ++ q ∧ unquoted (c :: p ++ q) = (c :: p).length ∧
      unquoted (c :: p) = (c :: p).length ∧ unquoted q = 0 := by
  obtain ⟨p, q, rfl, hword⟩ := exists_split (unquoted_le cs)
  cases p with
  | nil => exact absurd hword h
  | cons c p => exact ⟨c, p, q, rfl, hword, unquoted_append_eq_length_iff.mp hword⟩

theorem found_identifier {cs : List Char} (hword : unquoted cs ≠ 0)
    (h : identifier cs = unquoted cs) : Found cs (.token .identifier, unquoted cs) := by
  obtain ⟨c, p, q, rfl, hlen, -, hq⟩ := exists_word hword
  rw [hlen] at h ⊢
  exact (Reads.identifier (identifier_append_eq_length_iff.mp h).1 hq).found rfl

theorem found_unquoted {cs : List Char} (hword : unquoted cs ≠ 0)
    (h : identifier cs ≠ unquoted cs) (hlonger : ∀ n, bracketed? cs = some n → n ≤ unquoted cs) :
    Found cs (.token .unquoted, unquoted cs) := by
  obtain ⟨c, p, q, rfl, hlen, hp, hq⟩ := exists_word hword
  rw [hlen] at h hlonger ⊢
  refine (Reads.unquoted hp hq (fun hid => h ?_) hlonger).found rfl
  exact identifier_append_eq_length_iff.mpr ⟨hid, run_isIdentifierRest_of_stop hq⟩

theorem found_bracket {cs : List Char} {n : Nat} (h : bracketed? cs = some n)
    (hlonger : unquoted cs < n) : Found cs (.token .bracket, n) := by
  obtain ⟨hpos, hle⟩ := bracketed?_bound h
  obtain ⟨p, q, rfl, rfl⟩ := exists_split hle
  cases p with
  | nil => cases hpos
  | cons c p => exact (Reads.bracket ((bracketed?_append_iff le_rfl q).mp h) hlonger).found rfl

theorem found_lexeme (c : Char) (cs : List Char) : Found (c :: cs) (lexeme c cs) := by
  unfold lexeme
  split
  · next hc =>
    subst hc
    exact (Reads.leftParen cs).found rfl
  split
  · next hc =>
    subst hc
    exact (Reads.rightParen cs).found rfl
  split
  · next hc => exact found_blanks hc cs
  split
  · next hc => exact found_lineEnds hc cs
  split
  · next hc =>
    subst hc
    exact found_comment cs
  split
  · next hc =>
    subst hc
    cases hquoted : quoted cs with
    | closed n => exact found_quoted hquoted
    | stuck n => exact found_openQuote hquoted
  · next hleft hright hblank hend hhash hquote =>
    have hc : startsWord c = true := by
      simp [startsWord, isPlain, hleft, hright, hblank, hend, hhash, hquote]
    dsimp only
    split
    · next hstop => exact found_escape hc hstop
    · next hword =>
      split
      · next hid => exact found_identifier hword hid
      · next hid =>
        cases hbracket : bracketed? (c :: cs) with
        | none =>
          exact found_unquoted hword hid fun n hn => by
            rw [hbracket] at hn
            cases hn
        | some k =>
          dsimp only
          split
          · next hlt => exact found_bracket hbracket hlt
          · next hlt =>
            refine found_unquoted hword hid fun n hn => ?_
            rw [hbracket] at hn
            cases hn
            omega

theorem startsWord_of_unquoted {c : Char} {cs : List Char} (h : unquoted (c :: cs) ≠ 0) :
    startsWord c = true := by
  by_cases hc : c = '\\'
  · simp [startsWord, hc]
  · rw [unquoted_cons hc] at h
    cases hplain : isPlain c with
    | true => simp [startsWord, hplain]
    | false => simp [hplain] at h

/-- Where no other class begins, a word or a bracket is looked for. -/
theorem ne_of_startsWord {c : Char} (h : startsWord c = true) :
    c ≠ '(' ∧ c ≠ ')' ∧ isBlank c = false ∧ isLineEnd c = false ∧ c ≠ '#' ∧ c ≠ '"' := by
  rw [startsWord, Bool.or_eq_true, decide_eq_true_eq] at h
  rcases h with h | rfl
  · simp only [isPlain, Bool.not_eq_true', Bool.or_eq_false_iff, decide_eq_false_iff_not] at h
    obtain ⟨⟨⟨⟨⟨⟨hblank, hend⟩, hleft⟩, hright⟩, hhash⟩, hquote⟩, -⟩ := h
    exact ⟨hleft, hright, hblank, hend, hhash, hquote⟩
  · decide

theorem lexeme_unquoted {c : Char} {cs : List Char} (hword : unquoted (c :: cs) ≠ 0)
    (hid : identifier (c :: cs) ≠ unquoted (c :: cs))
    (hlonger : ∀ n, bracketed? (c :: cs) = some n → n ≤ unquoted (c :: cs)) :
    lexeme c cs = (.token .unquoted, unquoted (c :: cs)) := by
  obtain ⟨hleft, hright, hblank, hend, hhash, hquote⟩ :=
    ne_of_startsWord (startsWord_of_unquoted hword)
  cases hbracket : bracketed? (c :: cs) with
  | none => simp [lexeme, hleft, hright, hblank, hend, hhash, hquote, hword, hid, hbracket]
  | some n =>
    have hle := hlonger n hbracket
    simp [lexeme, hleft, hright, hblank, hend, hhash, hquote, hword, hid, hbracket,
      Nat.not_lt.mpr hle]

theorem lexeme_bracket {c : Char} {cs : List Char} {n : Nat} (h : bracketed? (c :: cs) = some n)
    (hlonger : unquoted (c :: cs) < n) : lexeme c cs = (.token .bracket, n) := by
  obtain ⟨level, -, hopen, -⟩ := bracketed?_eq_some_iff.mp h
  have hc : c = '[' := (List.cons_prefix_cons.mp hopen).1.symm
  subst hc
  have hword : unquoted ('[' :: cs) = unquoted cs + 1 := unquoted_plain (by decide) cs
  have hid : identifier ('[' :: cs) = 0 := rfl
  simp [lexeme, show isBlank '[' = false from rfl, show isLineEnd '[' = false from rfl, hword,
    hid, h, hword ▸ hlonger]

theorem lexeme_hash (cs : List Char) : lexeme '#' cs = comment cs := rfl

theorem lexeme_lineComment {cs : List Char} (h : ∀ level, ¬ bracketOpen level <+: cs) :
    lexeme '#' cs = (.skipped, 1 + lineComment cs) := by
  have hlevel : bracketLevel? cs = none :=
    Option.eq_none_iff_forall_ne_some.mpr fun level hlevel =>
      h level (bracketLevel?_eq_some_iff.mp hlevel)
  rw [lexeme_hash]
  simp only [comment, hlevel]

theorem lexeme_moduleComment {body : List Char} {n : Nat} (h : moduleBody? body = some n) :
    lexeme '#' ('[' :: '[' :: '[' :: body) = (.token .moduleComment, 4 + n) := by
  have hlevel : bracketLevel? ('[' :: '[' :: '[' :: body) = some 0 := rfl
  have hdoc : docBody? body ≠ none :=
    fun hnone => docBody?_eq_none_iff.mp hnone (docClosing_of_moduleBody? h)
  obtain ⟨m, hm⟩ := Option.ne_none_iff_exists'.mp hdoc
  rw [lexeme_hash]
  simp [comment, hlevel, hm, h]

theorem lexeme_docComment_of_body {body : List Char} {n : Nat} (h : docBody? body = some n)
    (hmodule : moduleBody? body = none) :
    lexeme '#' ('[' :: '[' :: '[' :: body) = (.token .docComment, 4 + n) := by
  have hlevel : bracketLevel? ('[' :: '[' :: '[' :: body) = some 0 := rfl
  rw [lexeme_hash]
  simp [comment, hlevel, h, hmodule]

theorem lexeme_openComment {rest : List Char} (hdoc : ¬ docClosing <:+: rest)
    (h : ¬ bracketClose 0 <:+: '[' :: rest) :
    lexeme '#' ('[' :: '[' :: '[' :: rest) = (.token .openComment, 4) := by
  have hlevel : bracketLevel? ('[' :: '[' :: '[' :: rest) = some 0 := rfl
  have hopen : bracketOpen 0 <+: '[' :: '[' :: '[' :: rest := ⟨'[' :: rest, rfl⟩
  have hbracket : bracketed? ('[' :: '[' :: '[' :: rest) = none :=
    (bracketed?_of_open hopen).mpr h
  rw [lexeme_hash]
  simp [comment, hlevel, docBody?_eq_none_iff.mpr hdoc, hbracket]

theorem lexeme_bracketComment {cs : List Char} {n : Nat}
    (hdoc : ∀ body, cs = '[' :: '[' :: '[' :: body → ¬ docClosing <:+: body)
    (h : bracketed? cs = some n) : lexeme '#' cs = (.skipped, 1 + n) := by
  obtain ⟨level, -, hopen, -⟩ := bracketed?_eq_some_iff.mp h
  have hlevel := bracketLevel?_eq_some_iff.mpr hopen
  rw [lexeme_hash]
  by_cases hstart : ['[', '[', '['] <+: cs
  · obtain ⟨body, rfl⟩ := hstart
    have hnone : docBody? body = none := docBody?_eq_none_iff.mpr (hdoc body rfl)
    simp only [List.cons_append, List.nil_append] at h hlevel
    simp [comment, hlevel, hnone, h]
  · simp [comment, hlevel, List.isPrefixOf_iff_prefix, hstart, h]

theorem lexeme_openBracket {cs : List Char} {level : Nat} (hlevel : bracketOpen level <+: cs)
    (hopen : ¬ ['[', '[', '['] <+: cs) (h : bracketed? cs = none) :
    lexeme '#' cs = (.fault, 1 + cs.length) := by
  rw [lexeme_hash]
  simp [comment, bracketLevel?_eq_some_iff.mpr hlevel, List.isPrefixOf_iff_prefix, hopen, h]

theorem lexeme_quoted {cs : List Char} {n : Nat} (h : quoted cs = .closed n) :
    lexeme '"' cs = (.token .quoted, 1 + n) := by
  simp [lexeme, isBlank, isLineEnd, h]

theorem lexeme_openQuote {cs : List Char} {n : Nat} (h : quoted cs = .stuck n) :
    lexeme '"' cs = (.fault, 1 + n) := by
  simp [lexeme, isBlank, isLineEnd, h]

theorem lexeme_escape {c : Char} {cs : List Char} (h : isEscapable c = false) :
    lexeme '\\' (c :: cs) = (.fault, 2) := by
  have hword : unquoted ('\\' :: c :: cs) = 0 := by simp [unquoted, h]
  have hlen : min 2 (1 + (cs.length + 1)) = 2 := Nat.min_eq_left (by omega)
  simp [lexeme, isBlank, isLineEnd, hword, hlen]

/-- What a rule allows is what the scanner finds. -/
theorem Reads.lexeme_eq {kind : PieceKind} {c : Char} {cs rest : List Char}
    (h : Reads kind (c :: cs) rest) : lexeme c (cs ++ rest) = (kind, (c :: cs).length) := by
  cases h with
  | leftParen => rfl
  | rightParen => rfl
  | blanks h hrest =>
    obtain ⟨hc, hcs⟩ := List.forall_mem_cons.mp h
    rw [lexeme_blank hc, run_append_eq_length_iff.mpr ⟨hcs, run_eq_zero_iff.mpr hrest⟩,
      List.length_cons, Nat.add_comm]
  | lineEnds h hrest =>
    obtain ⟨hc, hcs⟩ := List.forall_mem_cons.mp h
    rw [lexeme_lineEnd hc, run_append_eq_length_iff.mpr ⟨hcs, run_eq_zero_iff.mpr hrest⟩,
      List.length_cons, Nat.add_comm]
  | lineComment hlevel h =>
    rw [lexeme_lineComment hlevel, h, List.length_cons, Nat.add_comm]
  | moduleComment h =>
    simp only [List.cons_append]
    rw [lexeme_moduleComment h, Nat.add_comm]
    rfl
  | docComment h hmodule =>
    simp only [List.cons_append]
    rw [lexeme_docComment_of_body h hmodule, Nat.add_comm]
    rfl
  | openComment hdoc h => exact lexeme_openComment hdoc h
  | bracketComment hdoc h =>
    rw [lexeme_bracketComment hdoc ((bracketed?_append_iff le_rfl rest).mpr h),
      List.length_cons, Nat.add_comm]
  | openBracket hlevel hopen h =>
    rw [List.append_nil, lexeme_openBracket hlevel hopen h, List.length_cons, Nat.add_comm]
  | quoted h => rw [lexeme_quoted h, List.length_cons, Nat.add_comm]
  | openQuote h => rw [lexeme_openQuote h, List.length_cons, Nat.add_comm]
  | escape rest h =>
    rw [List.singleton_append, lexeme_escape h]
    rfl
  | backslash => rfl
  | identifier h hrest =>
    have hlen := unquoted_append_eq_length_iff.mpr ⟨unquoted_of_isIdentifier h, hrest⟩
    have hid := identifier_append_eq_length_iff.mpr ⟨h, run_isIdentifierRest_of_stop hrest⟩
    have hplain : isPlain c = true := by
      obtain ⟨_, _, heq, hc, -⟩ := h
      cases heq
      exact isPlain_of_isIdentifierRest (isIdentifierRest_of_start hc)
    have hfound : lexeme c (cs ++ rest) =
        (.token .identifier, Extent.unquoted (c :: (cs ++ rest))) :=
      lexeme_of_isPlain hplain (hid.trans hlen.symm)
    exact hfound.trans (congrArg (Prod.mk _) hlen)
  | unquoted h hrest hword hlonger =>
    have hlen := unquoted_append_eq_length_iff.mpr ⟨h, hrest⟩
    have hpos : Extent.unquoted (c :: (cs ++ rest)) ≠ 0 := by
      rw [← List.cons_append, hlen]
      exact Nat.succ_ne_zero _
    have hid : Extent.identifier (c :: (cs ++ rest)) ≠ Extent.unquoted (c :: (cs ++ rest)) :=
      fun hid => hword (identifier_append_eq_length_iff.mp (hid.trans hlen)).1
    rw [← hlen] at hlonger
    rw [lexeme_unquoted hpos hid hlonger]
    exact congrArg (Prod.mk _) hlen
  | bracket h hlonger => exact lexeme_bracket ((bracketed?_append_iff le_rfl rest).mpr h) hlonger

theorem pieces_of_reads {kind : PieceKind} {piece rest : List Char} (h : Reads kind piece rest) :
    pieces (piece ++ rest) = ⟨kind, piece⟩ :: pieces rest := by
  obtain ⟨c, cs, rfl⟩ := List.exists_cons_of_ne_nil h.ne_nil
  rw [pieces, List.cons_append, piecesAfter, h.lexeme_eq]
  dsimp only
  rw [← List.cons_append, List.take_left, piecesAfter_eq, List.length_cons, Nat.add_sub_cancel,
    List.drop_left]

/-- A text is empty, or a lexeme in front of another text. -/
@[elab_as_elim]
theorem text_induction {P : List Char → Prop} (nil : P [])
    (cons : ∀ kind piece rest, Reads kind piece rest → P rest → P (piece ++ rest))
    (cs : List Char) : P cs := by
  cases cs with
  | nil => exact nil
  | cons c cs =>
    obtain ⟨piece, rest, heq, -, hreads⟩ := found_lexeme c cs
    rw [heq]
    exact cons _ piece rest hreads (text_induction nil cons rest)
termination_by cs.length
decreasing_by
  have hlen := congrArg List.length heq
  have hpos := List.length_pos_iff.mpr hreads.ne_nil
  rw [List.length_append] at hlen
  omega

end Scan

end CMakeDocs
