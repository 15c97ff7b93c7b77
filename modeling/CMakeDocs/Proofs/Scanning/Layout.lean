import CMakeDocs.Proofs.Scanning.Spans

/-!
# Layout between lexemes

Blanks and line ends that are put behind a lexeme change no token. No mark has such a character in
it, so they complete none, and a word stops at them. A lexeme further in front is found again as
well: the text behind it begins as it did, and has no mark that it had not before.
-/
namespace CMakeDocs

namespace Extent

/-- Blanks and line ends. -/
def isLayout (c : Char) : Bool := isBlank c || isLineEnd c

theorem unquoted_layout {c : Char} (h : isLayout c = true) (cs : List Char) :
    unquoted (c :: cs) = 0 := by
  simp only [isLayout, isBlank, isLineEnd, Bool.or_eq_true, decide_eq_true_eq, or_assoc] at h
  rcases h with rfl | rfl | rfl | rfl <;> rfl

/-- A mark that layout has no part in. -/
def Solid (mark : List Char) : Prop := ∀ c ∈ mark, isLayout c = false

theorem solid_docClosing : Solid docClosing := by
  simp [Solid, docClosing, isLayout, isBlank, isLineEnd]

theorem solid_bracket {c : Char} (hc : isLayout c = false) (level : Nat) :
    Solid (c :: (List.replicate level '=' ++ [c])) := by
  intro d hd
  simp only [List.mem_cons, List.mem_append, List.mem_replicate, List.not_mem_nil, or_false] at hd
  rcases hd with rfl | ⟨-, rfl⟩ | rfl
  · exact hc
  · rfl
  · exact hc

theorem solid_bracketOpen (level : Nat) : Solid (bracketOpen level) := solid_bracket rfl level

theorem solid_bracketClose (level : Nat) : Solid (bracketClose level) := solid_bracket rfl level

/-- What some characters begin with stands in the first of them or goes on behind those. -/
theorem prefix_append_cases {mark p q : List Char} (h : mark <+: p ++ q) :
    mark <+: p ∨ ∃ c t, mark = p ++ c :: t ∧ c :: t <+: q := by
  rcases List.prefix_or_prefix_of_prefix h (List.prefix_append p q) with hp | ⟨t, rfl⟩
  · exact .inl hp
  · cases t with
    | nil => exact .inl (by simp)
    | cons c t => exact .inr ⟨c, t, rfl, (List.prefix_append_right_inj p).mp h⟩

section Insertion

variable {mark layout : List Char} (hmark : Solid mark) (hlayout : ∀ c ∈ layout, isLayout c = true)

include hmark hlayout

theorem prefix_of_insert {p q : List Char} (h : mark <+: p ++ (layout ++ q)) :
    mark <+: p ++ q := by
  cases layout with
  | nil => exact h
  | cons d layout =>
    rcases prefix_append_cases h with hp | ⟨c, t, rfl, ht⟩
    · exact hp.trans (List.prefix_append p q)
    · have hc : isLayout c = true := by
        rw [(List.cons_prefix_cons.mp ht).1]
        exact hlayout d List.mem_cons_self
      rw [hmark c (by simp)] at hc
      cases hc

/-- Layout completes no mark. -/
theorem infix_of_insert {p q : List Char} (h : mark <:+: p ++ (layout ++ q)) :
    mark <:+: p ++ q := by
  induction p with
  | nil =>
    rw [List.nil_append] at h ⊢
    induction layout with
    | nil => exact h
    | cons d layout ih =>
      rcases List.infix_cons_iff.mp h with h | h
      · exact (prefix_of_insert (p := []) hmark hlayout h).isInfix
      · exact ih (List.forall_mem_cons.mp hlayout).2 h
  | cons c p ih =>
    rcases List.infix_cons_iff.mp h with h | h
    · exact (prefix_of_insert hmark hlayout h).isInfix
    · exact List.infix_cons (ih h)

end Insertion

/-- The first characters do for a lexeme before them what the others do: they stop a word where
those stop one, and complete no mark that those would not complete. -/
structure StandsFor (y' y : List Char) : Prop where
  word : unquoted y = 0 → unquoted y' = 0
  starts : ∀ {mark}, Solid mark → ∀ z, mark <+: z ++ y' → mark <+: z ++ y
  contains : ∀ {mark}, Solid mark → ∀ z, mark <:+: z ++ y' → mark <:+: z ++ y

theorem StandsFor.of_insert {layout p q : List Char} (hlayout : ∀ c ∈ layout, isLayout c = true)
    (hword : unquoted (p ++ q) = 0 → unquoted (p ++ (layout ++ q)) = 0) :
    StandsFor (p ++ (layout ++ q)) (p ++ q) where
  word := hword
  starts hmark z h := by
    rw [← List.append_assoc] at h ⊢
    exact prefix_of_insert hmark hlayout h
  contains hmark z h := by
    rw [← List.append_assoc] at h ⊢
    exact infix_of_insert hmark hlayout h

theorem StandsFor.layout {layout : List Char} (hlayout : ∀ c ∈ layout, isLayout c = true)
    (q : List Char) : StandsFor (layout ++ q) q := by
  refine of_insert (p := []) hlayout fun h => ?_
  cases layout with
  | nil => exact h
  | cons d layout => exact unquoted_layout (hlayout d List.mem_cons_self) _

/-- The opening of a bracket does not go on behind the end of a word. -/
theorem bracketOpen_le {cs y : List Char} {level : Nat} (hstop : unquoted y = 0)
    (h : bracketOpen level <+: cs ++ y) : level + 2 ≤ cs.length := by
  rcases prefix_append_cases h with hp | ⟨c, t, heq, s, rfl⟩
  · rw [← length_bracketOpen level]
    exact hp.length_le
  · have hmem : c ∈ bracketOpen level := by rw [heq]; simp
    have hc : isPlain c = true := by
      simp only [bracketOpen, List.mem_cons, List.mem_append, List.mem_replicate,
        List.not_mem_nil, or_false] at hmem
      rcases hmem with rfl | ⟨-, rfl⟩ | rfl <;> rfl
    have hplain := isPlain_head_of_stop hstop
    rw [hc] at hplain
    cases hplain

/-- No bracket gets longer than a word by what stands for the characters behind the word. -/
theorem StandsFor.bracketed?_le {cs y y' : List Char} {n : Nat} (hy : StandsFor y' y)
    (hstop : unquoted y = 0) (hlonger : ∀ m, bracketed? (cs ++ y) = some m → m ≤ cs.length)
    (h : bracketed? (cs ++ y') = some n) : n ≤ cs.length := by
  obtain ⟨level, i, hopen, hi, -⟩ := bracketed?_eq_some_iff.mp h
  have hfits := bracketOpen_le (hy.word hstop) hopen
  have hclose : bracketClose level <:+: (cs ++ y').drop (level + 2) :=
    (find?_eq_some_iff.mp hi).1.isInfix.trans (List.drop_suffix _ _).isInfix
  rw [List.drop_append_of_le_length hfits] at hclose
  have hclose' := hy.contains (solid_bracketClose level) _ hclose
  rw [← List.drop_append_of_le_length hfits] at hclose'
  have hsome : bracketed? (cs ++ y) ≠ none := fun hnone =>
    (bracketed?_of_open (hy.starts (solid_bracketOpen level) cs hopen)).mp hnone hclose'
  obtain ⟨m, hm⟩ := Option.ne_none_iff_exists'.mp hsome
  have hle := hlonger m hm
  rw [bracketed?_append_iff hle, ← bracketed?_append_iff hle y', h] at hm
  cases hm
  exact hle

end Extent

namespace Scan

open Extent

theorem Reads.token_of_standsFor {kind : TokenKind} {piece y y' : List Char}
    (h : Reads (.token kind) piece y) (hy : StandsFor y' y) : Reads (.token kind) piece y' := by
  cases h with
  | leftParen => exact .leftParen y'
  | rightParen => exact .rightParen y'
  | moduleComment h =>
    exact .moduleComment (moduleBody?_append h (mt (hy.contains solid_docClosing [])))
  | @docComment body _ h hmodule =>
    -- The comment closes itself, so nothing behind it can make a module comment of it.
    have hbody := (docBody?_append_iff le_rfl y).mp h
    have hclosing : docClosing <:+: body := by
      refine Classical.byContradiction fun hnone => ?_
      rw [docBody?_eq_none_iff.mpr hnone] at hbody
      cases hbody
    rw [moduleBody?_append_eq_none_iff hclosing] at hmodule
    exact .docComment ((docBody?_append_iff le_rfl y').mpr hbody)
      ((moduleBody?_append_eq_none_iff hclosing y').mpr hmodule)
  | openComment hdoc h =>
    exact .openComment (mt (hy.contains solid_docClosing []) hdoc)
      (mt (hy.contains (solid_bracketClose 0) ['[']) h)
  | quoted h =>
    refine .quoted ((quoted_append ?_ ?_ y').trans h)
    · rw [h]
      exact le_rfl
    · rw [h]
      intro hstuck
      cases hstuck
  | identifier h hrest => exact .identifier h (hy.word hrest)
  | unquoted h hrest hword hlonger =>
    exact .unquoted h (hy.word hrest) hword fun n => hy.bracketed?_le hrest hlonger
  | @bracket c cs _ h hlonger =>
    -- A bracket ends with a character that escapes nothing: no word goes on from it by an escape.
    have hle : Extent.unquoted (c :: cs) ≤ Extent.unquoted (c :: cs ++ y) := by
      rw [unquoted_append_eq]
      omega
    refine .bracket h ?_
    rw [unquoted_append_of_getLast (hle.trans_lt hlonger) (bracketed?_getLast h) (by decide)]
    exact hle.trans_lt hlonger

theorem Reads.bracketComment_of_standsFor {cs y y' : List Char}
    (hdoc : ∀ body, cs ++ y = '[' :: '[' :: '[' :: body → ¬ docClosing <:+: body)
    (h : bracketed? cs = some cs.length) (hy : StandsFor y' y) :
    Reads .skipped ('#' :: cs) y' := by
  refine .bracketComment (fun body heq => ?_) h
  -- The bracket itself has the characters that a documentation comment would begin with.
  have hstart : ['[', '[', '['] <+: cs := by
    refine List.prefix_of_prefix_length_le ⟨body, heq.symm⟩ (List.prefix_append cs y') ?_
    exact Nat.le_of_succ_le (bracketed?_bound h).1
  obtain ⟨t, rfl⟩ := hstart
  have hbody : body = t ++ y' := by simpa using heq.symm
  rw [hbody]
  exact mt (hy.contains solid_docClosing t) (hdoc (t ++ y) rfl)

/-- A lexeme is found again in front of characters that begin like those it stood before and can
stand for them. -/
theorem Reads.of_standsFor {kind : PieceKind} {piece y y' : List Char} (h : Reads kind piece y)
    (hy : StandsFor y' y) (hne : y ≠ []) (hhead : y'.head? = y.head?) : Reads kind piece y' := by
  cases kind with
  | token kind => exact h.token_of_standsFor hy
  | skipped =>
    cases h with
    | blanks h hrest => exact .blanks h (by rwa [hhead])
    | lineEnds h hrest => exact .lineEnds h (by rwa [hhead])
    | lineComment hlevel h =>
      exact .lineComment (fun level => mt (hy.starts (solid_bracketOpen level) _) (hlevel level))
        (lineComment_congr h hne hhead)
    | bracketComment hdoc h => exact .bracketComment_of_standsFor hdoc h hy
  | fault =>
    cases h with
    | openBracket => exact absurd rfl hne
    | openQuote h =>
      refine .openQuote ((quoted_append ?_ ?_ y').trans h)
      · rw [h]
        exact le_rfl
      · rw [h, Ne, Closing.stuck.injEq, List.length_append, Nat.left_eq_add,
          List.length_eq_zero_iff]
        exact hne
    | escape _ h => exact .escape y' h
    | backslash => exact absurd rfl hne

theorem words_of_reads {kind : PieceKind} {piece rest : List Char} (h : Reads kind piece rest) :
    words (piece ++ rest) = (Piece.word? ⟨kind, piece⟩).toList ++ words rest := by
  rw [words, pieces_of_reads h, words]
  cases hword : Piece.word? ⟨kind, piece⟩ with
  | none => rw [List.filterMap_cons_none hword]; rfl
  | some word => rw [List.filterMap_cons_some hword]; rfl

theorem words_layout {layout : List Char} (h : ∀ c ∈ layout, isLayout c = true)
    (rest : List Char) : words (layout ++ rest) = words rest := by
  induction layout with
  | nil => rfl
  | cons c layout ih =>
    obtain ⟨hc, hlayout⟩ := List.forall_mem_cons.mp h
    rw [List.cons_append, ← ih hlayout]
    rcases Bool.or_eq_true_iff.mp hc with hc | hc
    · exact words_blank hc _
    · exact words_lineEnd hc _

/-- Layout behind something that is skipped is skipped too. -/
theorem Reads.words_skipped {piece layout y : List Char} (h : Reads .skipped piece y)
    (hlayout : ∀ c ∈ layout, isLayout c = true) : words (piece ++ (layout ++ y)) = words y := by
  cases h with
  | blanks h _ =>
    rw [words_layout (fun d hd => by simp [isLayout, h d hd]), words_layout hlayout]
  | lineEnds h _ =>
    rw [words_layout (fun d hd => by simp [isLayout, h d hd]), words_layout hlayout]
  | @lineComment cs _ hlevel h =>
    obtain ⟨k, hk, hlen⟩ := lineComment_insert h layout
    have hlexeme : lexeme '#' (cs ++ (layout ++ y)) = (.skipped, 1 + (cs.length + k)) := by
      rw [lexeme_lineComment, hlen]
      exact fun level => mt (prefix_of_insert (solid_bracketOpen level) hlayout) (hlevel level)
    rw [List.cons_append, words_of_skipped hlexeme, List.drop_length_add_append,
      List.drop_append_of_le_length hk,
      words_layout fun c hc => hlayout c (List.mem_of_mem_drop hc)]
  | bracketComment hdoc h =>
    have hreads := Reads.bracketComment_of_standsFor hdoc h (.layout hlayout y)
    rw [words_of_reads hreads, words_layout hlayout]
    rfl

/-- The first characters end with a lexeme of the text that they and the others make up. -/
inductive Boundary : List Char → List Char → Prop where
  | piece {kind : PieceKind} {piece after : List Char} (h : Reads kind piece after)
      (hkind : kind ≠ .fault) : Boundary piece after
  | later {kind : PieceKind} {piece before after : List Char}
      (h : Reads kind piece (before ++ after)) (hb : Boundary before after) :
      Boundary (piece ++ before) after

namespace Boundary

variable {before after layout : List Char}

theorem ne_nil (h : Boundary before after) : before ≠ [] := by
  cases h with
  | piece h _ => exact h.ne_nil
  | later h _ => simp [h.ne_nil]

/-- A lone backslash is part of a lexeme or a fault. -/
theorem ne_backslash (h : Boundary before after) : before ≠ ['\\'] := by
  intro heq
  cases h with
  | piece h hkind =>
    subst heq
    cases h with
    | blanks h _ => exact absurd (h '\\' List.mem_cons_self) (by decide)
    | lineEnds h _ => exact absurd (h '\\' List.mem_cons_self) (by decide)
    | backslash => exact hkind rfl
    | identifier h _ => exact absurd h (by decide)
    | unquoted h _ _ _ => exact absurd h (by decide)
    | bracket h _ => exact absurd (bracketed?_bound h).1 (by decide)
  | later h hb =>
    rcases List.append_eq_singleton_iff.mp heq with ⟨hp, -⟩ | ⟨-, hb'⟩
    · exact h.ne_nil hp
    · exact hb.ne_nil hb'

theorem standsFor (h : Boundary before after) (hlayout : ∀ c ∈ layout, isLayout c = true) :
    StandsFor (before ++ (layout ++ after)) (before ++ after) := by
  refine .of_insert hlayout fun hstop => ?_
  rw [unquoted_append_eq] at hstop
  exact unquoted_append_eq_zero (by omega) h.ne_nil h.ne_backslash _

theorem words_insert (h : Boundary before after) (hlayout : ∀ c ∈ layout, isLayout c = true) :
    words (before ++ (layout ++ after)) = words (before ++ after) := by
  induction h with
  | @piece kind piece after h hkind =>
    cases kind with
    | token kind =>
      rw [words_of_reads (h.token_of_standsFor (.layout hlayout after)), words_of_reads h,
        words_layout hlayout]
    | skipped =>
      rw [h.words_skipped hlayout, words_of_reads h]
      rfl
    | fault => exact absurd rfl hkind
  | @later kind piece before after h hb ih =>
    have hhead : (before ++ (layout ++ after)).head? = (before ++ after).head? := by
      obtain ⟨c, cs, rfl⟩ := List.exists_cons_of_ne_nil hb.ne_nil
      rfl
    have hne : before ++ after ≠ [] := by simp [hb.ne_nil]
    rw [List.append_assoc, List.append_assoc, words_of_reads h,
      words_of_reads (h.of_standsFor (hb.standsFor hlayout) hne hhead), ih]

end Boundary

/-- Where a span ends that is no fault, a text can be divided. -/
theorem exists_boundary {cs : List Char} {start : Nat} {s : Span}
    (hs : s ∈ spansFrom start (pieces cs)) (hkind : s.kind ≠ .fault) :
    ∃ before after, cs = before ++ after ∧ s.stop = start + before.length ∧
      Boundary before after := by
  induction cs using text_induction generalizing start with
  | nil => simp [pieces, piecesAfter, spansFrom] at hs
  | cons kind piece rest h ih =>
    rw [spansFrom_of_reads h] at hs
    rcases List.mem_cons.mp hs with rfl | hs
    · exact ⟨piece, rest, rfl, rfl, .piece h hkind⟩
    · obtain ⟨before, after, rfl, hstop, hb⟩ := ih hs
      refine ⟨piece ++ before, after, (List.append_assoc _ _ _).symm, ?_, .later h hb⟩
      rw [hstop, List.length_append, Nat.add_assoc]

end Scan

theorem Token.ofText_words (text : String) :
    (ofText text).map Token.word = Scan.words text.toList := by
  obtain ⟨last, htokens, -⟩ := Cell.ofText_tokens text
  have hwords := Cell.ofPieces_words (Scan.pieces text.toList) 0 Position.origin []
  rw [← Cell.ofText, htokens, List.map_append] at hwords
  exact List.append_inj_left' hwords rfl

/-- Layout at the start of a text or behind a lexeme leaves the tokens as they are. -/
theorem Token.ofText_insert_layout (text layout : String) (cut : Nat)
    (hcut : cut = 0 ∨ ∃ s ∈ Scan.spans text.toList, s.kind ≠ .fault ∧ s.stop = cut)
    (hlayout : ∀ c ∈ layout.toList, Extent.isLayout c = true) :
    (ofText (String.ofList (text.toList.take cut ++ layout.toList ++ text.toList.drop cut))).map
        Token.word = (ofText text).map Token.word := by
  rw [ofText_words, ofText_words, String.toList_ofList, List.append_assoc]
  rcases hcut with rfl | ⟨s, hs, hkind, rfl⟩
  · exact Scan.words_layout hlayout _
  · obtain ⟨before, after, htext, hstop, hb⟩ := Scan.exists_boundary hs hkind
    rw [hstop, Nat.zero_add, htext, List.take_left, List.drop_left]
    exact hb.words_insert hlayout

/-- The mark that closes this module comment stands in its name, which goes on behind it. -/
theorem Token.ofText_insert_layout_in_name :
    (∃ s ∈ Scan.spans "#[[[ @module a\\#]]b(x)".toList, s.kind ≠ .fault ∧ s.stop = 18) ∧
    (∀ c ∈ "\n\t".toList, Extent.isLayout c = true) ∧
    (ofText "#[[[ @module a\\#]]\n\tb(x)").map Token.word =
      (ofText "#[[[ @module a\\#]]b(x)").map Token.word := by
  have hcut : ∃ s ∈ Scan.spans "#[[[ @module a\\#]]b(x)".toList, s.kind ≠ .fault ∧ s.stop = 18 :=
    ⟨⟨.token .moduleComment, 0, 18⟩, by decide, by decide, rfl⟩
  have hlayout : ∀ c ∈ "\n\t".toList, Extent.isLayout c = true := List.all_eq_true.mp rfl
  exact ⟨hcut, hlayout,
    ofText_insert_layout "#[[[ @module a\\#]]b(x)" "\n\t" 18 (.inr hcut) hlayout⟩

end CMakeDocs
