import CMakeDocs.Proofs.Scanning.Spans
import Mathlib.Order.Bounds.Basic

/-!
# Where comments and brackets close

What is read at an opening follows from the marks behind it. A documentation comment goes on to the
first mark that closes one, whatever else closes before that. A bracket goes on to the first mark of
its own level, unless a word that begins in the same place is as long. Both hold wherever the
scanner begins a piece, so a text is taken apart by its openings and the first marks behind them.
-/
namespace CMakeDocs

namespace Extent

/-- The indices at which a mark stands, from a given one on. -/
def marksFrom (mark cs : List Char) (first : Nat) : Set Nat :=
  {i | first ≤ i ∧ mark <+: cs.drop i}

theorem find?_drop_eq_some_iff {mark cs : List Char} {first i : Nat} :
    find? mark (cs.drop first) = some i ↔ IsLeast (marksFrom mark cs first) (first + i) := by
  rw [find?_eq_some_iff, List.drop_drop]
  constructor
  · rintro ⟨hmark, hfirst⟩
    refine ⟨⟨Nat.le_add_right first i, hmark⟩, fun j hj => Nat.le_of_not_lt fun hlt => ?_⟩
    obtain ⟨k, rfl⟩ := Nat.exists_eq_add_of_le hj.1
    refine hfirst k (by omega) ?_
    rw [List.drop_drop]
    exact hj.2
  · rintro ⟨⟨-, hmark⟩, hleast⟩
    refine ⟨hmark, fun j hj hmem => ?_⟩
    rw [List.drop_drop] at hmem
    have hle : first + i ≤ first + j := hleast ⟨Nat.le_add_right first j, hmem⟩
    omega

theorem find?_drop_eq_none_iff {mark cs : List Char} {first : Nat} :
    find? mark (cs.drop first) = none ↔ marksFrom mark cs first = ∅ := by
  constructor
  · intro hnone
    refine Set.eq_empty_of_forall_notMem fun i hi => find?_eq_none_iff.mp hnone ?_
    obtain ⟨k, rfl⟩ := Nat.exists_eq_add_of_le hi.1
    have hmark : mark <+: (cs.drop first).drop k := by
      rw [List.drop_drop]
      exact hi.2
    exact hmark.isInfix.trans (List.drop_suffix k _).isInfix
  · intro hempty
    refine Option.eq_none_iff_forall_ne_some.mpr fun i hi => ?_
    have hmem := (find?_drop_eq_some_iff.mp hi).1
    rw [hempty] at hmem
    exact hmem

/-- The first of the marks from an index on is the one that is found there. -/
theorem exists_find?_of_isLeast {mark cs : List Char} {first i : Nat}
    (h : IsLeast (marksFrom mark cs first) i) :
    ∃ k, i = first + k ∧ find? mark (cs.drop first) = some k := by
  obtain ⟨k, rfl⟩ := Nat.exists_eq_add_of_le h.1.1
  exact ⟨k, rfl, find?_drop_eq_some_iff.mpr h⟩

/-- What follows the opening of a module comment: blanks and the mark of a module. -/
def BeginsModule (cs : List Char) : Prop :=
  ∃ blanks, (∀ c ∈ blanks, isBlank c = true) ∧ blanks ++ moduleMark <+: cs

theorem beginsModule_iff {cs : List Char} : BeginsModule cs ↔ moduleRest? cs ≠ none := by
  rw [Ne, moduleRest?_eq_none_iff, BeginsModule]
  push Not
  rfl

theorem find?_docClosing_append {p : List Char} (hp : '#' ∉ p) (q : List Char) :
    find? docClosing (p ++ q) = (find? docClosing q).map (· + p.length) := by
  induction p with
  | nil => simp
  | cons c p ih =>
    have hc : '#' ≠ c := List.ne_of_not_mem_cons hp
    rw [List.cons_append,
      Scan.find?_cons_of_not_start (by simp [docClosing, List.isPrefixOf, hc]),
      ih (List.not_mem_of_not_mem_cons hp), Option.map_map]
    rfl

/-- Without a backslash no word goes on behind a `#`. -/
theorem unquoted_le_of_hash {a : List Char} (h : '\\' ∉ a) (b : List Char) :
    unquoted (a ++ '#' :: b) ≤ a.length := by
  induction a with
  | nil => exact Nat.le_refl 0
  | cons c a ih =>
    have hle := ih (List.not_mem_of_not_mem_cons h)
    rw [List.cons_append, Scan.unquoted_cons (List.ne_of_not_mem_cons h).symm, List.length_cons]
    split
    · omega
    · omega

theorem moduleName_le_of_hash {a : List Char} (h : '\\' ∉ a) (b : List Char) :
    moduleName (a ++ '#' :: b) ≤ a.length := by
  have hrun : run isBlank (a ++ '#' :: b) = run isBlank a := run_append_of_stop rfl a
  have hblanks := run_le isBlank a
  have hname := unquoted_le_of_hash (fun hmem => h (List.mem_of_mem_drop hmem)) b
    (a := a.drop (run isBlank a))
  rw [List.length_drop] at hname
  rw [moduleName, hrun, List.drop_append_of_le_length hblanks]
  split
  · omega
  · omega

/-- With no backslash before it, the first mark closes a module comment too. -/
theorem moduleClosing?_of_first {rest : List Char} {i : Nat} (h : find? docClosing rest = some i)
    (hslash : '\\' ∉ rest.take i) : moduleClosing? rest = some i := by
  have hfirst : IsLeast (marksFrom docClosing rest 0) (0 + i) := find?_drop_eq_some_iff.mp h
  rw [Nat.zero_add] at hfirst
  obtain ⟨tail, htail⟩ := hfirst.1.2
  have hname : moduleName rest ≤ i := by
    have hle := moduleName_le_of_hash hslash (']' :: ']' :: tail)
    have hsplit : rest.take i ++ '#' :: ']' :: ']' :: tail = rest :=
      (congrArg (rest.take i ++ ·) htail).trans (List.take_append_drop i rest)
    rw [hsplit, List.length_take] at hle
    omega
  obtain ⟨k, rfl⟩ := Nat.exists_eq_add_of_le hname
  refine moduleClosing?_eq_some_iff.mpr (.inl ⟨k, ?_, Nat.add_comm _ _⟩)
  exact find?_drop_eq_some_iff.mpr ⟨⟨hname, hfirst.1.2⟩, fun j hj => hfirst.2 ⟨Nat.zero_le j, hj.2⟩⟩

theorem moduleBody?_of_first {cs : List Char} {i : Nat} (hmodule : moduleRest? cs ≠ none)
    (h : find? docClosing cs = some i) (hslash : '\\' ∉ cs.take i) :
    moduleBody? cs = some (i + 3) := by
  obtain ⟨⟨before, rest⟩, hrest⟩ := Option.ne_none_iff_exists'.mp hmodule
  obtain ⟨blanks, hblanks, rfl, rfl⟩ := moduleRest?_eq_some_iff.mp hrest
  rw [find?_docClosing_append (hash_not_mem_moduleStart hblanks), Option.map_eq_some_iff] at h
  obtain ⟨k, hk, rfl⟩ := h
  rw [Nat.add_comm k, List.take_length_add_append] at hslash
  have hclosing := moduleClosing?_of_first hk fun hmem => hslash (List.mem_append_right _ hmem)
  exact moduleBody?_eq_some_iff.mpr ⟨_, rest, k, hrest, hclosing, by omega⟩

/-- A module comment ends with a mark that closes it. -/
theorem moduleBody?_mark {cs : List Char} {n : Nat} (h : moduleBody? cs = some n) :
    ∃ j, n = j + 3 ∧ docClosing <+: cs.drop j := by
  obtain ⟨before, rest, i, hrest, hi, rfl⟩ := moduleBody?_eq_some_iff.mp h
  obtain ⟨blanks, -, rfl, rfl⟩ := moduleRest?_eq_some_iff.mp hrest
  refine ⟨(blanks ++ moduleMark).length + i, rfl, ?_⟩
  rw [List.drop_length_add_append]
  exact moduleClosing?_mark hi

/-- What an unquoted argument is made of: plain characters and escapes. -/
inductive IsWord : List Char → Prop where
  | plain {c : Char} (h : isPlain c = true) : IsWord [c]
  | escape {c : Char} (h : isEscapable c = true) : IsWord ['\\', c]
  | append {v w : List Char} (hv : IsWord v) (hw : IsWord w) : IsWord (v ++ w)

theorem IsWord.unquoted_append {w : List Char} (h : IsWord w) (rest : List Char) :
    unquoted (w ++ rest) = w.length + unquoted rest := by
  induction h generalizing rest with
  | plain h => rw [List.singleton_append, unquoted_plain h, List.length_singleton, Nat.add_comm]
  | escape h => exact (unquoted_escape h rest).trans (Nat.add_comm _ 2)
  | append _ _ ihv ihw =>
    rw [List.append_assoc, ihv, ihw, List.length_append, Nat.add_assoc]

theorem isWord_take {cs : List Char} (h : unquoted cs ≠ 0) : IsWord (cs.take (unquoted cs)) := by
  induction cs using word_induction with
  | escape c cs hc ih =>
    rw [unquoted_escape hc, List.take_succ_cons, List.take_succ_cons]
    by_cases hzero : unquoted cs = 0
    · rw [hzero]
      exact .escape hc
    · exact .append (.escape hc) (ih hzero)
  | plain c cs hc ih =>
    rw [unquoted_plain hc, List.take_succ_cons]
    by_cases hzero : unquoted cs = 0
    · rw [hzero]
      exact .plain hc
    · exact .append (.plain hc) (ih hzero)
  | stop cs hstop => exact absurd hstop h

/-- The indices at which the words end that begin at a given one. -/
def wordEnds (cs : List Char) (first : Nat) : Set Nat :=
  {i | ∃ w, IsWord w ∧ w <+: cs.drop first ∧ i = first + w.length}

theorem isGreatest_wordEnds {cs : List Char} {first : Nat} (h : unquoted (cs.drop first) ≠ 0) :
    IsGreatest (wordEnds cs first) (first + unquoted (cs.drop first)) := by
  constructor
  · refine ⟨_, isWord_take h, List.take_prefix _ _, ?_⟩
    rw [List.length_take, Nat.min_eq_left (unquoted_le _)]
  · rintro i ⟨w, hw, ⟨rest, hrest⟩, rfl⟩
    rw [← hrest, hw.unquoted_append]
    omega

end Extent

namespace Scan

open Extent

/-- The scanner begins a piece at an index. -/
def BeginsAt (cs : List Char) (p : Nat) : Prop := ∃ s ∈ spans cs, s.start = p

/-- A span of a text with all others before it or behind it. The tokens of the text and its reports
are those of the spans before, then what the span itself gives, and then those of the others. -/
structure Divides (text : String) (before : List Span) (s : Span) (after : List Span) : Prop where
  spans_eq : spans text.toList = before ++ s :: after
  before_le : ∀ t ∈ before, t.stop ≤ s.start
  le_after : ∀ t ∈ after, s.stop ≤ t.start
  tokens_eq : Token.ofText text = before.filterMap (Span.token? text.toList) ++
    ((s.token? text.toList).toList ++ after.filterMap (Span.token? text.toList))
  reports_eq : Token.reportsOfText text = before.filterMap (Span.report? text.toList) ++
    ((s.report? text.toList).toList ++ after.filterMap (Span.report? text.toList))

/-- The scanner takes the characters of a span as one piece. -/
def Takes (text : String) (s : Span) : Prop := ∃ before after, Divides text before s after

theorem filterMap_append_cons {α β : Type} (f : α → Option β) (xs : List α) (x : α)
    (ys : List α) :
    (xs ++ x :: ys).filterMap f = xs.filterMap f ++ ((f x).toList ++ ys.filterMap f) := by
  rw [List.filterMap_append, List.filterMap_cons]
  cases f x <;> rfl

theorem takes_of_mem {text : String} {s : Span} (h : s ∈ spans text.toList) : Takes text s := by
  obtain ⟨before, after, hspans⟩ := List.append_of_mem h
  have hordered : (spans text.toList).Pairwise fun s t => s.stop ≤ t.start :=
    (spansFrom_tiles text.toList 0).ordered
  rw [hspans, List.pairwise_append, List.pairwise_cons] at hordered
  obtain ⟨-, ⟨hafter, -⟩, hbefore⟩ := hordered
  refine ⟨before, after, hspans, fun t ht => hbefore t ht s List.mem_cons_self, hafter, ?_, ?_⟩
  · rw [Token.ofText_eq_spans, hspans, filterMap_append_cons]
  · rw [Token.reportsOfText_eq_spans, hspans, filterMap_append_cons]

theorem stop_le_of_mem {cs : List Char} {s : Span} (h : s ∈ spans cs) : s.stop ≤ cs.length := by
  have htiles := spansFrom_tiles cs 0
  have hlt := htiles.nonempty s h
  have hlast := ((htiles.covered (s.stop - 1)).mpr ⟨s, h, by omega, by omega⟩).2
  omega

/-- What begins at an index is the lexeme that is found there. -/
theorem takes_of_lexeme {text : String} {p n : Nat} {c : Char} {cs : List Char} {kind : PieceKind}
    (hp : BeginsAt text.toList p) (hcut : text.toList.drop p = c :: cs)
    (h : lexeme c cs = (kind, n)) : Takes text ⟨kind, p, p + n⟩ := by
  obtain ⟨s, hs, rfl⟩ := hp
  have hlt := (spansFrom_tiles text.toList 0).nonempty s hs
  have hle := stop_le_of_mem hs
  have hreads := spansFrom_reads [] text.toList s hs
  rw [List.nil_append] at hreads
  obtain ⟨d, ds, hpiece⟩ := List.exists_cons_of_ne_nil hreads.ne_nil
  have hlen : (d :: ds).length = s.stop - s.start := by
    rw [← hpiece, List.extract_eq_take_drop, List.length_take, List.length_drop]
    omega
  have hwhole : d :: (ds ++ text.toList.drop s.stop) = c :: cs := by
    have hdrop : text.toList.drop s.stop = (text.toList.drop s.start).drop (s.stop - s.start) := by
      rw [List.drop_drop, Nat.add_sub_cancel' hlt.le]
    rw [← List.cons_append, ← hpiece, List.extract_eq_take_drop, hdrop, List.take_append_drop, hcut]
  rw [hpiece] at hreads
  have hfound := hreads.lexeme_eq
  obtain ⟨rfl, rfl⟩ := List.cons.inj hwhole
  rw [hfound, hlen] at h
  cases h
  rw [Nat.add_sub_cancel' hlt.le]
  exact takes_of_mem hs

/-- The token that begins where a piece does is that piece. -/
theorem Takes.token_eq {text : String} {s : Span} (h : Takes text s) {t : Token}
    (ht : t ∈ Token.ofText text) (hstart : t.start = s.start) : s.token? text.toList = some t := by
  obtain ⟨before, after, hdivides⟩ := h
  have hnonempty := (spansFrom_tiles text.toList 0).nonempty
  have hs := hnonempty s (by rw [← spans, hdivides.spans_eq]; simp)
  rw [Token.ofText_eq_spans] at ht
  obtain ⟨s', hs', ht'⟩ := List.mem_filterMap.mp ht
  have hlt := hnonempty s' hs'
  have hsame := (Span.token?_eq_some hlt (stop_le_of_mem hs') ht').1.trans hstart
  rw [hdivides.spans_eq, List.mem_append, List.mem_cons] at hs'
  rcases hs' with hs' | rfl | hs'
  · have hle := hdivides.before_le s' hs'
    omega
  · exact ht'
  · have hle := hdivides.le_after s' hs'
    omega

theorem lexeme_of_unclosed {body : List Char} (h : ¬ docClosing <:+: body) :
    ∃ n, lexeme '#' ('[' :: '[' :: '[' :: body) = (.skipped, n) ∨
      lexeme '#' ('[' :: '[' :: '[' :: body) = (.token .openComment, n) := by
  have hopen : bracketOpen 0 <+: '[' :: '[' :: '[' :: body := ⟨'[' :: body, rfl⟩
  cases hbracket : bracketed? ('[' :: '[' :: '[' :: body) with
  | none => exact ⟨4, .inr (lexeme_openComment h ((bracketed?_of_open hopen).mp hbracket))⟩
  | some n =>
    refine ⟨1 + n, .inl (lexeme_bracketComment (fun body' heq => ?_) hbracket)⟩
    cases heq
    exact h

section DocComment

variable {text : String} {p : Nat} {body : List Char} (hp : BeginsAt text.toList p)
  (hcut : text.toList.drop p = '#' :: '[' :: '[' :: '[' :: body)

include hcut

theorem drop_docOpening : text.toList.drop (p + 4) = body := by
  rw [← List.drop_drop, hcut]
  rfl

include hp

theorem takes_docComment {k : Nat} (hfirst : find? docClosing body = some k)
    (hmodule : moduleRest? body = none) :
    Takes text ⟨.token .docComment, p, p + 4 + k + 3⟩ := by
  have hbody : docBody? body = some (k + 3) := docBody?_eq_some_iff.mpr ⟨k, hfirst, rfl⟩
  have hmodule' : moduleBody? body = none := by
    rw [moduleBody?, hmodule]
    rfl
  have htakes := takes_of_lexeme hp hcut (lexeme_docComment_of_body hbody hmodule')
  rwa [show p + (4 + (k + 3)) = p + 4 + k + 3 by omega] at htakes

theorem takes_moduleComment {k : Nat} (hfirst : find? docClosing body = some k)
    (hmodule : moduleRest? body ≠ none) :
    ∃ j, docClosing <+: body.drop j ∧ Takes text ⟨.token .moduleComment, p, p + 4 + j + 3⟩ ∧
      ('\\' ∉ body.take k → j = k) := by
  have hclosing : docClosing <:+: body := by
    refine Classical.byContradiction fun hnone => ?_
    rw [find?_eq_none_iff.mpr hnone] at hfirst
    cases hfirst
  obtain ⟨n, hn⟩ := Option.ne_none_iff_exists'.mp (mt (moduleBody?_eq_none_iff hclosing).mp hmodule)
  obtain ⟨j, rfl, hmark⟩ := moduleBody?_mark hn
  have htakes := takes_of_lexeme hp hcut (lexeme_moduleComment hn)
  rw [show p + (4 + (j + 3)) = p + 4 + j + 3 by omega] at htakes
  refine ⟨j, hmark, htakes, fun hslash => ?_⟩
  rw [moduleBody?_of_first hmodule hfirst hslash, Option.some.injEq] at hn
  omega

theorem not_docComment_of_unclosed (h : ¬ docClosing <:+: body) {t : Token}
    (ht : t ∈ Token.ofText text) (hstart : t.start = p) :
    t.kind ≠ .docComment ∧ t.kind ≠ .moduleComment := by
  obtain ⟨n, hlexeme | hlexeme⟩ := lexeme_of_unclosed h
  · have htoken := (takes_of_lexeme hp hcut hlexeme).token_eq ht hstart
    cases htoken
  · have htoken := (takes_of_lexeme hp hcut hlexeme).token_eq ht hstart
    cases htoken
    exact ⟨by simp, by simp⟩

end DocComment

/-- Where a piece begins like a documentation comment and a mark closes one later, the piece is such
a comment, and one of a module if it goes on like one. It ends with the first such mark, whatever
stands between; so does one of a module, unless a backslash stands between. Where no mark follows,
no token begins that is such a comment. -/
theorem docComment_ends_with_first_mark (text : String) (p : Nat)
    (hp : BeginsAt text.toList p) (hopen : docOpening <+: text.toList.drop p) :
    (∀ i, IsLeast (marksFrom docClosing text.toList (p + 4)) i →
      (BeginsModule (text.toList.drop (p + 4)) →
        ∃ j ∈ marksFrom docClosing text.toList (p + 4),
          Takes text ⟨.token .moduleComment, p, j + 3⟩ ∧
            ('\\' ∉ text.toList.extract p i → j = i)) ∧
      (¬ BeginsModule (text.toList.drop (p + 4)) →
        Takes text ⟨.token .docComment, p, i + 3⟩)) ∧
    (marksFrom docClosing text.toList (p + 4) = ∅ →
      ∀ t ∈ Token.ofText text, t.start = p → t.kind ≠ .docComment ∧ t.kind ≠ .moduleComment) := by
  obtain ⟨body, hcut⟩ := hopen
  have hcut : text.toList.drop p = '#' :: '[' :: '[' :: '[' :: body := hcut.symm
  have hbody := drop_docOpening hcut
  rw [beginsModule_iff, hbody]
  constructor
  · intro i hi
    obtain ⟨k, rfl, hfirst⟩ := exists_find?_of_isLeast hi
    rw [hbody] at hfirst
    refine ⟨fun hmodule => ?_, fun hmodule => takes_docComment hp hcut hfirst (not_not.mp hmodule)⟩
    obtain ⟨j, hmark, htakes, hsame⟩ := takes_moduleComment hp hcut hfirst hmodule
    refine ⟨p + 4 + j, ⟨Nat.le_add_right _ _, ?_⟩, htakes, fun hslash => ?_⟩
    · rwa [← List.drop_drop, hbody]
    · have hextract : text.toList.extract p (p + 4 + k) =
          '#' :: '[' :: '[' :: '[' :: body.take k := by
        rw [List.extract_eq_take_drop, hcut, show p + 4 + k - p = k + 4 by omega]
        rfl
      rw [hextract] at hslash
      rw [hsame fun hmem => hslash (by simp [hmem])]
  · intro hempty t ht hstart
    have hnone := find?_drop_eq_none_iff.mpr hempty
    rw [hbody, find?_eq_none_iff] at hnone
    exact not_docComment_of_unclosed hp hcut hnone ht hstart

/-- A module comment and a documentation comment, with more in them than text. -/
def crowdedComments : String := "#[[[ @module ]] m #]]\nf() #[[[ a ]] \"b( #]] c #]]"

theorem crowdedComments_end_with_first_mark :
    Takes crowdedComments ⟨.token .moduleComment, 0, 21⟩ ∧
    Takes crowdedComments ⟨.token .docComment, 26, 43⟩ := by
  have hspans : ⟨.token .moduleComment, 0, 21⟩ ∈ spans crowdedComments.toList ∧
      ⟨.token .docComment, 26, 43⟩ ∈ spans crowdedComments.toList ∧
      docOpening <+: crowdedComments.toList.drop 0 ∧
      docOpening <+: crowdedComments.toList.drop 26 ∧
      moduleRest? (crowdedComments.toList.drop 4) ≠ none ∧
      moduleRest? (crowdedComments.toList.drop 30) = none ∧
      find? docClosing (crowdedComments.toList.drop 4) = some 14 ∧
      find? docClosing (crowdedComments.toList.drop 30) = some 10 ∧
      '\\' ∉ crowdedComments.toList.extract 0 18 := by decide
  obtain ⟨hspan, hspan', hopen, hopen', hmodule, hmodule', hfind, hfind', hslash⟩ := hspans
  constructor
  · have hends := docComment_ends_with_first_mark crowdedComments 0 ⟨_, hspan, rfl⟩ hopen
    obtain ⟨j, -, htakes, hsame⟩ :=
      (hends.1 18 (find?_drop_eq_some_iff.mp hfind)).1 (beginsModule_iff.mpr hmodule)
    obtain rfl := hsame hslash
    exact htakes
  · have hends := docComment_ends_with_first_mark crowdedComments 26 ⟨_, hspan', rfl⟩ hopen'
    refine (hends.1 40 (find?_drop_eq_some_iff.mp hfind')).2 fun hbegins => ?_
    exact beginsModule_iff.mp hbegins hmodule'

/-- A bracket that is opened at an index is closed by the first mark of its level. -/
theorem bracketed?_drop_eq_some_iff {cs : List Char} {p level n : Nat}
    (hopen : bracketOpen level <+: cs.drop p) :
    bracketed? (cs.drop p) = some n ↔
      ∃ i, IsLeast (marksFrom (bracketClose level) cs (p + level + 2)) i ∧
        p + n = i + level + 2 := by
  rw [bracketed?_eq_some_iff]
  constructor
  · rintro ⟨level', k, hopen', hfind, rfl⟩
    have hlevel := bracketLevel?_eq_some_iff.mpr hopen
    rw [bracketLevel?_eq_some_iff.mpr hopen', Option.some.injEq] at hlevel
    subst hlevel
    rw [List.drop_drop, ← Nat.add_assoc] at hfind
    exact ⟨_, find?_drop_eq_some_iff.mp hfind, by omega⟩
  · rintro ⟨i, hleast, hn⟩
    obtain ⟨k, rfl, hfind⟩ := exists_find?_of_isLeast hleast
    rw [Nat.add_assoc p level 2, ← List.drop_drop] at hfind
    exact ⟨level, k, hopen, hfind, by omega⟩

theorem bracketed?_drop_eq_none_iff {cs : List Char} {p level : Nat}
    (hopen : bracketOpen level <+: cs.drop p) :
    bracketed? (cs.drop p) = none ↔
      marksFrom (bracketClose level) cs (p + level + 2) = ∅ := by
  rw [bracketed?_of_open hopen, List.drop_drop, ← Nat.add_assoc, ← find?_eq_none_iff,
    find?_drop_eq_none_iff]

theorem exists_drop_bracketOpen {cs : List Char} {p level : Nat}
    (hopen : bracketOpen level <+: cs.drop p) : ∃ rest, cs.drop p = '[' :: rest := by
  obtain ⟨rest, hrest⟩ := hopen
  exact ⟨_, hrest.symm⟩

section Bracket

variable {text : String} {p level : Nat} (hp : BeginsAt text.toList p)
  (hopen : bracketOpen level <+: text.toList.drop p)

include hopen

theorem unquoted_bracketOpen_ne_zero : unquoted (text.toList.drop p) ≠ 0 := by
  obtain ⟨rest, hrest⟩ := exists_drop_bracketOpen hopen
  rw [hrest, unquoted_plain (by decide)]
  omega

include hp

theorem takes_bracket {i : Nat}
    (hleast : IsLeast (marksFrom (bracketClose level) text.toList (p + level + 2)) i)
    (hlonger : p + unquoted (text.toList.drop p) < i + level + 2) :
    Takes text ⟨.token .bracket, p, i + level + 2⟩ := by
  obtain ⟨rest, hrest⟩ := exists_drop_bracketOpen hopen
  obtain ⟨n, hn⟩ := Nat.exists_eq_add_of_le (show p ≤ i + level + 2 by omega)
  have hclosed := (bracketed?_drop_eq_some_iff hopen).mpr ⟨i, hleast, hn.symm⟩
  rw [hrest] at hclosed hlonger
  rw [hn]
  exact takes_of_lexeme hp hrest (lexeme_bracket hclosed (by omega))

theorem takes_unquoted
    (hlonger : ∀ i, IsLeast (marksFrom (bracketClose level) text.toList (p + level + 2)) i →
      i + level + 2 ≤ p + unquoted (text.toList.drop p)) :
    Takes text ⟨.token .unquoted, p, p + unquoted (text.toList.drop p)⟩ := by
  obtain ⟨rest, hrest⟩ := exists_drop_bracketOpen hopen
  have hword := unquoted_bracketOpen_ne_zero hopen
  have hbracket : ∀ n, bracketed? (text.toList.drop p) = some n →
      n ≤ unquoted (text.toList.drop p) := by
    intro n hn
    obtain ⟨i, hleast, hend⟩ := (bracketed?_drop_eq_some_iff hopen).mp hn
    have hle := hlonger i hleast
    omega
  rw [hrest] at hword hbracket ⊢
  exact takes_of_lexeme hp hrest (lexeme_unquoted hword hword.symm hbracket)

end Bracket

section BracketComment

variable {text : String} {p level : Nat} (hp : BeginsAt text.toList p) (hlevel : 1 ≤ level)
  (hopen : '#' :: bracketOpen level <+: text.toList.drop p)

include hopen

theorem drop_bracketComment :
    text.toList.drop p = '#' :: text.toList.drop (p + 1) ∧
      bracketOpen level <+: text.toList.drop (p + 1) := by
  obtain ⟨rest, hrest⟩ := hopen
  have hnext : text.toList.drop (p + 1) = bracketOpen level ++ rest := by
    rw [← List.drop_drop, ← hrest]
    rfl
  exact ⟨by rw [← hrest, hnext]; rfl, ⟨rest, hnext.symm⟩⟩

include hlevel

/-- A bracket with an equals sign opens no documentation comment. -/
theorem not_docOpening_of_level : ¬ ['[', '[', '['] <+: text.toList.drop (p + 1) := by
  obtain ⟨rest, hrest⟩ := (drop_bracketComment hopen).2
  obtain ⟨k, rfl⟩ := Nat.exists_eq_add_of_le' hlevel
  rw [← hrest]
  simp [bracketOpen, List.replicate_succ]

include hp

theorem takes_bracketComment {i : Nat}
    (hleast : IsLeast (marksFrom (bracketClose level) text.toList (p + level + 3)) i) :
    Takes text ⟨.skipped, p, i + level + 2⟩ := by
  obtain ⟨hcut, hbracket⟩ := drop_bracketComment hopen
  have hdoc := not_docOpening_of_level hlevel hopen
  have hfirst := hleast.1.1
  rw [show p + level + 3 = p + 1 + level + 2 by omega] at hleast
  obtain ⟨n, hn⟩ := Nat.exists_eq_add_of_le (show p + 1 ≤ i + level + 2 by omega)
  have hclosed := (bracketed?_drop_eq_some_iff hbracket).mpr ⟨i, hleast, hn.symm⟩
  rw [hn, Nat.add_assoc]
  refine takes_of_lexeme hp hcut (lexeme_bracketComment (fun body heq => ?_) hclosed)
  exact absurd ⟨body, heq.symm⟩ hdoc

theorem takes_openBracket
    (hempty : marksFrom (bracketClose level) text.toList (p + level + 3) = ∅) :
    Takes text ⟨.fault, p, text.length⟩ := by
  obtain ⟨hcut, hbracket⟩ := drop_bracketComment hopen
  rw [show p + level + 3 = p + 1 + level + 2 by omega] at hempty
  have hnone := (bracketed?_drop_eq_none_iff hbracket).mpr hempty
  have hlexeme := lexeme_openBracket hbracket (not_docOpening_of_level hlevel hopen) hnone
  have htakes := takes_of_lexeme hp hcut hlexeme
  have hlen : p + (1 + (text.toList.drop (p + 1)).length) = text.length := by
    have hpos := congrArg List.length hcut
    rw [List.length_cons, List.length_drop, String.length_toList] at hpos
    rw [List.length_drop, String.length_toList] at hpos ⊢
    omega
  rwa [hlen] at htakes

end BracketComment

/-- A piece that goes on to the end of the text is the last. -/
theorem Takes.spans_concat {text : String} {s : Span} (h : Takes text s)
    (hstop : s.stop = text.length) : ∃ before, Divides text before s [] := by
  obtain ⟨before, after, hdivides⟩ := h
  cases after with
  | nil => exact ⟨before, hdivides⟩
  | cons t after =>
    have hmem : t ∈ spans text.toList := by
      rw [hdivides.spans_eq]
      simp
    have hlt := (spansFrom_tiles text.toList 0).nonempty t hmem
    have hle := stop_le_of_mem hmem
    have hafter := hdivides.le_after t List.mem_cons_self
    rw [String.length_toList] at hle
    omega

/-- A fault that goes on to the end of the text is the last report, about all that is left. -/
theorem Takes.reports_concat {text : String} {p : Nat} (h : Takes text ⟨.fault, p, text.length⟩) :
    ∃ reports, Token.reportsOfText text =
      reports ++ [Cell.faultReport (.behind (text.toList.take p)) (text.toList.drop p)] := by
  obtain ⟨before, hdivides⟩ := h.spans_concat rfl
  have hrest : text.toList.extract p text.length = text.toList.drop p := by
    rw [List.extract_eq_take_drop, ← String.length_toList, ← List.length_drop, List.take_length]
  refine ⟨before.filterMap (Span.report? text.toList), ?_⟩
  simp [hdivides.reports_eq, Span.report?, hrest]

/-- Where a piece begins like a bracket, it is one if the first mark of its level closes it behind
the longest word there, and otherwise it is that word. A comment that begins like a bracket with an
equals sign is skipped up to the first mark of its level; where there is none, what is left of the
text is one fault. -/
theorem bracket_ends_with_first_of_level (text : String) (p level : Nat)
    (hp : BeginsAt text.toList p) :
    (bracketOpen level <+: text.toList.drop p →
      ∃ q, IsGreatest (wordEnds text.toList p) q ∧
        (∀ i, IsLeast (marksFrom (bracketClose level) text.toList (p + level + 2)) i →
          q < i + level + 2 → Takes text ⟨.token .bracket, p, i + level + 2⟩) ∧
        ((∀ i, IsLeast (marksFrom (bracketClose level) text.toList (p + level + 2)) i →
          i + level + 2 ≤ q) → Takes text ⟨.token .unquoted, p, q⟩)) ∧
    (1 ≤ level → '#' :: bracketOpen level <+: text.toList.drop p →
      (∀ i, IsLeast (marksFrom (bracketClose level) text.toList (p + level + 3)) i →
        Takes text ⟨.skipped, p, i + level + 2⟩) ∧
      (marksFrom (bracketClose level) text.toList (p + level + 3) = ∅ →
        Takes text ⟨.fault, p, text.length⟩ ∧
        ∃ reports, Token.reportsOfText text =
          reports ++ [Cell.faultReport (.behind (text.toList.take p)) (text.toList.drop p)])) := by
  constructor
  · intro hopen
    exact ⟨_, isGreatest_wordEnds (unquoted_bracketOpen_ne_zero hopen),
      fun i hleast hlonger => takes_bracket hp hopen hleast hlonger, takes_unquoted hp hopen⟩
  · intro hlevel hopen
    refine ⟨fun i hleast => takes_bracketComment hp hlevel hopen hleast, fun hempty => ?_⟩
    have htakes := takes_openBracket hp hlevel hopen hempty
    exact ⟨htakes, htakes.reports_concat⟩

/-- A bracket with a mark of another level in it, one that is a word, and two comments of which the
second is left open. -/
def nestedLevels : String := "f([=[a ]] b]=] [[c]]d) #[=[ e ]] ]=] #[==[ g ]=]"

theorem nestedLevels_end_with_first_of_level :
    Takes nestedLevels ⟨.token .bracket, 2, 14⟩ ∧ Takes nestedLevels ⟨.token .unquoted, 15, 21⟩ ∧
    Takes nestedLevels ⟨.skipped, 23, 36⟩ ∧ Takes nestedLevels ⟨.fault, 37, 48⟩ := by
  have hspans : ⟨.token .bracket, 2, 14⟩ ∈ spans nestedLevels.toList ∧
      ⟨.token .unquoted, 15, 21⟩ ∈ spans nestedLevels.toList ∧
      ⟨.skipped, 23, 36⟩ ∈ spans nestedLevels.toList ∧
      ⟨.fault, 37, 48⟩ ∈ spans nestedLevels.toList := by decide
  have hopens : bracketOpen 1 <+: nestedLevels.toList.drop 2 ∧
      bracketOpen 0 <+: nestedLevels.toList.drop 15 ∧
      '#' :: bracketOpen 1 <+: nestedLevels.toList.drop 23 ∧
      '#' :: bracketOpen 2 <+: nestedLevels.toList.drop 37 := by decide
  have hfinds : find? (bracketClose 1) (nestedLevels.toList.drop 5) = some 6 ∧
      find? (bracketClose 0) (nestedLevels.toList.drop 17) = some 1 ∧
      find? (bracketClose 1) (nestedLevels.toList.drop 27) = some 6 ∧
      find? (bracketClose 2) (nestedLevels.toList.drop 42) = none := by decide
  have hwords : unquoted (nestedLevels.toList.drop 2) = 4 ∧
      unquoted (nestedLevels.toList.drop 15) = 6 ∧ nestedLevels.length = 48 := by decide
  obtain ⟨hspan₁, hspan₂, hspan₃, hspan₄⟩ := hspans
  obtain ⟨hopen₁, hopen₂, hopen₃, hopen₄⟩ := hopens
  obtain ⟨hfind₁, hfind₂, hfind₃, hfind₄⟩ := hfinds
  obtain ⟨hword₁, hword₂, hlength⟩ := hwords
  refine ⟨?_, ?_, ?_, ?_⟩
  · obtain ⟨q, hq, hbracket, -⟩ :=
      (bracket_ends_with_first_of_level nestedLevels 2 1 ⟨_, hspan₁, rfl⟩).1 hopen₁
    have hend := hq.unique (isGreatest_wordEnds (by rw [hword₁]; decide))
    exact hbracket 11 (find?_drop_eq_some_iff.mp hfind₁) (by omega)
  · obtain ⟨q, hq, -, hunquoted⟩ :=
      (bracket_ends_with_first_of_level nestedLevels 15 0 ⟨_, hspan₂, rfl⟩).1 hopen₂
    have hend := hq.unique (isGreatest_wordEnds (by rw [hword₂]; decide))
    rw [hword₂] at hend
    subst hend
    refine hunquoted fun i hi => ?_
    obtain rfl : i = 18 := hi.unique (find?_drop_eq_some_iff.mp hfind₂)
    decide
  · have hends := (bracket_ends_with_first_of_level nestedLevels 23 1 ⟨_, hspan₃, rfl⟩).2
      (by decide) hopen₃
    exact hends.1 33 (find?_drop_eq_some_iff.mp hfind₃)
  · have hends := (bracket_ends_with_first_of_level nestedLevels 37 2 ⟨_, hspan₄, rfl⟩).2
      (by decide) hopen₄
    have htakes := (hends.2 (find?_drop_eq_none_iff.mp hfind₄)).1
    rwa [hlength] at htakes

end Scan

end CMakeDocs
