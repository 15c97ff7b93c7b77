import CMakeDocs.Proofs.Scanning
import Mathlib.Data.List.TakeWhile

/-!
# How far the extents reach

No extent goes beyond the characters it is given. What is found inside some characters does not
depend on what comes after them: marks and brackets are told by the characters they cover, and that
a word stops is seen from at most two characters behind it.
-/
namespace CMakeDocs.Extent

theorem find?_eq_none_iff {mark cs : List Char} : find? mark cs = none ↔ ¬ mark <:+: cs := by
  induction cs with
  | nil => simp [find?, List.infix_nil]
  | cons c cs ih =>
    rw [find?, List.infix_cons_iff, ← List.isPrefixOf_iff_prefix]
    split
    · next h => simp [h]
    · next h => simp [h, ih]

/-- A mark is found where it stands first. -/
theorem find?_eq_some_iff {mark cs : List Char} {i : Nat} :
    find? mark cs = some i ↔ mark <+: cs.drop i ∧ ∀ j < i, ¬ mark <+: cs.drop j := by
  induction cs generalizing i with
  | nil =>
    cases i with
    | zero => simp [find?]
    | succ i =>
      constructor
      · simp [find?]
      · rintro ⟨hmark, hfirst⟩
        rw [List.drop_nil] at hmark
        exact absurd hmark (hfirst 0 i.succ_pos)
  | cons c cs ih =>
    rw [find?]
    cases i with
    | zero => simp
    | succ i =>
      have hfirst : (∀ j < i + 1, ¬ mark <+: (c :: cs).drop j) ↔
          mark.isPrefixOf (c :: cs) = false ∧ ∀ j < i, ¬ mark <+: cs.drop j := by
        rw [Nat.forall_lt_succ_left, List.drop_zero, ← List.isPrefixOf_iff_prefix,
          Bool.not_eq_true]
        simp
      rw [hfirst, List.drop_succ_cons]
      split
      · next h => simp [h]
      · next h => simp [h, ih]

/-- Whether a mark stands inside some characters is told by them alone. -/
theorem prefix_drop_append {mark p : List Char} {i : Nat} (h : i + mark.length ≤ p.length)
    (q : List Char) : mark <+: (p ++ q).drop i ↔ mark <+: p.drop i := by
  rw [List.drop_append_of_le_length (by omega)]
  constructor
  · intro hm
    refine List.prefix_of_prefix_length_le hm (List.prefix_append _ _) ?_
    rw [List.length_drop]
    omega
  · exact fun hm => hm.trans (List.prefix_append _ _)

theorem find?_append_iff {mark p : List Char} {i : Nat} (h : i + mark.length ≤ p.length)
    (q : List Char) : find? mark (p ++ q) = some i ↔ find? mark p = some i := by
  rw [find?_eq_some_iff, find?_eq_some_iff, prefix_drop_append h]
  refine and_congr_right fun _ => forall₂_congr fun j hj => ?_
  rw [prefix_drop_append (by omega)]

theorem find?_bound {mark cs : List Char} {i : Nat} (hne : mark ≠ [])
    (h : find? mark cs = some i) : i + mark.length ≤ cs.length := by
  have hlen := (find?_eq_some_iff.mp h).1.length_le
  have hpos := List.length_pos_iff.mpr hne
  rw [List.length_drop] at hlen
  omega

theorem findLast?_eq_none_iff {mark cs : List Char} :
    findLast? mark cs = none ↔ ¬ mark <:+: cs := by
  induction cs with
  | nil => simp [findLast?, List.infix_nil]
  | cons c cs ih =>
    rw [findLast?, List.infix_cons_iff]
    cases hlast : findLast? mark cs with
    | none =>
      rw [hlast] at ih
      simp [ih.mp rfl]
    | some i =>
      rw [hlast] at ih
      simpa using fun _ => ih

/-- The last of the marks is found. -/
theorem findLast?_eq_some_iff {mark cs : List Char} (hne : mark ≠ []) {i : Nat} :
    findLast? mark cs = some i ↔ mark <+: cs.drop i ∧ ¬ mark <:+: cs.drop (i + 1) := by
  induction cs generalizing i with
  | nil => simp [findLast?, hne]
  | cons c cs ih =>
    rw [findLast?, List.drop_succ_cons]
    cases hlast : findLast? mark cs with
    | none =>
      rw [hlast] at ih
      have hnot := findLast?_eq_none_iff.mp hlast
      cases i with
      | zero => simp [hnot]
      | succ i => simpa using ih
    | some j =>
      rw [hlast] at ih
      cases i with
      | zero =>
        have hmark : mark <:+: cs := by
          refine Classical.byContradiction fun h => ?_
          rw [findLast?_eq_none_iff.mpr h] at hlast
          cases hlast
        simp [hmark]
      | succ i => simpa using ih

theorem run_le (p : Char → Bool) (cs : List Char) : run p cs ≤ cs.length :=
  (List.takeWhile_sublist p).length_le

theorem run_eq_length_iff {p : Char → Bool} {cs : List Char} :
    run p cs = cs.length ↔ ∀ c ∈ cs, p c = true := by
  rw [← List.takeWhile_eq_self_iff]
  exact ⟨(List.takeWhile_prefix p).eq_of_length, congrArg List.length⟩

theorem run_append {p : Char → Bool} {cs : List Char} (h : ∀ c ∈ cs, p c = true)
    (rest : List Char) : run p (cs ++ rest) = cs.length + run p rest := by
  rw [run, List.takeWhile_append_of_pos h, List.length_append, run]

theorem run_append_of_lt {p : Char → Bool} {cs : List Char} (h : run p cs < cs.length)
    (rest : List Char) : run p (cs ++ rest) = run p cs := by
  unfold run at h ⊢
  rw [List.takeWhile_append, if_neg (Nat.ne_of_lt h)]

/-- A run that ends with some characters goes through all of them and no further. -/
theorem run_append_eq_length_iff {p : Char → Bool} {cs rest : List Char} :
    run p (cs ++ rest) = cs.length ↔ (∀ c ∈ cs, p c = true) ∧ run p rest = 0 := by
  constructor
  · intro h
    have hall : ∀ c ∈ cs, p c = true := by
      refine run_eq_length_iff.mp ((run_le p cs).eq_or_lt.resolve_right fun hlt => ?_)
      rw [run_append_of_lt hlt] at h
      omega
    rw [run_append hall] at h
    exact ⟨hall, by omega⟩
  · rintro ⟨hall, hrest⟩
    rw [run_append hall, hrest, Nat.add_zero]

theorem run_append_of_stop {p : Char → Bool} {rest : List Char} (h : run p rest = 0)
    (cs : List Char) : run p (cs ++ rest) = run p cs := by
  rcases (run_le p cs).eq_or_lt with hall | hlt
  · rw [run_append (run_eq_length_iff.mp hall), h, hall, Nat.add_zero]
  · exact run_append_of_lt hlt rest

theorem run_eq_zero_iff {p : Char → Bool} {cs : List Char} :
    run p cs = 0 ↔ ∀ c ∈ cs.head?, p c = false := by
  cases cs with
  | nil => simp [run]
  | cons c cs => cases hc : p c <;> simp [run, hc]

/-- The mark that opens a bracket of the given level. -/
def bracketOpen (level : Nat) : List Char := '[' :: (List.replicate level '=' ++ ['['])

@[simp] theorem length_bracketOpen (level : Nat) : (bracketOpen level).length = level + 2 := by
  simp [bracketOpen]

@[simp] theorem length_bracketClose (level : Nat) : (bracketClose level).length = level + 2 := by
  simp [bracketClose]

theorem bracketClose_ne_nil (level : Nat) : bracketClose level ≠ [] := List.cons_ne_nil _ _

theorem bracketLevel?_equals (cs : List Char) :
    bracketLevel? ('[' :: '=' :: cs) = (bracketLevel? ('[' :: cs)).map (· + 1) := by
  rw [bracketLevel?, bracketLevel?]
  simp only [run, List.dropWhile_cons, List.takeWhile_cons, decide_true, if_true, List.length_cons]
  split
  · rfl
  · rfl

theorem bracketLevel?_eq_some_iff {cs : List Char} {level : Nat} :
    bracketLevel? cs = some level ↔ bracketOpen level <+: cs := by
  cases cs with
  | nil => simp [bracketLevel?, bracketOpen]
  | cons c cs =>
    by_cases hc : c = '['
    · subst hc
      induction cs generalizing level with
      | nil => simp [bracketLevel?, bracketOpen]
      | cons d cs ih =>
        by_cases hd : d = '='
        · subst hd
          rw [bracketLevel?_equals]
          cases level with
          | zero => simp [bracketOpen]
          | succ level => simpa [bracketOpen, List.replicate_succ] using ih
        · by_cases hopen : d = '['
          · subst hopen
            cases level <;> simp [bracketLevel?, bracketOpen, run, List.replicate_succ]
          · cases level <;>
              simp [bracketLevel?, bracketOpen, hd, hopen, Ne.symm hd, Ne.symm hopen,
                List.replicate_succ]
    · simp [bracketOpen, bracketLevel?, hc, Ne.symm hc]

/-- A bracket reaches from its opening to the first mark that closes its level. -/
theorem bracketed?_eq_some_iff {cs : List Char} {n : Nat} :
    bracketed? cs = some n ↔ ∃ level i, bracketOpen level <+: cs ∧
      find? (bracketClose level) (cs.drop (level + 2)) = some i ∧
      n = level + 2 + i + (level + 2) := by
  simp only [bracketed?, bind, Option.bind_eq_some_iff, bracketLevel?_eq_some_iff]
  constructor
  · rintro ⟨level, hopen, i, hi, hn⟩
    exact ⟨level, i, hopen, hi, (Option.some.inj hn).symm⟩
  · rintro ⟨level, i, hopen, hi, rfl⟩
    exact ⟨level, hopen, i, hi, rfl⟩

theorem bracketed?_of_open {cs : List Char} {level : Nat} (h : bracketOpen level <+: cs) :
    bracketed? cs = none ↔ ¬ bracketClose level <:+: cs.drop (level + 2) := by
  rw [bracketed?, bracketLevel?_eq_some_iff.mpr h, ← find?_eq_none_iff]
  generalize hfound : find? (bracketClose level) (cs.drop (level + 2)) = found
  simp only [bind, Option.bind_some, hfound]
  cases found with
  | none => simp
  | some i => simp [pure]

theorem bracketed?_bound {cs : List Char} {n : Nat} (h : bracketed? cs = some n) :
    4 ≤ n ∧ n ≤ cs.length := by
  obtain ⟨level, i, hopen, hi, rfl⟩ := bracketed?_eq_some_iff.mp h
  have hbound := find?_bound (bracketClose_ne_nil level) hi
  have hlen := hopen.length_le
  rw [length_bracketClose, List.length_drop] at hbound
  rw [length_bracketOpen] at hlen
  omega

theorem bracketed?_append_iff {p : List Char} {n : Nat} (h : n ≤ p.length) (q : List Char) :
    bracketed? (p ++ q) = some n ↔ bracketed? p = some n := by
  rw [bracketed?_eq_some_iff, bracketed?_eq_some_iff]
  refine exists₂_congr fun level i => ?_
  rw [← and_assoc, ← and_assoc]
  refine and_congr_left fun hn => ?_
  have hlen : (p.drop (level + 2)).length = p.length - (level + 2) := List.length_drop
  rw [← List.drop_zero (l := p ++ q), prefix_drop_append (by simp; omega), List.drop_zero,
    List.drop_zero, List.drop_append_of_le_length (by omega),
    find?_append_iff (by rw [length_bracketClose]; omega)]

theorem bracketed?_getLast {cs : List Char} (h : bracketed? cs = some cs.length) :
    cs.getLast? = some ']' := by
  obtain ⟨level, i, hopen, hi, hlen⟩ := bracketed?_eq_some_iff.mp h
  have hclose := (find?_eq_some_iff.mp hi).1
  rw [List.drop_drop] at hclose
  have heq := hclose.eq_of_length (by rw [List.length_drop, length_bracketClose]; omega)
  rw [← List.take_append_drop (level + 2 + i) cs, ← heq, bracketClose, ← List.cons_append,
    ← List.append_assoc, List.getLast?_concat]

theorem unquoted_slash (c : Char) (cs : List Char) :
    unquoted ('\\' :: c :: cs) = if isEscapable c then 2 + unquoted cs else 0 := rfl

theorem unquoted_escape {c : Char} (h : isEscapable c = true) (cs : List Char) :
    unquoted ('\\' :: c :: cs) = unquoted cs + 2 := by
  rw [unquoted_slash, if_pos h, Nat.add_comm]

theorem unquoted_plain {c : Char} (h : isPlain c = true) (cs : List Char) :
    unquoted (c :: cs) = unquoted cs + 1 := by
  have hslash : c ≠ '\\' := by
    rintro rfl
    exact absurd h (by decide)
  rw [Scan.unquoted_cons hslash, if_pos h, Nat.add_comm]

/-- Characters begin with an escape, with a plain character, or with no word. -/
@[elab_as_elim]
theorem word_induction {P : List Char → Prop}
    (escape : ∀ c cs, isEscapable c = true → P cs → P ('\\' :: c :: cs))
    (plain : ∀ c cs, isPlain c = true → P cs → P (c :: cs))
    (stop : ∀ cs, unquoted cs = 0 → P cs) (cs : List Char) : P cs := by
  induction cs using unquoted.induct with
  | case1 => exact stop _ rfl
  | case2 => exact stop _ rfl
  | case3 c cs hc ih => exact escape c cs hc ih
  | case4 c cs hc => exact stop _ (by rw [unquoted_slash, if_neg hc])
  | case5 c cs _ _ hc ih => exact plain c cs hc ih
  | case6 c cs hend hescape hc =>
    refine stop _ ?_
    have hslash : c ≠ '\\' := by
      rintro rfl
      cases cs with
      | nil => exact hend rfl rfl
      | cons d cs => exact hescape d cs rfl rfl
    rw [Scan.unquoted_cons hslash, if_neg hc]

theorem unquoted_le (cs : List Char) : unquoted cs ≤ cs.length := by
  induction cs using word_induction with
  | escape c cs hc ih => simpa [unquoted_escape hc] using ih
  | plain c cs hc ih => simpa [unquoted_plain hc] using ih
  | stop cs h => simp [h]

/-- A word that goes on behind some characters goes on from where it stops in them. -/
theorem unquoted_append_eq (a y : List Char) :
    unquoted (a ++ y) = unquoted a + unquoted (a.drop (unquoted a) ++ y) := by
  induction a using word_induction with
  | escape c cs hc ih =>
    rw [List.cons_append, List.cons_append, unquoted_escape hc, unquoted_escape hc, ih,
      List.drop_succ_cons, List.drop_succ_cons]
    omega
  | plain c cs hc ih =>
    rw [List.cons_append, unquoted_plain hc, unquoted_plain hc, ih, List.drop_succ_cons]
    omega
  | stop cs h => simp [h]

theorem unquoted_drop (a : List Char) : unquoted (a.drop (unquoted a)) = 0 := by
  simpa using unquoted_append_eq a []

theorem isPlain_head_of_stop {c : Char} {cs : List Char} (h : unquoted (c :: cs) = 0) :
    isPlain c = false := by
  cases hc : isPlain c with
  | false => rfl
  | true =>
    rw [unquoted_plain hc] at h
    omega

/-- Two characters are enough to see that no word begins with them. -/
theorem unquoted_append_eq_zero {a : List Char} (h : unquoted a = 0) (hne : a ≠ [])
    (hslash : a ≠ ['\\']) (y : List Char) : unquoted (a ++ y) = 0 := by
  cases a with
  | nil => exact absurd rfl hne
  | cons c a =>
    by_cases hc : c = '\\'
    · subst hc
      cases a with
      | nil => exact absurd rfl hslash
      | cons d a =>
        rw [unquoted_slash] at h
        split at h
        · omega
        · next hd => rw [List.cons_append, List.cons_append, unquoted_slash, if_neg hd]
    · rw [List.cons_append, Scan.unquoted_cons hc, isPlain_head_of_stop h]
      rfl

/-- A word that stops before the end of some characters, and not just before a backslash at their
end, stops there whatever comes after them. -/
theorem unquoted_append_of_lt {a : List Char} (hlt : unquoted a < a.length)
    (hslash : a.drop (unquoted a) ≠ ['\\']) (y : List Char) :
    unquoted (a ++ y) = unquoted a := by
  have hne : a.drop (unquoted a) ≠ [] := by
    rw [Ne, List.drop_eq_nil_iff]
    omega
  rw [unquoted_append_eq, unquoted_append_eq_zero (unquoted_drop a) hne hslash, Nat.add_zero]

theorem unquoted_append_of_getLast {a : List Char} {d : Char} (hlt : unquoted a < a.length)
    (hlast : a.getLast? = some d) (hd : d ≠ '\\') (y : List Char) :
    unquoted (a ++ y) = unquoted a := by
  refine unquoted_append_of_lt hlt (fun h => hd ?_) y
  rw [← List.take_append_drop (unquoted a) a, h] at hlast
  simpa using hlast.symm

theorem unquoted_backslash_ne_one (y : List Char) : unquoted ('\\' :: y) ≠ 1 := by
  cases y with
  | nil => exact Nat.zero_ne_one
  | cons d y =>
    rw [unquoted_slash]
    split
    · omega
    · omega

/-- Where a word stops before a backslash at the end of some characters, it is one short. -/
theorem unquoted_of_drop_backslash {a : List Char} (h : a.drop (unquoted a) = ['\\']) :
    unquoted a + 1 = a.length := by
  have hlen := congrArg List.length h
  rw [List.length_drop, List.length_singleton] at hlen
  omega

/-- A word that ends with some characters stops at what comes after them. -/
theorem unquoted_append_eq_length_iff {a y : List Char} :
    unquoted (a ++ y) = a.length ↔ unquoted a = a.length ∧ unquoted y = 0 := by
  constructor
  · intro h
    have ha : unquoted a = a.length := by
      refine (unquoted_le a).eq_or_lt.resolve_right fun hlt => ?_
      by_cases hslash : a.drop (unquoted a) = ['\\']
      · have hlen := unquoted_of_drop_backslash hslash
        rw [unquoted_append_eq, hslash, List.singleton_append] at h
        exact unquoted_backslash_ne_one y (by omega)
      · rw [unquoted_append_of_lt hlt hslash] at h
        omega
    rw [unquoted_append_eq, ha, List.drop_length, List.nil_append] at h
    exact ⟨ha, by omega⟩
  · rintro ⟨ha, hy⟩
    rw [unquoted_append_eq, ha, List.drop_length, List.nil_append, hy, Nat.add_zero]

/-- How many characters have been looked at. -/
def Closing.length : Closing → Nat
  | closed n => n
  | stuck n => n

@[simp] theorem Closing.length_shift (k : Nat) (r : Closing) :
    (r.shift k).length = k + r.length := by
  cases r <;> rfl

theorem quoted_escape {c : Char} (h : isEscapable c = true) (cs : List Char) :
    quoted ('\\' :: c :: cs) = (quoted cs).shift 2 := by
  rw [quoted, if_pos h]

theorem quoted_plain {c : Char} (hslash : c ≠ '\\') (hquote : c ≠ '"') (cs : List Char) :
    quoted (c :: cs) = (quoted cs).shift 1 := by
  rw [quoted, if_neg hquote]
  · rintro rfl
    exact absurd rfl hslash
  · rintro d ds rfl
    exact absurd rfl hslash

/-- Behind an opening quote stands an escape, some other character, or where the quote ends. -/
@[elab_as_elim]
theorem quote_induction {P : List Char → Prop}
    (escape : ∀ c cs, isEscapable c = true → P cs → P ('\\' :: c :: cs))
    (plain : ∀ c cs, c ≠ '\\' → c ≠ '"' → P cs → P (c :: cs))
    (close : ∀ cs, P ('"' :: cs))
    (stuck : ∀ c cs, isEscapable c = false → P ('\\' :: c :: cs))
    (slash : P ['\\']) (nil : P []) (cs : List Char) : P cs := by
  induction cs using quoted.induct with
  | case1 => exact nil
  | case2 => exact slash
  | case3 c cs hc ih => exact escape c cs hc ih
  | case4 c cs hc => exact stuck c cs (by simpa using hc)
  | case5 cs _ _ => exact close cs
  | case6 c cs hend hescape hc ih =>
    refine plain c cs ?_ hc ih
    rintro rfl
    cases cs with
    | nil => exact hend rfl rfl
    | cons d cs => exact hescape d cs rfl rfl

theorem quoted_length_le (cs : List Char) : (quoted cs).length ≤ cs.length := by
  induction cs using quote_induction with
  | escape c cs hc ih =>
    rw [quoted_escape hc, Closing.length_shift, List.length_cons, List.length_cons]
    omega
  | plain c cs hslash hquote ih =>
    rw [quoted_plain hslash hquote, Closing.length_shift, List.length_cons]
    omega
  | close cs => simp [quoted, Closing.length]
  | stuck c cs hc => simp [quoted, hc, Closing.length]
  | slash => simp [quoted, Closing.length]
  | nil => simp [quoted, Closing.length]

theorem quoted_length_pos (c : Char) (cs : List Char) : 0 < (quoted (c :: cs)).length := by
  generalize h : c :: cs = all
  induction all using quote_induction with
  | escape c cs hc ih =>
    rw [quoted_escape hc, Closing.length_shift]
    omega
  | plain c cs hslash hquote ih =>
    rw [quoted_plain hslash hquote, Closing.length_shift]
    omega
  | close cs => simp [quoted, Closing.length]
  | stuck c cs hc => simp [quoted, hc, Closing.length]
  | slash => simp [quoted, Closing.length]
  | nil => cases h

/-- What ends a quote is told by the characters up to there, unless they are all there are. -/
theorem quoted_append {p q : List Char} (hlen : (quoted (p ++ q)).length ≤ p.length)
    (hend : quoted (p ++ q) ≠ .stuck (p ++ q).length) (q' : List Char) :
    quoted (p ++ q') = quoted (p ++ q) := by
  induction p using quote_induction with
  | escape c cs hc ih =>
    rw [List.cons_append, List.cons_append, quoted_escape hc] at hlen hend ⊢
    rw [Closing.length_shift, List.length_cons, List.length_cons] at hlen
    rw [List.cons_append, List.cons_append, quoted_escape hc, ih (by omega)]
    intro h
    rw [h] at hend
    exact hend (congrArg Closing.stuck (Nat.add_comm 2 _))
  | plain c cs hslash hquote ih =>
    rw [List.cons_append, quoted_plain hslash hquote] at hlen hend ⊢
    rw [Closing.length_shift, List.length_cons] at hlen
    rw [List.cons_append, quoted_plain hslash hquote, ih (by omega)]
    intro h
    rw [h] at hend
    exact hend (congrArg Closing.stuck (Nat.add_comm 1 _))
  | close cs => simp [quoted]
  | stuck c cs hc => simp [quoted, hc]
  | slash =>
    cases q with
    | nil => exact absurd rfl hend
    | cons d q =>
      cases hd : isEscapable d with
      | true =>
        rw [List.singleton_append, quoted_escape hd, Closing.length_shift,
          List.length_singleton] at hlen
        omega
      | false => simp [quoted, hd, Closing.length] at hlen
  | nil =>
    cases q with
    | nil => exact absurd rfl hend
    | cons d q =>
      have hpos := quoted_length_pos d q
      rw [List.nil_append, List.length_nil] at hlen
      omega

end CMakeDocs.Extent
