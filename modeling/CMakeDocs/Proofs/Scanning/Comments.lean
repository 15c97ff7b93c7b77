import CMakeDocs.Proofs.Scanning.Extents

/-!
# How far comments reach

A line comment takes the end of its line with it. A documentation comment reaches to the first mark
that closes it; one of a module may have such marks in its name, and then the first mark behind the
name counts, or else the last one in it.
-/
namespace CMakeDocs.Extent

theorem lineComment_append {a : List Char} (h : ∀ c ∈ a, isLineEnd c = false) (y : List Char) :
    lineComment (a ++ y) = a.length + lineComment y := by
  have hrun : run (fun c => !isLineEnd c) (a ++ y) =
      a.length + run (fun c => !isLineEnd c) y := run_append (fun c hc => by simp [h c hc]) y
  simp only [lineComment, hrun, List.drop_length_add_append]
  split
  · omega
  · omega
  · rfl

theorem lineComment_end {e : Char} (h : isLineEnd e = true) (y : List Char) :
    lineComment (e :: y) = if e = '\r' ∧ y.head? = some '\n' then 2 else 1 := by
  have hrun : run (fun c => !isLineEnd c) (e :: y) = 0 := by simp [run, h]
  simp only [lineComment, hrun, List.drop_zero]
  by_cases hboth : e = '\r' ∧ y.head? = some '\n'
  · obtain ⟨rfl, hy⟩ := hboth
    obtain ⟨z, rfl⟩ := List.head?_eq_some_iff.mp hy
    simp
  · rw [if_neg hboth]
    split
    · next heq =>
      cases heq
      exact absurd ⟨rfl, rfl⟩ hboth
    · rfl
    · next heq => cases heq

/-- Characters have no line end, or a first one. -/
theorem exists_line_end (cs : List Char) : (∀ c ∈ cs, isLineEnd c = false) ∨
    ∃ a e y, cs = a ++ e :: y ∧ (∀ c ∈ a, isLineEnd c = false) ∧ isLineEnd e = true := by
  cases h : cs.find? isLineEnd with
  | none => exact .inl (by simpa using h)
  | some e =>
    obtain ⟨he, a, y, rfl, ha⟩ := List.find?_eq_some_iff_append.mp h
    exact .inr ⟨a, e, y, rfl, by simpa using ha, he⟩

theorem lineComment_le (cs : List Char) : lineComment cs ≤ cs.length := by
  rcases exists_line_end cs with h | ⟨a, e, y, rfl, ha, he⟩
  · have hall := lineComment_append h []
    rw [List.append_nil] at hall
    exact hall.le
  · rw [lineComment_append ha, lineComment_end he, List.length_append, List.length_cons]
    split
    · next hboth =>
      obtain ⟨z, rfl⟩ := List.head?_eq_some_iff.mp hboth.2
      rw [List.length_cons]
      omega
    · omega

/-- A line comment that ends before other characters has the end of its line. -/
theorem lineComment_line_end {cs y : List Char} (h : lineComment (cs ++ y) = cs.length)
    (hy : y ≠ []) :
    ∃ a e t, cs = a ++ e :: t ∧ (∀ c ∈ a, isLineEnd c = false) ∧ isLineEnd e = true := by
  refine (exists_line_end cs).resolve_left fun hnone => ?_
  rw [lineComment_append hnone] at h
  have hzero : lineComment y = 0 := by omega
  rcases exists_line_end y with hno | ⟨a, e, t, rfl, ha, he⟩
  · have hall := lineComment_append hno []
    rw [List.append_nil, hzero] at hall
    exact hy (List.length_eq_zero_iff.mp (Nat.add_eq_zero_iff.mp hall.symm).1)
  · rw [lineComment_append ha, lineComment_end he] at hzero
    split at hzero
    · omega
    · omega

/-- Of what comes after a line comment only the first character matters. -/
theorem lineComment_congr {cs y y' : List Char} (h : lineComment (cs ++ y) = cs.length)
    (hy : y ≠ []) (hhead : y'.head? = y.head?) : lineComment (cs ++ y') = cs.length := by
  obtain ⟨a, e, t, rfl, ha, he⟩ := lineComment_line_end h hy
  rw [← h, List.append_assoc, List.append_assoc, lineComment_append ha, lineComment_append ha,
    List.cons_append, List.cons_append, lineComment_end he, lineComment_end he, List.head?_append,
    List.head?_append, hhead]

/-- Characters put behind a line comment leave it as it is, or it goes on into them. -/
theorem lineComment_insert {cs y : List Char} (h : lineComment (cs ++ y) = cs.length)
    (w : List Char) : ∃ k ≤ w.length, lineComment (cs ++ (w ++ y)) = cs.length + k := by
  rcases exists_line_end cs with hnone | ⟨a, e, t, rfl, ha, he⟩
  · have hy : y = [] := by
      refine Classical.byContradiction fun hne => ?_
      obtain ⟨a, e, t, rfl, -, he⟩ := lineComment_line_end h hne
      have hno := hnone e (by simp)
      rw [he] at hno
      cases hno
    rw [hy, List.append_nil, lineComment_append hnone]
    exact ⟨_, lineComment_le w, rfl⟩
  · rw [List.append_assoc, lineComment_append ha, List.cons_append, lineComment_end he,
      List.length_append, List.length_cons] at h
    rw [List.append_assoc, lineComment_append ha, List.cons_append, lineComment_end he,
      List.length_append, List.length_cons]
    cases t with
    | cons d t => exact ⟨0, Nat.zero_le _, h⟩
    | nil =>
      rw [List.nil_append] at h ⊢
      by_cases hboth : e = '\r' ∧ (w ++ y).head? = some '\n'
      · refine ⟨1, List.length_pos_iff.mpr ?_, by rw [if_pos hboth]; rfl⟩
        rintro rfl
        rw [List.nil_append] at hboth
        rw [if_pos hboth, List.length_nil] at h
        omega
      · exact ⟨0, Nat.zero_le _, by rw [if_neg hboth]; rfl⟩

theorem docClosing_ne_nil : docClosing ≠ [] := List.cons_ne_nil _ _

theorem docBody?_eq_some_iff {cs : List Char} {n : Nat} :
    docBody? cs = some n ↔ ∃ i, find? docClosing cs = some i ∧ n = i + 3 := by
  rw [docBody?, Option.map_eq_some_iff]
  exact exists_congr fun i => and_congr_right fun _ => eq_comm

theorem docBody?_eq_none_iff {cs : List Char} : docBody? cs = none ↔ ¬ docClosing <:+: cs := by
  rw [docBody?, Option.map_eq_none_iff, find?_eq_none_iff]

theorem docBody?_append_iff {p : List Char} {n : Nat} (h : n ≤ p.length) (q : List Char) :
    docBody? (p ++ q) = some n ↔ docBody? p = some n := by
  rw [docBody?_eq_some_iff, docBody?_eq_some_iff]
  refine exists_congr fun i => and_congr_left fun hn => ?_
  exact find?_append_iff (show i + 3 ≤ p.length by omega) q

theorem docBody?_le {cs : List Char} {n : Nat} (h : docBody? cs = some n) : n ≤ cs.length := by
  obtain ⟨i, hi, rfl⟩ := docBody?_eq_some_iff.mp h
  exact find?_bound docClosing_ne_nil hi

/-- What a module comment begins with behind its opening: blanks and the mark of a module. -/
theorem moduleRest?_eq_some_iff {cs rest : List Char} {n : Nat} :
    moduleRest? cs = some (n, rest) ↔ ∃ blanks, (∀ c ∈ blanks, isBlank c = true) ∧
      cs = blanks ++ moduleMark ++ rest ∧ n = (blanks ++ moduleMark).length := by
  unfold moduleRest?
  dsimp only
  constructor
  · intro h
    split at h
    · next hmark =>
      obtain ⟨rfl, rfl⟩ := Prod.mk.inj (Option.some.inj h)
      obtain ⟨tail, htail⟩ := List.isPrefixOf_iff_prefix.mp hmark
      refine ⟨cs.takeWhile isBlank, fun c hc => List.mem_takeWhile_imp hc, ?_, ?_⟩
      · rw [← htail, List.drop_left, List.append_assoc, htail]
        exact (List.prefix_iff_eq_append.mp (List.takeWhile_prefix isBlank)).symm
      · simp [run]
    · cases h
  · rintro ⟨blanks, hblanks, rfl, rfl⟩
    have hrun : run isBlank (blanks ++ (moduleMark ++ rest)) = blanks.length :=
      run_append_eq_length_iff.mpr ⟨hblanks, rfl⟩
    rw [List.append_assoc, hrun, List.drop_left, if_pos (by simp), List.drop_left]
    simp

theorem moduleRest?_eq_none_iff {cs : List Char} :
    moduleRest? cs = none ↔
      ∀ blanks, (∀ c ∈ blanks, isBlank c = true) → ¬ blanks ++ moduleMark <+: cs := by
  constructor
  · rintro hnone blanks hblanks ⟨rest, rfl⟩
    rw [moduleRest?_eq_some_iff.mpr ⟨blanks, hblanks, rfl, rfl⟩] at hnone
    cases hnone
  · intro h
    refine Option.eq_none_iff_forall_ne_some.mpr fun found hfound => ?_
    obtain ⟨n, rest⟩ := found
    obtain ⟨blanks, hblanks, rfl, -⟩ := moduleRest?_eq_some_iff.mp hfound
    exact h blanks hblanks (List.prefix_append _ _)

/-- Where the mark stands that closes a module comment, behind the mark of a module. -/
def moduleClosing? (rest : List Char) : Option Nat :=
  ((find? docClosing (rest.drop (moduleName rest))).map (· + moduleName rest)).or
    (findLast? docClosing (rest.take (moduleName rest)))

theorem moduleBody?_eq_some_iff {cs : List Char} {n : Nat} :
    moduleBody? cs = some n ↔ ∃ before rest i, moduleRest? cs = some (before, rest) ∧
      moduleClosing? rest = some i ∧ n = before + i + 3 := by
  rw [moduleBody?]
  simp only [bind, Option.bind_eq_some_iff]
  constructor
  · rintro ⟨⟨before, rest⟩, hrest, i, hi, hn⟩
    exact ⟨before, rest, i, hrest, hi, (Option.some.inj hn).symm⟩
  · rintro ⟨before, rest, i, hrest, hi, rfl⟩
    exact ⟨(before, rest), hrest, i, hi, rfl⟩

theorem moduleClosing?_eq_some_iff {rest : List Char} {i : Nat} :
    moduleClosing? rest = some i ↔
      (∃ j, find? docClosing (rest.drop (moduleName rest)) = some j ∧ i = j + moduleName rest) ∨
      (¬ docClosing <:+: rest.drop (moduleName rest) ∧
        findLast? docClosing (rest.take (moduleName rest)) = some i) := by
  rw [moduleClosing?, ← find?_eq_none_iff, Option.or_eq_some_iff, Option.map_eq_some_iff,
    Option.map_eq_none_iff]
  simp only [eq_comm]

theorem moduleClosing?_mark {rest : List Char} {i : Nat} (h : moduleClosing? rest = some i) :
    docClosing <+: rest.drop i := by
  rcases moduleClosing?_eq_some_iff.mp h with ⟨j, hj, rfl⟩ | ⟨-, hlast⟩
  · have hmark := (find?_eq_some_iff.mp hj).1
    rwa [List.drop_drop, Nat.add_comm] at hmark
  · have hmark := ((findLast?_eq_some_iff docClosing_ne_nil).mp hlast).1
    rw [List.drop_take] at hmark
    exact hmark.trans (List.take_prefix _ _)

theorem docClosing_of_moduleBody? {cs : List Char} {n : Nat} (h : moduleBody? cs = some n) :
    docClosing <:+: cs := by
  obtain ⟨before, rest, i, hrest, hi, -⟩ := moduleBody?_eq_some_iff.mp h
  obtain ⟨blanks, -, rfl, -⟩ := moduleRest?_eq_some_iff.mp hrest
  exact ((moduleClosing?_mark hi).isInfix.trans (List.drop_suffix i rest).isInfix).trans
    (List.suffix_append _ rest).isInfix

theorem moduleBody?_le {cs : List Char} {n : Nat} (h : moduleBody? cs = some n) :
    n ≤ cs.length := by
  obtain ⟨before, rest, i, hrest, hi, rfl⟩ := moduleBody?_eq_some_iff.mp h
  obtain ⟨blanks, -, rfl, rfl⟩ := moduleRest?_eq_some_iff.mp hrest
  have hlen : 3 ≤ (rest.drop i).length := (moduleClosing?_mark hi).length_le
  rw [List.length_drop] at hlen
  calc (blanks ++ moduleMark).length + i + 3
      ≤ (blanks ++ moduleMark).length + rest.length := by omega
    _ = (blanks ++ moduleMark ++ rest).length := List.length_append.symm

theorem hash_not_mem_moduleStart {blanks : List Char} (h : ∀ c ∈ blanks, isBlank c = true) :
    '#' ∉ blanks ++ moduleMark := by
  rw [List.mem_append, not_or]
  exact ⟨fun hmem => absurd (h '#' hmem) (by decide), by decide⟩

/-- A closing mark stands behind characters without a `#`, or nowhere. -/
theorem docClosing_of_append {p q : List Char} (hp : '#' ∉ p) (h : docClosing <:+: p ++ q) :
    docClosing <:+: q := by
  have hhash {l : List Char} (hl : l ≠ []) (hpre : l <+: docClosing) : '#' ∈ l := by
    obtain ⟨c, l, rfl⟩ := List.exists_cons_of_ne_nil hl
    rw [docClosing, List.cons_prefix_cons] at hpre
    simp [hpre.1]
  rcases List.infix_append_iff_ne_nil.mp h with h | h | ⟨l, l', hl, -, heq, hsuffix, -⟩
  · exact absurd (h.subset (hhash (List.cons_ne_nil _ _) (List.prefix_refl _))) hp
  · exact h
  · exact absurd (hsuffix.subset (hhash hl (heq ▸ List.prefix_append _ _))) hp

/-- A closing mark does not stand across the end of a word. -/
theorem docClosing_split {p q : List Char} (hq : unquoted q = 0) (h : docClosing <:+: p ++ q) :
    docClosing <:+: p ∨ docClosing <:+: q := by
  rcases List.infix_append_iff_ne_nil.mp h with h | h | ⟨l, l', hl, hl', heq, -, hprefix⟩
  · exact .inl h
  · exact .inr h
  · obtain ⟨c, l, rfl⟩ := List.exists_cons_of_ne_nil hl
    obtain ⟨d, l', rfl⟩ := List.exists_cons_of_ne_nil hl'
    obtain ⟨rest, rfl⟩ := hprefix
    have hd : d ∈ [']', ']'] := by
      rw [docClosing, List.cons_append] at heq
      rw [(List.cons.inj heq).2]
      simp
    have hplain := isPlain_head_of_stop hq
    have hd' : d = ']' := by simpa using hd
    rw [hd'] at hplain
    exact absurd hplain (by decide)

theorem moduleName_stop (cs : List Char) :
    moduleName cs = 0 ∨ unquoted (cs.drop (moduleName cs)) = 0 := by
  unfold moduleName
  dsimp only
  split
  · exact .inl rfl
  · right
    rw [← List.drop_drop]
    exact unquoted_drop _

theorem moduleClosing?_ne_none {rest : List Char} (h : docClosing <:+: rest) :
    moduleClosing? rest ≠ none := by
  intro hnone
  rw [moduleClosing?, Option.or_eq_none_iff, Option.map_eq_none_iff, find?_eq_none_iff,
    findLast?_eq_none_iff] at hnone
  obtain ⟨hdrop, htake⟩ := hnone
  rcases moduleName_stop rest with hzero | hstop
  · rw [hzero, List.drop_zero] at hdrop
    exact hdrop h
  · rw [← List.take_append_drop (moduleName rest) rest] at h
    exact (docClosing_split hstop h).elim htake hdrop

/-- A documentation comment is one of a module just if it begins like one. -/
theorem moduleBody?_eq_none_iff {cs : List Char} (h : docClosing <:+: cs) :
    moduleBody? cs = none ↔ moduleRest? cs = none := by
  constructor
  · intro hnone
    refine Option.eq_none_iff_forall_ne_some.mpr fun found hfound => ?_
    obtain ⟨n, rest⟩ := found
    obtain ⟨blanks, hblanks, rfl, -⟩ := moduleRest?_eq_some_iff.mp hfound
    have hrest := docClosing_of_append (hash_not_mem_moduleStart hblanks) h
    obtain ⟨i, hi⟩ := Option.ne_none_iff_exists'.mp (moduleClosing?_ne_none hrest)
    rw [moduleBody?_eq_some_iff.mpr ⟨n, rest, i, hfound, hi, rfl⟩] at hnone
    cases hnone
  · intro hnone
    rw [moduleBody?, hnone]
    rfl

/-- A name reaches beyond a closing mark, with whatever word comes after it, or stops before the
end of the mark whatever comes after it. -/
theorem moduleName_append_closing (r : List Char) :
    (∃ u < (r ++ docClosing).length, ∀ y, moduleName (r ++ docClosing ++ y) = u) ∨
      ∀ y, moduleName (r ++ docClosing ++ y) = (r ++ docClosing).length + unquoted y := by
  let blanks := run isBlank r
  let s := r.drop blanks ++ docClosing
  have hblanks : blanks ≤ r.length := run_le _ _
  have hlen : blanks + s.length = (r ++ docClosing).length := by
    simp only [s, List.length_append, List.length_drop]
    omega
  have hname : ∀ y, moduleName (r ++ docClosing ++ y) =
      if blanks = 0 ∨ unquoted (s ++ y) = 0 then 0 else blanks + unquoted (s ++ y) := by
    intro y
    have hrun : run isBlank (r ++ (docClosing ++ y)) = blanks := run_append_of_stop rfl r
    rw [moduleName, List.append_assoc, hrun, List.drop_append_of_le_length hblanks,
      ← List.append_assoc]
  have hpos : 0 < s.length := by simp [s, docClosing]
  rcases (unquoted_le s).eq_or_lt with hall | hlt
  · have hword (y : List Char) : unquoted (s ++ y) = s.length + unquoted y := by
      rw [unquoted_append_eq, hall, List.drop_length, List.nil_append]
    by_cases hzero : blanks = 0
    · refine .inl ⟨0, by omega, fun y => ?_⟩
      rw [hname, if_pos (.inl hzero)]
    · refine .inr fun y => ?_
      rw [hname, hword, if_neg (by omega)]
      omega
  · have hlast : s.getLast? = some ']' := by simp [s, docClosing]
    refine .inl ⟨_, ?_, fun y => by
      rw [hname, unquoted_append_of_getLast hlt hlast (by decide)]⟩
    split
    · omega
    · omega

/-- The closing mark behind some characters is the last one if no other comes after it. -/
theorem findLast?_append_closing {r z : List Char} :
    findLast? docClosing (r ++ docClosing ++ z) = some r.length ↔ ¬ docClosing <:+: z := by
  have hdrop : (r ++ docClosing ++ z).drop (r.length + 1) = [']', ']'] ++ z := by
    rw [List.append_assoc, List.drop_length_add_append]
    rfl
  rw [findLast?_eq_some_iff docClosing_ne_nil, hdrop, List.append_assoc, List.drop_left]
  constructor
  · exact fun h hz => h.2 (hz.trans (List.suffix_append _ _).isInfix)
  · exact fun h => ⟨List.prefix_append _ _, fun hz => h (docClosing_of_append (by decide) hz)⟩

/-- The mark that closes a module comment is found there too if other characters come after it, as
long as they bring no new mark with them. -/
theorem moduleClosing?_append {r y y' : List Char}
    (h : moduleClosing? (r ++ docClosing ++ y) = some r.length)
    (hy : ¬ docClosing <:+: y → ¬ docClosing <:+: y') :
    moduleClosing? (r ++ docClosing ++ y') = some r.length := by
  have hlen : (r ++ docClosing).length = r.length + 3 := List.length_append
  rcases moduleName_append_closing r with ⟨u, hu, hname⟩ | hname
  · -- The name stops at the same place, so the mark is found behind it or not at all.
    rw [moduleClosing?_eq_some_iff, hname] at h ⊢
    rw [List.drop_append_of_le_length (by omega)] at h ⊢
    rcases h with ⟨j, hj, hi⟩ | ⟨-, hlast⟩
    · have hbound : j + docClosing.length ≤ ((r ++ docClosing).drop u).length := by
        rw [List.length_drop, hlen, show docClosing.length = 3 from rfl]
        omega
      rw [find?_append_iff hbound] at hj
      exact .inl ⟨j, (find?_append_iff hbound y').mpr hj, hi⟩
    · have hmark := ((findLast?_eq_some_iff docClosing_ne_nil).mp hlast).1.length_le
      rw [List.length_drop, List.length_take, show docClosing.length = 3 from rfl] at hmark
      omega
  · -- The name goes on behind the mark, which is then the last one.
    rw [moduleClosing?_eq_some_iff, hname, List.drop_length_add_append,
      List.take_length_add_append, findLast?_append_closing] at h ⊢
    rcases h with ⟨j, -, hi⟩ | ⟨hdrop, htake⟩
    · omega
    · have hnone : ¬ docClosing <:+: y := by
        rw [← List.take_append_drop (unquoted y) y]
        exact fun h => (docClosing_split (unquoted_drop y) h).elim htake hdrop
      exact .inr ⟨fun h => hy hnone (h.trans (List.drop_suffix _ _).isInfix),
        fun h => hy hnone (h.trans (List.take_prefix _ _).isInfix)⟩

/-- A module comment ends with its closing mark. -/
theorem moduleBody?_eq_length {body y : List Char}
    (h : moduleBody? (body ++ y) = some body.length) :
    ∃ blanks r, (∀ c ∈ blanks, isBlank c = true) ∧
      body = blanks ++ moduleMark ++ (r ++ docClosing) ∧
      moduleClosing? (r ++ docClosing ++ y) = some r.length := by
  obtain ⟨before, rest, i, hrest, hi, hlen⟩ := moduleBody?_eq_some_iff.mp h
  obtain ⟨blanks, hblanks, hbody, rfl⟩ := moduleRest?_eq_some_iff.mp hrest
  have hstart : blanks ++ moduleMark <+: body :=
    List.prefix_of_prefix_length_le (hbody ▸ List.prefix_append _ _) (List.prefix_append body y)
      (by omega)
  obtain ⟨t, rfl⟩ := hstart
  rw [List.append_assoc, List.append_cancel_left_eq] at hbody
  subst hbody
  rw [List.length_append] at hlen
  have hmark := moduleClosing?_mark hi
  rw [prefix_drop_append (show i + 3 ≤ t.length by omega)] at hmark
  have hclose := hmark.eq_of_length (by rw [List.length_drop]; exact (by omega : 3 = t.length - i))
  refine ⟨blanks, t.take i, hblanks, ?_, ?_⟩
  · rw [hclose, List.take_append_drop]
  · rw [hclose, List.take_append_drop, List.length_take, Nat.min_eq_left (by omega)]
    exact hi

/-- What comes after a module comment does not change it unless a new mark comes with it. -/
theorem moduleBody?_append {body y y' : List Char}
    (h : moduleBody? (body ++ y) = some body.length)
    (hy : ¬ docClosing <:+: y → ¬ docClosing <:+: y') :
    moduleBody? (body ++ y') = some body.length := by
  obtain ⟨blanks, r, hblanks, rfl, hclose⟩ := moduleBody?_eq_length h
  refine moduleBody?_eq_some_iff.mpr ⟨(blanks ++ moduleMark).length,
    r ++ docClosing ++ y', r.length, ?_, moduleClosing?_append hclose hy, ?_⟩
  · exact moduleRest?_eq_some_iff.mpr ⟨blanks, hblanks, by rw [List.append_assoc], rfl⟩
  · have hlen : (r ++ docClosing).length = r.length + 3 := List.length_append
    rw [List.length_append, hlen, Nat.add_assoc]

/-- Whether a comment begins like one of a module is seen before its first `#`. -/
theorem moduleRest?_append_eq_none_iff {body : List Char} (h : '#' ∈ body) (y : List Char) :
    moduleRest? (body ++ y) = none ↔ moduleRest? body = none := by
  rw [moduleRest?_eq_none_iff, moduleRest?_eq_none_iff]
  refine forall₂_congr fun blanks hblanks => not_congr ⟨fun hstart => ?_, fun hstart => ?_⟩
  · rcases List.prefix_or_prefix_of_prefix hstart (List.prefix_append body y) with hp | hp
    · exact hp
    · exact absurd (hp.subset h) (hash_not_mem_moduleStart hblanks)
  · exact hstart.trans (List.prefix_append body y)

theorem moduleBody?_append_eq_none_iff {body : List Char} (h : docClosing <:+: body)
    (y : List Char) : moduleBody? (body ++ y) = none ↔ moduleRest? body = none := by
  rw [moduleBody?_eq_none_iff (h.trans (List.prefix_append body y).isInfix)]
  exact moduleRest?_append_eq_none_iff (h.subset List.mem_cons_self) y

end CMakeDocs.Extent
