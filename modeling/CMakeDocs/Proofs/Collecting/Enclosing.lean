import CMakeDocs.Proofs.Collecting.Definitions

/-!
# What lies in a definition

The end of a definition is told by counting: between its beginning and its end the definitions are
balanced. So the items of a file say by themselves what lies in a definition, and what lies there
outside of all definitions nested in it. The same can be read off a stack of the places where open
definitions have begun: what lies directly in a definition is met while its beginning is on top.
-/
namespace CMakeDocs

/-- The definition that begins at one place ends at another. -/
structure EndsAt (is : List Item) (p q : Nat) : Prop where
  lt : p < q
  begins : ∃ it, is[p]? = some it ∧ it.isDefinition = true
  ends : ∃ it, is[q]? = some it ∧ it.isDefinitionEnd = true
  balanced : Balanced ((is.take q).drop (p + 1))

/-- A place lies between the beginning of a definition and its end. -/
def LiesIn (is : List Item) (p r : Nat) : Prop := ∃ q, EndsAt is p q ∧ p < r ∧ r < q

/-- A place lies in a definition, but in none that is nested in it. -/
def LiesDirectlyIn (is : List Item) (p r : Nat) : Prop :=
  LiesIn is p r ∧ ∀ p', LiesIn is p p' → ¬ LiesIn is p' r

/-- Wherever the items are cut off, no more definitions have ended than begun. -/
def Covered (is : List Item) : Prop :=
  ∀ before ∈ is.inits, before.countP Item.isDefinitionEnd ≤ before.countP Item.isDefinition

section Covered

variable {is js : List Item} {it : Item}

theorem Covered.mono (h : Covered js) (hp : is <+: js) : Covered is := by
  intro before hbefore
  rw [List.mem_inits] at hbefore
  exact h before ((List.mem_inits _ _).mpr (hbefore.trans hp))

theorem covered_nil : Covered [] := by simp [Covered]

theorem covered_concat : Covered (is ++ [it]) ↔ Covered is ∧
    (is ++ [it]).countP Item.isDefinitionEnd ≤ (is ++ [it]).countP Item.isDefinition := by
  constructor
  · intro h
    exact ⟨h.mono (List.prefix_append _ _), h _ (by rw [List.mem_inits])⟩
  · rintro ⟨his, hwhole⟩ before hbefore
    rw [List.mem_inits, List.prefix_concat_iff] at hbefore
    rcases hbefore with rfl | hbefore
    · exact hwhole
    · exact his before ((List.mem_inits _ _).mpr hbefore)

end Covered

/-- What an item at a place does to the beginnings of the open definitions. -/
def openStep (opened : List Nat) (x : Item × Nat) : List Nat :=
  if x.1.isDefinition then x.2 :: opened
  else if x.1.isDefinitionEnd then opened.tail
  else opened

/-- Where the definitions have begun that are open behind some items, innermost first. -/
def openAfter (is : List Item) : List Nat := is.zipIdx.foldl openStep []

section OpenAfter

variable {is js : List Item} {it : Item} {p r : Nat}

theorem openAfter_concat (is : List Item) (it : Item) :
    openAfter (is ++ [it]) = openStep (openAfter is) (it, is.length) := by
  simp [openAfter, List.zipIdx_append]

theorem openAfter_definition (is : List Item) (h : it.isDefinition = true) :
    openAfter (is ++ [it]) = is.length :: openAfter is := by
  simp [openAfter_concat, openStep, h]

theorem openAfter_end (is : List Item) (h : it.isDefinitionEnd = true) :
    openAfter (is ++ [it]) = (openAfter is).tail := by
  have hbegins : it.isDefinition = false := by
    by_contra hd
    rw [Item.isDefinitionEnd_eq_false_of_isDefinition (eq_true_of_ne_false hd)] at h
    cases h
  simp [openAfter_concat, openStep, h, hbegins]

theorem openAfter_other (is : List Item) (hd : it.isDefinition = false)
    (he : it.isDefinitionEnd = false) : openAfter (is ++ [it]) = openAfter is := by
  simp [openAfter_concat, openStep, hd, he]

theorem lt_of_mem_openAfter (h : p ∈ openAfter is) : p < is.length := by
  induction is using List.reverseRecOn with
  | nil => cases h
  | append_singleton is it ih =>
    rw [List.length_append, List.length_singleton]
    rw [openAfter_concat, openStep] at h
    split_ifs at h
    · rcases List.mem_cons.mp h with rfl | h
      · exact Nat.lt_succ_self _
      · exact Nat.lt_succ_of_lt (ih h)
    · exact Nat.lt_succ_of_lt (ih (List.mem_of_mem_tail h))
    · exact Nat.lt_succ_of_lt (ih h)

/-- Items that end nothing from before leave the stack below what they begin. -/
theorem openAfter_append (is : List Item) (h : Covered js) :
    ∃ new, openAfter (is ++ js) = new ++ openAfter is ∧
      new.length + js.countP Item.isDefinitionEnd = js.countP Item.isDefinition ∧
      ∀ p ∈ new, is.length ≤ p := by
  induction js using List.reverseRecOn with
  | nil => exact ⟨[], by simp⟩
  | append_singleton js it ih =>
    obtain ⟨hjs, hle⟩ := covered_concat.mp h
    obtain ⟨new, hnew, hlen, hfrom⟩ := ih hjs
    rw [← List.append_assoc]
    rw [List.countP_append, List.countP_append, List.countP_singleton, List.countP_singleton]
      at hle ⊢
    by_cases hd : it.isDefinition = true
    · have he := Item.isDefinitionEnd_eq_false_of_isDefinition hd
      refine ⟨(is ++ js).length :: new, by rw [openAfter_definition _ hd, hnew]; rfl, ?_, ?_⟩
      · simp only [hd, he, List.length_cons, if_true, Bool.false_eq_true, if_false]
        omega
      · intro p hp
        rcases List.mem_cons.mp hp with rfl | hp
        · simp
        · exact hfrom p hp
    by_cases he : it.isDefinitionEnd = true
    · simp only [hd, he, Bool.false_eq_true, if_true, if_false] at hle ⊢
      rw [openAfter_end _ he, hnew]
      cases new with
      | nil =>
        simp only [List.length_nil] at hlen
        omega
      | cons x new =>
        refine ⟨new, rfl, ?_, fun p hp => hfrom p (List.mem_cons_of_mem _ hp)⟩
        simp only [List.length_cons] at hlen
        omega
    · rw [openAfter_other _ (eq_false_of_ne_true hd) (eq_false_of_ne_true he)]
      exact ⟨new, hnew, by simpa [hd, he] using hlen, hfrom⟩

/-- The stack from the beginning of a definition on that has not ended. -/
theorem openAfter_of_begins (hp : is[p]? = some it) (hd : it.isDefinition = true)
    (hc : Covered (is.drop (p + 1))) :
    ∃ new, openAfter is = new ++ p :: openAfter (is.take p) ∧
      new.length + (is.drop (p + 1)).countP Item.isDefinitionEnd =
        (is.drop (p + 1)).countP Item.isDefinition ∧
      ∀ p' ∈ new, p < p' := by
  obtain ⟨hlt, rfl⟩ := List.getElem?_eq_some_iff.mp hp
  have htake : is.take (p + 1) = is.take p ++ [is[p]] := List.take_succ_eq_append_getElem hlt
  have hlength : (is.take p).length = p := List.length_take_of_le (Nat.le_of_lt hlt)
  obtain ⟨new, hnew, hlen, hfrom⟩ := openAfter_append (is.take (p + 1)) hc
  rw [List.take_append_drop, htake, openAfter_definition _ hd, hlength] at hnew
  refine ⟨new, hnew, hlen, fun p' hp' => ?_⟩
  have hle := hfrom p' hp'
  rw [List.length_take_of_le hlt] at hle
  exact hle

/-- An open definition has begun, and nothing behind it has ended it. -/
theorem begins_of_mem_openAfter (h : p ∈ openAfter is) :
    (∃ it, is[p]? = some it ∧ it.isDefinition = true) ∧ Covered (is.drop (p + 1)) := by
  induction is using List.reverseRecOn with
  | nil => cases h
  | append_singleton is it ih =>
    -- What was open before stays so if the item does not end it.
    have hold (hp : p ∈ openAfter is)
        (hends :
          (is.drop (p + 1)).countP Item.isDefinitionEnd + (if it.isDefinitionEnd then 1 else 0) ≤
            (is.drop (p + 1)).countP Item.isDefinition + (if it.isDefinition then 1 else 0)) :
        (∃ it', (is ++ [it])[p]? = some it' ∧ it'.isDefinition = true) ∧
          Covered ((is ++ [it]).drop (p + 1)) := by
      have hlt := lt_of_mem_openAfter hp
      obtain ⟨hbegins, hcovered⟩ := ih hp
      rw [List.getElem?_append_left hlt, List.drop_append_of_le_length hlt]
      refine ⟨hbegins, covered_concat.mpr ⟨hcovered, ?_⟩⟩
      rw [List.countP_append, List.countP_append, List.countP_singleton, List.countP_singleton]
      exact hends
    have hle (hp : p ∈ openAfter is) : (is.drop (p + 1)).countP Item.isDefinitionEnd ≤
        (is.drop (p + 1)).countP Item.isDefinition :=
      (ih hp).2 _ (by rw [List.mem_inits])
    by_cases hd : it.isDefinition = true
    · rw [openAfter_definition _ hd] at h
      rcases List.mem_cons.mp h with rfl | hp
      · refine ⟨⟨it, List.getElem?_concat_length, hd⟩, ?_⟩
        rw [List.drop_eq_nil_of_le (by simp)]
        exact covered_nil
      · have hcount := hle hp
        refine hold hp ?_
        simp only [Item.isDefinitionEnd_eq_false_of_isDefinition hd, hd, if_true,
          Bool.false_eq_true, if_false]
        omega
    by_cases he : it.isDefinitionEnd = true
    · rw [openAfter_end _ he] at h
      have hp := List.mem_of_mem_tail h
      obtain ⟨⟨it', hit', hd'⟩, hcovered⟩ := ih hp
      obtain ⟨new, hnew, hlen, -⟩ := openAfter_of_begins hit' hd' hcovered
      -- If nothing were open above it, this would be its end.
      have hne : new ≠ [] := by
        rintro rfl
        rw [hnew] at h
        have hbelow : p ∈ openAfter (is.take p) := h
        have hlt := lt_of_mem_openAfter hbelow
        rw [List.length_take] at hlt
        omega
      have hpos := List.length_pos_of_ne_nil hne
      refine hold hp ?_
      simp only [hd, he, if_true, Bool.false_eq_true, if_false]
      omega
    · rw [openAfter_other _ (eq_false_of_ne_true hd) (eq_false_of_ne_true he)] at h
      refine hold h ?_
      simpa [hd, he] using hle h

theorem mem_openAfter_iff : p ∈ openAfter is ↔
    (∃ it, is[p]? = some it ∧ it.isDefinition = true) ∧ Covered (is.drop (p + 1)) := by
  refine ⟨begins_of_mem_openAfter, ?_⟩
  rintro ⟨⟨it, hp, hd⟩, hc⟩
  obtain ⟨new, hnew, -, -⟩ := openAfter_of_begins hp hd hc
  simp [hnew]

/-- The definition on top of the stack: what is behind its beginning is balanced. -/
theorem openAfter_head (h : (openAfter is).head? = some p) :
    openAfter is = p :: openAfter (is.take p) ∧ Balanced (is.drop (p + 1)) := by
  obtain ⟨⟨it, hp, hd⟩, hc⟩ := begins_of_mem_openAfter (List.mem_of_mem_head? h)
  obtain ⟨new, hnew, hlen, hfrom⟩ := openAfter_of_begins hp hd hc
  cases new with
  | nil =>
    refine ⟨hnew, hc, ?_⟩
    simpa using hlen
  | cons x new =>
    rw [hnew] at h
    cases h
    exact absurd (hfrom _ List.mem_cons_self) (Nat.lt_irrefl _)

theorem openAfter_of_balanced (h : Balanced is) : openAfter is = [] := by
  obtain ⟨new, hnew, hlen, -⟩ := openAfter_append [] h.ends_le
  have hnil : new = [] := by
    have := h.ends_eq
    exact List.eq_nil_of_length_eq_zero (by omega)
  rw [List.nil_append, hnil] at hnew
  exact hnew

/-- What leaves the stack is on top of it, and the item is the end of a definition. -/
theorem head_of_not_mem (hp : p ∈ openAfter is) (hn : p ∉ openAfter (is ++ [it])) :
    it.isDefinitionEnd = true ∧ (openAfter is).head? = some p := by
  by_cases hd : it.isDefinition = true
  · rw [openAfter_definition _ hd] at hn
    exact absurd (List.mem_cons_of_mem _ hp) hn
  by_cases he : it.isDefinitionEnd = true
  · rw [openAfter_end _ he] at hn
    cases hopen : openAfter is with
    | nil => simp [hopen] at hp
    | cons x rest =>
      rw [hopen] at hp hn
      rcases List.mem_cons.mp hp with rfl | hrest
      · exact ⟨he, rfl⟩
      · exact absurd hrest hn
  · rw [openAfter_other _ (eq_false_of_ne_true hd) (eq_false_of_ne_true he)] at hn
    exact absurd hp hn

/-- An open definition ends, if all definitions do. -/
theorem endsAt_of_mem_openAfter (hb : Balanced is) (hp : p ∈ openAfter (is.take r)) :
    ∃ q, r ≤ q ∧ EndsAt is p q := by
  have hlt := lt_of_mem_openAfter hp
  rw [List.length_take] at hlt
  have hstays : ¬ ∀ q, r ≤ q → p ∈ openAfter (is.take q) := by
    intro h
    have hmem := h (max r is.length) (Nat.le_max_left _ _)
    rw [List.take_of_length_le (Nat.le_max_right _ _), openAfter_of_balanced hb] at hmem
    cases hmem
  obtain ⟨q, hq, hmem, hleaves⟩ :
      ∃ q, r ≤ q ∧ p ∈ openAfter (is.take q) ∧ p ∉ openAfter (is.take (q + 1)) := by
    by_contra hnone
    refine hstays fun q hq => ?_
    induction q, hq using Nat.le_induction with
    | base => exact hp
    | succ q hq ih =>
      by_contra hleaves
      exact hnone ⟨q, hq, ih, hleaves⟩
  have hqlt : q < is.length := by
    by_contra hge
    rw [List.take_of_length_le (by omega)] at hmem hleaves
    exact hleaves hmem
  rw [List.take_succ_eq_append_getElem hqlt] at hleaves
  obtain ⟨hends, hhead⟩ := head_of_not_mem hmem hleaves
  obtain ⟨⟨it, hit, hd⟩, -⟩ := begins_of_mem_openAfter hmem
  rw [List.getElem?_take_of_lt (by omega)] at hit
  refine ⟨q, hq, by omega, ⟨it, hit, hd⟩, ⟨_, List.getElem?_eq_getElem hqlt, hends⟩, ?_⟩
  exact (openAfter_head hhead).2

theorem liesIn_iff (hb : Balanced is) (hr : ∀ it, is[r]? = some it → it.isDefinitionEnd = false) :
    LiesIn is p r ↔ p ∈ openAfter (is.take r) := by
  constructor
  · rintro ⟨q, hq, hpr, hrq⟩
    obtain ⟨it, hit, hd⟩ := hq.begins
    refine mem_openAfter_iff.mpr ⟨⟨it, by rw [List.getElem?_take_of_lt hpr, hit], hd⟩, ?_⟩
    have hcovered : Covered ((is.take q).drop (p + 1)) := hq.balanced.ends_le
    exact hcovered.mono ((List.take_prefix_take_left (Nat.le_of_lt hrq)).drop _)
  · intro hp
    obtain ⟨q, hrq, hq⟩ := endsAt_of_mem_openAfter hb hp
    have hlt := lt_of_mem_openAfter hp
    rw [List.length_take] at hlt
    refine ⟨q, hq, by omega, lt_of_le_of_ne hrq ?_⟩
    rintro rfl
    obtain ⟨it, hit, hends⟩ := hq.ends
    rw [hr it hit] at hends
    cases hends

theorem isDefinitionEnd_of_liesIn {p' : Nat} (h : LiesIn is p' r) (it : Item)
    (hit : is[p']? = some it) : it.isDefinitionEnd = false := by
  obtain ⟨q, hq, -, -⟩ := h
  obtain ⟨it', hit', hd⟩ := hq.begins
  rw [hit] at hit'
  cases hit'
  exact Item.isDefinitionEnd_eq_false_of_isDefinition hd

/-- What lies directly in a definition is met while its beginning is on top of the stack. -/
theorem liesDirectlyIn_iff (hb : Balanced is)
    (hr : ∀ it, is[r]? = some it → it.isDefinitionEnd = false) :
    LiesDirectlyIn is p r ↔ (openAfter (is.take r)).head? = some p := by
  constructor
  · rintro ⟨hin, hnested⟩
    rw [liesIn_iff hb hr] at hin
    cases hopen : openAfter (is.take r) with
    | nil => simp [hopen] at hin
    | cons x rest =>
      have hhead : (openAfter (is.take r)).head? = some x := by rw [hopen]; rfl
      obtain ⟨hstack, -⟩ := openAfter_head hhead
      rw [hstack] at hin
      rcases List.mem_cons.mp hin with rfl | hbelow
      · rfl
      · -- The definition on top would be nested in the other.
        have hx : LiesIn is x r := (liesIn_iff hb hr).mpr (List.mem_of_mem_head? hhead)
        have hxr := lt_of_mem_openAfter (List.mem_of_mem_head? hhead)
        rw [List.length_take] at hxr
        rw [List.take_take, Nat.min_eq_left (by omega)] at hbelow
        have hp : LiesIn is p x := (liesIn_iff hb (isDefinitionEnd_of_liesIn hx)).mpr hbelow
        exact absurd hx (hnested x hp)
  · intro hhead
    refine ⟨(liesIn_iff hb hr).mpr (List.mem_of_mem_head? hhead), fun p' hp' hin => ?_⟩
    have hlt : p < p' := by
      obtain ⟨q, -, hlt, -⟩ := hp'
      exact hlt
    have hmem := (liesIn_iff hb hr).mp hin
    rw [(openAfter_head hhead).1] at hmem
    rcases List.mem_cons.mp hmem with rfl | hbelow
    · exact absurd hlt (Nat.lt_irrefl _)
    · have hle := lt_of_mem_openAfter hbelow
      rw [List.length_take] at hle
      omega

end OpenAfter

end CMakeDocs
