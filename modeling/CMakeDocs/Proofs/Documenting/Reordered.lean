import CMakeDocs.Proofs.Documenting.Named
import Mathlib.Data.Fin.VecNotation
import Mathlib.Data.Fintype.Basic
import Mathlib.Data.List.Forall2
import Mathlib.Data.List.Sort
import Mathlib.Tactic.FinCases

/-!
# Edits in another order

The writers of a document can be filled in turns. In another order of the edits each writer is made
of the same edits, so the two documents are the same but for handles, and show the same texts.
-/
namespace CMakeDocs.Rst

/-- The same element, with handles that belong together. -/
inductive Element.Matches (R : Nat → Nat → Prop) : Element → Element → Prop
  | piece (b : Block) : Matches R (.piece b) (.piece b)
  | child {i j : Nat} (h : R i j) : Matches R (.child i) (.child j)

/-- The same writer but for the handles in it. -/
structure Writer.Matches (R : Nat → Nat → Prop) (w w' : Writer) : Prop where
  form : w.form = w'.form
  title : w.title = w'.title
  depth : w.depth = w'.depth
  indent : w.indent = w'.indent
  elements : List.Forall₂ (Element.Matches R) w.elements w'.elements

theorem map_eq_of_forall₂ {α β γ : Type} {R : α → β → Prop} {f : α → γ} {g : β → γ} {xs : List α}
    {ys : List β} (h : List.Forall₂ R xs ys) (hfg : ∀ x ∈ xs, ∀ y ∈ ys, R x y → f x = g y) :
    xs.map f = ys.map g := by
  induction h with
  | nil => rfl
  | cons hxy _ ih =>
    rw [List.map_cons, List.map_cons, hfg _ List.mem_cons_self _ List.mem_cons_self hxy,
      ih fun x hx y hy => hfg x (List.mem_cons_of_mem _ hx) y (List.mem_cons_of_mem _ hy)]

namespace Store

variable {R : Nat → Nat → Prop} {s s' : Store} {i j : Nat} {w w' : Writer}

/-- Handles that belong together are those of the same writers. -/
def Matches (R : Nat → Nat → Prop) (s s' : Store) : Prop :=
  ∀ i j, R i j → ∃ w w', s.writers[i]? = some w ∧ s'.writers[j]? = some w' ∧ w.Matches R w'

/-- Two writers that match have the same blocks if so have all that stand in them. -/
theorem blocks_eq (hs : s.Forward) (hs' : s'.Forward) (hmatches : Matches R s s')
    (hw : s.writers[i]? = some w) (hw' : s'.writers[j]? = some w') (h : w.Matches R w')
    (hlater : ∀ i' j' v v', i < i' → R i' j' → s.writers[i']? = some v →
      s'.writers[j']? = some v' → v.toBlock i' (s.later i') = v'.toBlock j' (s'.later j')) :
    w.blocks i (s.later i) = w'.blocks j (s'.later j) := by
  refine map_eq_of_forall₂ h.elements fun x hx y hy hxy => ?_
  cases hxy with
  | piece b => rfl
  | @child i' j' hR =>
    obtain ⟨v, v', hv, hv', -⟩ := hmatches i' j' hR
    have hi' := hs i w hw i' hx
    rw [elementBlock_child hi' hv, elementBlock_child (hs' j w' hw' j' hy) hv']
    exact hlater i' j' v v' hi' hR hv hv'

theorem toBlock_eq (hs : s.Forward) (hs' : s'.Forward) (hmatches : Matches R s s')
    (hR : R i j) (hw : s.writers[i]? = some w) (hw' : s'.writers[j]? = some w') :
    w.toBlock i (s.later i) = w'.toBlock j (s'.later j) := by
  -- A child has a greater handle, so the induction is on how many handles are left.
  induction hn : s.writers.length - i using Nat.strongRecOn generalizing i j w w' with
  | ind n ih =>
    obtain ⟨v, v', hv, hv', h⟩ := hmatches i j hR
    obtain rfl : w = v := Option.some.inj (hw.symm.trans hv)
    obtain rfl : w' = v' := Option.some.inj (hw'.symm.trans hv')
    have hblocks := blocks_eq hs hs' hmatches hw hw' h fun i' j' v v' hlt hR' hv hv' => by
      have hi' := (List.getElem?_eq_some_iff.mp hv).1
      exact ih (s.writers.length - i') (by omega) hR' hv hv' rfl
    rw [Writer.toBlock, Writer.toBlock, h.form, h.title, hblocks]

/-- Stores that match show the same texts. -/
theorem text_eq_of_matches (hs : s.Forward) (hs' : s'.Forward) (hmatches : Matches R s s')
    (hR : R i j) : s.text i = s'.text j := by
  obtain ⟨w, w', hw, hw', h⟩ := hmatches i j hR
  have hblocks := blocks_eq hs hs' hmatches hw hw' h fun i' j' v v' _ hR' hv hv' =>
    toBlock_eq hs hs' hmatches hR' hv hv'
  rw [text_of_getElem? hw, text_of_getElem? hw', Writer.text, Writer.text, h.form, h.title,
    h.indent, hblocks]

end Store

variable {h : Headers} {w w' d : Writer} {R : Nat → Nat → Prop} {ι : Type}

theorem Effect.matches_apply {effect : Effect} {next next' : Nat} (hw : w.Matches R w')
    (hnext : ∀ d, effect.made = some d → R next next') :
    (effect.apply next w).Matches R (effect.apply next' w') := by
  obtain ⟨hform, htitle, hdepth, hindent, helements⟩ := hw
  cases effect with
  | refuses fault => exact ⟨hform, htitle, hdepth, hindent, helements⟩
  | adds b =>
    exact ⟨hform, htitle, hdepth, hindent, List.rel_append helements (.cons (.piece b) .nil)⟩
  | makes d =>
    exact ⟨hform, htitle, hdepth, hindent,
      List.rel_append helements (.cons (.child (hnext d rfl)) .nil)⟩
  | opts name value =>
    exact ⟨congrArg (Form.withOptions [(name, value)]) hform, htitle, hdepth, hindent,
      List.rel_append helements .nil⟩
  | clears => exact ⟨hform, htitle, hdepth, hindent, .nil⟩
  | titles title heading fault =>
    exact ⟨congrArg (Form.headed heading) hform, rfl, hdepth, hindent, helements⟩

theorem Writer.Matches.of_empty (hw : w.elements = []) : w.Matches R w :=
  ⟨rfl, rfl, rfl, rfl, by rw [hw]; exact .nil⟩

/-- The same edits make the same of a writer, but for handles. -/
theorem Writer.Matches.followed {next next' : NamedEdit ι → Nat} {cs : List (NamedEdit ι)}
    (hw : w.Matches R w')
    (hnext : ∀ c ∈ cs, ∀ d, (w.kind.effect h c.edit).made = some d → R (next c) (next' c)) :
    (w.followed h next cs).Matches R (w'.followed h next' cs) := by
  induction cs generalizing w w' with
  | nil => exact hw
  | cons c cs ih =>
    obtain ⟨hfirst, hrest⟩ := List.forall_mem_cons.mp hnext
    have hkind : w'.kind = w.kind := by
      rw [Writer.kind, Writer.kind, hw.form, hw.depth, hw.indent]
    have hstep : ((w.kind.effect h c.edit).apply (next c) w).Matches R
        ((w'.kind.effect h c.edit).apply (next' c) w') := by
      rw [hkind]
      exact Effect.matches_apply hw hfirst
    exact ih hstep (by rwa [Effect.kind_apply])

variable [DecidableEq ι] {known : List ι} {cs : List (NamedEdit ι)}

/-- Another order of edits in which those of the same writer keep theirs. -/
structure Reordering (P Q : List (NamedEdit ι)) where
  place : Fin P.length ≃ Fin Q.length
  get_place : ∀ i, Q.get (place i) = P.get i
  lt_place : ∀ i j, i < j → (P.get i).target = (P.get j).target → place i < place j

/-- The places of the edits of one writer. -/
def placesOf (n : ι) (cs : List (NamedEdit ι)) : List (Fin cs.length) :=
  (List.finRange cs.length).filter fun i => (cs.get i).target = n

theorem mem_placesOf {n : ι} {i : Fin cs.length} : i ∈ placesOf n cs ↔ (cs.get i).target = n := by
  simp [placesOf]

theorem editsOf_eq_map (n : ι) (cs : List (NamedEdit ι)) :
    editsOf n cs = (placesOf n cs).map cs.get :=
  calc editsOf n cs = editsOf n ((List.finRange cs.length).map cs.get) := by
        rw [List.map_get_finRange]
    _ = (placesOf n cs).map cs.get := List.filter_map

variable {P Q : List (NamedEdit ι)}

theorem Reordering.map_placesOf (r : Reordering P Q) (n : ι) :
    (placesOf n P).map r.place = placesOf n Q := by
  have hP : ((placesOf n P).map r.place).Pairwise (· < ·) := by
    refine List.pairwise_map.mpr (((List.pairwise_lt_finRange _).filter _).imp_of_mem ?_)
    intro i j hi hj hlt
    exact r.lt_place i j hlt ((mem_placesOf.mp hi).trans (mem_placesOf.mp hj).symm)
  refine hP.eq_of_mem_iff ((List.pairwise_lt_finRange _).filter _) fun j => ?_
  rw [List.mem_map, mem_placesOf]
  constructor
  · rintro ⟨i, hi, rfl⟩
    rw [r.get_place]
    exact mem_placesOf.mp hi
  · intro hj
    refine ⟨r.place.symm j, mem_placesOf.mpr ?_, r.place.apply_symm_apply j⟩
    rw [← r.get_place, r.place.apply_symm_apply, hj]

/-- Each writer has the same edits in both orders. -/
theorem Reordering.editsOf_eq (r : Reordering P Q) (n : ι) : editsOf n P = editsOf n Q := by
  rw [editsOf_eq_map, editsOf_eq_map, ← r.map_placesOf, List.map_map]
  exact List.map_congr_left fun i _ => (r.get_place i).symm

theorem mem_of_editsOf_eq (hedits : ∀ n, editsOf n P = editsOf n Q) {c : NamedEdit ι} (hc : c ∈ P) :
    c ∈ Q := by
  have hmem : c ∈ editsOf c.target P := List.mem_filter.mpr ⟨hc, decide_eq_true rfl⟩
  rw [hedits] at hmem
  exact List.mem_of_mem_filter hmem

theorem namesAfter_subset (hedits : ∀ n, editsOf n P = editsOf n Q) {n : ι}
    (hn : n ∈ namesAfter known P) : n ∈ namesAfter known Q := by
  rw [mem_namesAfter] at hn ⊢
  exact hn.imp_right fun ⟨c, hc, hmade⟩ => ⟨c, mem_of_editsOf_eq hedits hc, hmade⟩

namespace NamedStore

variable {s : NamedStore ι} {n : ι}

/-- A store in which certain names are those of empty writers. -/
structure Fresh (known : List ι) (s : NamedStore ι) : Prop where
  sound : s.Sound
  handle?_eq_none : ∀ n, n ∉ known → s.handle? n = none
  elements_eq_nil : ∀ n w, s.writer? n = some w → w.elements = []

theorem fresh_start (root : ι) (h : Headers) (hw : w.elements = []) :
    (start root h w).Fresh [root] := by
  have hroot : ∀ n i, (start root h w).handle? n = some i → n = root ∧ i = 0 := by
    intro n i hi
    simp only [start] at hi
    split at hi
    · next hn => exact ⟨hn, (Option.some.inj hi).symm⟩
    · cases hi
  have hwriter : ∀ i v, (start root h w).store.writers[i]? = some v → v = w := fun i v hv =>
    List.mem_singleton.mp (List.mem_of_getElem? hv)
  refine ⟨⟨fun n i hi => ?_, fun m n i hm hn => ?_, fun i v hv j hj => ?_⟩, fun n hn => ?_,
    fun n v hv => ?_⟩
  · rw [(hroot n i hi).2]
    exact Nat.zero_lt_one
  · rw [(hroot m i hm).1, (hroot n i hn).1]
  · rw [hwriter i v hv, hw] at hj
    cases hj
  · exact if_neg (mt List.mem_singleton.mpr hn)
  · obtain ⟨i, -, hi⟩ := exists_handle hv
    rw [hwriter i v hi, hw]

section

variable (hs : s.Fresh known) (hP : WellNamed known P) (hQ : WellNamed known Q)
  (hedits : ∀ n, editsOf n P = editsOf n Q)
include hs hP

/-- What an edit makes has the handle that it is looked up by. -/
theorem handle?_next {k : Writer.Kind} {c : NamedEdit ι} (hc : c ∈ P)
    (hkind : (s.run P).kind? c.target = some k)
    (hmade : (k.effect s.store.headers c.edit).made = some d) :
    (s.run P).handle? c.made = some ((s.run P).next c) := by
  have hwriter := writer?_run_made hs.sound hP hs.handle?_eq_none hc (made?_of_made hmade)
  rw [hkind, Option.bind_some, hmade, Option.map_some] at hwriter
  obtain ⟨i, hi, -⟩ := exists_handle hwriter
  rw [next, hi, Option.getD_some]

include hQ hedits

/-- What decides an edit's effect is the same in both orders. -/
theorem kind?_run_eq (n : ι) : (s.run P).kind? n = (s.run Q).kind? n := by
  by_cases hn : n ∈ namesAfter known P
  -- The kind of a new writer depends on nothing but its edit and the kind of its maker.
  · refine hP.forall_names (E := fun n => (s.run P).kind? n = (s.run Q).kind? n) ?_ ?_ n hn
    · intro n hn
      rw [kind?_run hs.sound hP hn, kind?_run hs.sound hQ hn]
    · intro c hc m hm htarget
      rw [kind?, kind?, writer?_run_made hs.sound hP hs.handle?_eq_none hc hm,
        writer?_run_made hs.sound hQ hs.handle?_eq_none (mem_of_editsOf_eq hedits hc) hm, htarget,
        Option.map_map, Option.map_map]
      congr 1
      funext w
      exact (Writer.kind_followed ..).trans (Writer.kind_followed ..).symm
  · have hn' : n ∉ namesAfter known Q := fun hmem =>
      hn (namesAfter_subset (fun n => (hedits n).symm) hmem)
    rw [kind?, kind?, writer?, writer?,
      handle?_run_of_not_mem hs.sound hs.handle?_eq_none hn,
      handle?_run_of_not_mem hs.sound hs.handle?_eq_none hn']
    rfl

/-- In both orders a writer comes from the same empty one, by the same edits. -/
theorem exists_first (hn : n ∈ namesAfter known P) :
    ∃ first : Option Writer, (∀ w ∈ first, w.elements = []) ∧
      (s.run P).writer? n =
        first.map (·.followed s.store.headers (s.run P).next (editsOf n Q)) ∧
      (s.run Q).writer? n =
        first.map (·.followed s.store.headers (s.run Q).next (editsOf n Q)) := by
  rcases mem_namesAfter.mp hn with hn | ⟨c, hc, hn⟩
  · refine ⟨s.writer? n, hs.elements_eq_nil n, ?_, writer?_run hs.sound hQ hn⟩
    rw [← hedits]
    exact writer?_run hs.sound hP hn
  · refine ⟨_, fun w hw => ?_, ?_,
      writer?_run_made hs.sound hQ hs.handle?_eq_none (mem_of_editsOf_eq hedits hc) hn⟩
    · obtain ⟨k, -, hmade⟩ := Option.bind_eq_some_iff.mp hw
      exact (makes_of_made hmade).2
    · rw [← hedits, ← kind?_run_eq hs hP hQ hedits]
      exact writer?_run_made hs.sound hP hs.handle?_eq_none hc hn

/-- Both orders lead to the same writers, but for their handles. -/
theorem matches_run :
    Store.Matches (fun i j => ∃ n, (s.run P).handle? n = some i ∧ (s.run Q).handle? n = some j)
      (s.run P).store (s.run Q).store := by
  rintro i j ⟨n, hi, hj⟩
  obtain ⟨v, hv, hvP⟩ := (sound_run hs.sound P).exists_writer hi
  obtain ⟨v', hv', hvQ⟩ := (sound_run hs.sound Q).exists_writer hj
  refine ⟨v, v', hv, hv', ?_⟩
  have hn : n ∈ namesAfter known P := by
    by_contra hn
    cases hi.symm.trans (handle?_run_of_not_mem hs.sound hs.handle?_eq_none hn)
  obtain ⟨first, hempty, hfirstP, hfirstQ⟩ := exists_first hs hP hQ hedits hn
  obtain ⟨w, rfl, hwP⟩ := Option.map_eq_some_iff.mp (hfirstP.symm.trans hvP)
  obtain rfl : _ = v' := Option.some.inj (hfirstQ.symm.trans hvQ)
  subst hwP
  refine (Writer.Matches.of_empty (hempty w rfl)).followed fun c hc d hmade => ?_
  -- What the edit makes has the same name in both orders, and a handle in each.
  obtain ⟨hc, htarget⟩ := List.mem_filter.mp hc
  have hkind : (s.run Q).kind? c.target = some w.kind := by
    rw [of_decide_eq_true htarget, kind?, hvQ, Option.map_some, Writer.kind_followed]
  refine ⟨c.made, handle?_next hs hP (mem_of_editsOf_eq (fun n => (hedits n).symm) hc) ?_ hmade,
    handle?_next hs hQ hc hkind hmade⟩
  rw [kind?_run_eq hs hP hQ hedits, hkind]

theorem text?_run_eq (n : ι) : (s.run P).text? n = (s.run Q).text? n := by
  have hkind := kind?_run_eq hs hP hQ hedits n
  cases hi : (s.run P).handle? n with
  | none =>
    have hj : (s.run Q).handle? n = none := by
      rw [kind?, writer?, hi] at hkind
      exact handle?_eq_none (sound_run hs.sound Q) (Option.map_eq_none_iff.mp hkind.symm)
    rw [text?, text?, hi, hj]
    rfl
  | some i =>
    obtain ⟨v, hv, hvP⟩ := (sound_run hs.sound P).exists_writer hi
    rw [kind?, hvP] at hkind
    obtain ⟨v', hv', -⟩ := Option.map_eq_some_iff.mp hkind.symm
    obtain ⟨j, hj, -⟩ := exists_handle hv'
    rw [text?, text?, hi, hj, Option.map_some, Option.map_some,
      Store.text_eq_of_matches (sound_run hs.sound P).forward (sound_run hs.sound Q).forward
        (matches_run hs hP hQ hedits) ⟨n, hi, hj⟩]

theorem answerTo_run_eq (c : NamedEdit ι) : (s.run P).answerTo c = (s.run Q).answerTo c := by
  rw [answerTo, answerTo, kind?_run_eq hs hP hQ hedits, headers_run, headers_run]

end

/-- Edits of different writers commute. Let the edits of a document come in another order, in which
those of the same writer keep theirs and each writer is still made before it is edited. Then all
writers have the same texts in the end, and each edit is done or refused as before. -/
theorem run_reordered (root : ι) (h : Headers) (w : Writer) (hw : w.elements = [])
    (P Q : List (NamedEdit ι)) (hP : WellNamed [root] P) (hQ : WellNamed [root] Q)
    (r : Reordering P Q) :
    (∀ n, ((start root h w).run P).text? n = ((start root h w).run Q).text? n) ∧
      ∀ i : Fin P.length, ∃ a, ((start root h w).answers P)[(i : Nat)]? = some a ∧
        ((start root h w).answers Q)[(r.place i : Nat)]? = some a := by
  have hs := fresh_start root h hw
  refine ⟨text?_run_eq hs hP hQ r.editsOf_eq, fun i =>
    ⟨((start root h w).run P).answerTo (P.get i), ?_, ?_⟩⟩
  · rw [answers_eq hs.sound hP, List.getElem?_map, List.getElem?_eq_getElem i.isLt]
    rfl
  · rw [answers_eq hs.sound hQ, List.getElem?_map, List.getElem?_eq_getElem (r.place i).isLt,
      answerTo_run_eq hs hP hQ r.editsOf_eq, ← r.get_place]
    rfl

/-- A page is written from top to bottom. There is no mark for what would be deep in it. -/
def pageInOrder : List (NamedEdit String) :=
  [⟨"page", .addPart (.text "Part"), "part"⟩, ⟨"page", .addDirective (.text "note") [], "note"⟩,
    ⟨"note", .addOption (.text "class") (.text "wide"), ""⟩,
    ⟨"part", .addOption (.text "class") (.text "wide"), ""⟩,
    ⟨"part", .addPart (.text "Deep"), "deep"⟩, ⟨"deep", .addParagraph (.text "lost"), ""⟩,
    ⟨"page", .clear, ""⟩, ⟨"part", .setTitle (.text "Cleared"), ""⟩]

def pageInTurns : List (NamedEdit String) :=
  [⟨"page", .addPart (.text "Part"), "part"⟩,
    ⟨"part", .addOption (.text "class") (.text "wide"), ""⟩,
    ⟨"page", .addDirective (.text "note") [], "note"⟩, ⟨"part", .addPart (.text "Deep"), "deep"⟩,
    ⟨"page", .clear, ""⟩, ⟨"part", .setTitle (.text "Cleared"), ""⟩,
    ⟨"deep", .addParagraph (.text "lost"), ""⟩,
    ⟨"note", .addOption (.text "class") (.text "wide"), ""⟩]

def pagePlaces : Fin 8 ≃ Fin 8 where
  toFun := ![0, 2, 7, 1, 3, 6, 4, 5]
  invFun := ![0, 3, 1, 4, 6, 7, 5, 2]
  left_inv := by
    rw [Function.LeftInverse]
    decide
  right_inv := by
    rw [Function.RightInverse, Function.LeftInverse]
    decide

def pageReordering : Reordering pageInOrder pageInTurns where
  place := pagePlaces
  get_place := by
    change ∀ i : Fin 8, _
    intro i
    fin_cases i <;> rfl
  lt_place := by decide

/-- The page is the same in turns, although some of its edits are refused and one writer is never
made. -/
theorem page_in_turns :
    WellNamed ["page"] pageInOrder ∧ WellNamed ["page"] pageInTurns ∧
    let s := start "page" (.given (.list [.text "=", .text "-"])) ⟨.part "", .text "", 0, 0, []⟩
    (∀ n, (s.run pageInOrder).text? n = (s.run pageInTurns).text? n) ∧
      ∀ i : Fin 8, ∃ a, (s.answers pageInOrder)[(i : Nat)]? = some a ∧
        (s.answers pageInTurns)[(pagePlaces i : Nat)]? = some a := by
  have hP : WellNamed ["page"] pageInOrder := by
    simp [WellNamed, pageInOrder, NamedEdit.made?, Store.Edit.makes]
  have hQ : WellNamed ["page"] pageInTurns := by
    simp [WellNamed, pageInTurns, NamedEdit.made?, Store.Edit.makes]
  exact ⟨hP, hQ, run_reordered _ _ _ rfl _ _ hP hQ pageReordering⟩

end NamedStore

end CMakeDocs.Rst
