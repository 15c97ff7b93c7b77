import CMakeDocs.Proofs.Documenting.Effects

/-!
# Headings that follow titles

A section keeps the heading that it shows, while its title can change at any time. A new heading is
stored with every new title, so the two always agree. The marks of a heading are told by how deep
the section stands, and a section that would need a mark beyond the last one cannot be made.
-/
namespace CMakeDocs

theorem Value.itemAt?_natCast {α : Type} (items : List α) (k : Nat) :
    Value.itemAt? items k = items[k]? := by
  rw [itemAt?, if_pos (Int.natCast_nonneg k), Int.toNat_natCast]

namespace Headers

/-- The texts that underline titles, in the order of depths. -/
inductive MarkedBy : Headers → List String → Prop
  | preset : MarkedBy preset presetChars
  | null : MarkedBy (given .null) presetChars
  | text (s : String) : MarkedBy (given (.text s)) (s.toList.map String.singleton)
  | list (marks : List String) : MarkedBy (given (.list (marks.map .text))) marks

variable {h : Headers} {marks : List String}

/-- A mark is found at each depth that is less than the number of marks. Beyond, there is no
item. -/
theorem MarkedBy.exists_at? (hmarks : h.MarkedBy marks) :
    ∃ kind, ∀ k : Nat, h.at? k = match marks[k]? with
      | some mark => .ok (.text mark)
      | none => .error (.misuse (.noItem kind)) := by
  cases hmarks with
  | preset =>
    refine ⟨"tuple", fun k => ?_⟩
    cases hk : presetChars[k]? <;> simp only [at?, Value.itemAt?_natCast, hk]
  | null =>
    refine ⟨"list", fun k => ?_⟩
    simp only [at?, Value.item, Value.itemAt?_natCast, List.getElem?_map]
    cases presetChars[k]? <;> rfl
  | text s =>
    refine ⟨"string", fun k => ?_⟩
    simp only [at?, Value.item, Value.itemAt?_natCast, List.getElem?_map]
    cases s.toList[k]? <;> rfl
  | list marks =>
    refine ⟨"list", fun k => ?_⟩
    simp only [at?, Value.item, Value.itemAt?_natCast, List.getElem?_map]
    cases marks[k]? <;> rfl

/-- The heading of a text has as many marks as the text has characters. -/
theorem MarkedBy.heading_text (hmarks : h.MarkedBy marks) {k : Nat} {mark : String}
    (hk : marks[k]? = some mark) (title : String) :
    h.heading k (.text title) = .ok (Rst.headingText mark title) := by
  obtain ⟨kind, hat⟩ := hmarks.exists_at?
  have hmark := hat k
  rw [hk] at hmark
  have hlength : (title.toList.map fun c => Value.text (String.singleton c)).length =
      title.length := by rw [List.length_map, String.length_toList]
  rw [heading, hmark]
  exact congrArg (fun n => Except.ok (Rst.linedText mark n title)) hlength

end Headers

namespace Rst

open Store (Edit)

variable {h : Headers} {marks : List String} {s : Store} {w : Writer} {e : Edit}

theorem newPart_text (hmarks : h.MarkedBy marks) {k : Nat} {mark : String}
    (hk : marks[k]? = some mark) (title : String) (indent : Int) :
    Writer.newPart h (.text title) k indent =
      .ok ⟨.part (headingText mark title), .text title, k, indent, []⟩ := by
  rw [Writer.newPart, hmarks.heading_text hk]
  rfl

theorem newPart_beyond (hmarks : h.MarkedBy marks) {k : Nat} (hk : marks.length ≤ k) (title : Value)
    (indent : Int) : ∃ kind, Writer.newPart h title k indent = .error (.misuse (.noItem kind)) := by
  obtain ⟨kind, hat⟩ := hmarks.exists_at?
  have hnone := hat k
  rw [List.getElem?_eq_none hk] at hnone
  exact ⟨kind, by rw [Writer.newPart, Headers.heading, hnone]; rfl⟩

theorem le_of_newPart (hmarks : h.MarkedBy marks) {k : Nat} {title : Value} {indent : Int}
    {kind : String} (hfault : Writer.newPart h title k indent = .error (.misuse (.noItem kind))) :
    marks.length ≤ k := by
  obtain ⟨_, hat⟩ := hmarks.exists_at?
  by_contra hlt
  have hmark := hat k
  rw [List.getElem?_eq_getElem (Nat.lt_of_not_le hlt)] at hmark
  rw [Writer.newPart, Headers.heading, hmark] at hfault
  unfold headingOf Value.iterate at hfault
  cases hitems : title.sequence? with
  | none =>
    rw [hitems] at hfault
    cases hfault
  | some items =>
    rw [hitems] at hfault
    cases hfault

/-- The titles of an edit are texts. -/
def Store.Edit.Titled : Edit → Prop
  | addPart title | setTitle title => ∃ text, title = .text text
  | _ => True

/-- A section has the heading of its title, with the mark of its depth. -/
structure Writer.Headed (marks : List String) (w : Writer) : Prop where
  depth : 0 ≤ w.depth
  heading : ∀ heading, w.form = .part heading → ∃ title mark, w.title = .text title ∧
    marks[w.depth.toNat]? = some mark ∧ heading = headingText mark title

/-- What an effect makes has the right heading, and so has the title that it gives. -/
def Effect.Heads (marks : List String) (k : Writer.Kind) : Effect → Prop
  | makes d => d.Headed marks
  | titles title heading _ => k.isDirective = false → ∃ text mark, title = .text text ∧
    marks[k.depth.toNat]? = some mark ∧ heading = some (headingText mark text)
  | _ => True

theorem headed_newPart (hmarks : h.MarkedBy marks) {k : Nat} {text : String} {indent : Int}
    (hw : Writer.newPart h (.text text) k indent = .ok w) :
    w.Headed marks ∧ w.form.isDirective = false ∧ w.depth = k := by
  cases hmark : marks[k]? with
  | none =>
    obtain ⟨kind, hfault⟩ := newPart_beyond hmarks (List.getElem?_eq_none_iff.mp hmark)
      (.text text) indent
    rw [hfault] at hw
    cases hw
  | some mark =>
    rw [newPart_text hmarks hmark] at hw
    cases hw
    refine ⟨⟨Int.natCast_nonneg k, fun heading hform => ?_⟩, rfl, rfl⟩
    cases hform
    exact ⟨text, mark, rfl, hmark, rfl⟩

theorem Writer.Headed.exists_mark (hw : w.Headed marks) (hform : w.form.isDirective = false) :
    ∃ mark, marks[w.depth.toNat]? = some mark := by
  cases hcase : w.form with
  | part heading =>
    obtain ⟨-, mark, -, hmark, -⟩ := hw.heading heading hcase
    exact ⟨mark, hmark⟩
  | directive arguments options =>
    rw [hcase] at hform
    cases hform

theorem Effect.headed_apply {effect : Effect} (hw : w.Headed marks)
    (heffect : effect.Heads marks w.kind) (next : Nat) : (effect.apply next w).Headed marks := by
  obtain ⟨hdepth, hheading⟩ := hw
  cases effect with
  | refuses | adds | makes | clears => exact ⟨hdepth, hheading⟩
  | opts name value =>
    refine ⟨hdepth, fun heading hform => hheading heading ?_⟩
    rw [apply, Writer.grown] at hform
    cases hcase : w.form with
    | part old =>
      rw [hcase] at hform
      exact hform
    | directive arguments options =>
      rw [hcase] at hform
      cases hform
  | titles title new fault =>
    refine ⟨hdepth, fun heading hform => ?_⟩
    rw [apply] at hform ⊢
    cases hcase : w.form with
    | part old =>
      have hpart : w.kind.isDirective = false := by rw [Writer.kind, hcase]; rfl
      obtain ⟨text, mark, htitle, hmark, rfl⟩ := heffect hpart
      rw [hcase] at hform
      cases hform
      exact ⟨text, mark, htitle, hmark, rfl⟩
    | directive arguments options =>
      rw [hcase] at hform
      cases hform

theorem heads_ofMade {made : Except Error Writer} {k : Writer.Kind}
    (hmade : ∀ d, made = .ok d → d.Headed marks) : (Effect.ofMade made).Heads marks k := by
  cases made with
  | error fault => trivial
  | ok d => exact hmade d rfl

/-- An edit whose titles are texts keeps to the headings. -/
theorem Writer.Headed.heads_effect (hmarks : h.MarkedBy marks) (hw : w.Headed marks)
    (he : e.Titled) : (w.kind.effect h e).Heads marks w.kind := by
  obtain ⟨k, hk⟩ := Int.eq_ofNat_of_zero_le hw.depth
  cases e with
  | addPart title =>
    obtain ⟨text, rfl⟩ := he
    refine heads_ofMade fun d hd => ?_
    have hdepth : w.kind.depth + 1 = ((k + 1 : Nat) : Int) := by rw [Writer.kind, hk]; rfl
    rw [hdepth] at hd
    exact (headed_newPart hmarks hd).1
  | addDirective name arguments =>
    refine heads_ofMade fun d hd => ?_
    obtain ⟨-, -, hd⟩ := exists_of_bind_ok hd
    cases hd
    exact ⟨Int.le_refl 0, fun heading hform => by cases hform⟩
  | setTitle title =>
    obtain ⟨text, rfl⟩ := he
    rw [Writer.Kind.effect]
    split
    · next hform =>
      intro hpart
      rw [hform] at hpart
      cases hpart
    · next hform =>
      obtain ⟨mark, hmark⟩ := hw.exists_mark (eq_false_of_ne_true hform)
      have hheading : h.heading w.kind.depth (.text text) = .ok (headingText mark text) := by
        rw [hk] at hmark
        rw [Writer.kind, hk]
        exact hmarks.heading_text hmark text
      rw [hheading]
      exact fun _ => ⟨text, mark, rfl, hmark, rfl⟩
  | addParagraph v =>
    cases v <;> trivial
  | addTable rows headings =>
    rw [Writer.Kind.effect]
    cases Table.ofValues? rows headings <;> trivial
  | addOption name value =>
    rw [Writer.Kind.effect]
    split <;> trivial
  | addField | addDoctest | addList | clear => trivial

/-- The heading that is built from the title of a writer. -/
def Writer.builtHeading (marks : List String) (w : Writer) : Option String :=
  match w.form with
  | .part _ => marks[w.depth.toNat]?.map fun mark => headingText mark w.title.shown
  | .directive arguments _ =>
    some (directiveHeadingText (indentation (w.indent - 1)) w.title.shown
      (",".intercalate arguments))

namespace Store

variable {handle i k : Nat} {d : Writer} {edits : List (Nat × Edit)}

/-- All writers of a store have the headings of their titles. -/
def Headed (marks : List String) (s : Store) : Prop :=
  ∀ (i : Nat) (w : Writer), s.writers[i]? = some w → w.Headed marks

theorem headed_edit (hmarks : s.headers.MarkedBy marks) (hs : s.Headed marks) (he : e.Titled)
    (handle : Nat) : (s.edit handle e).1.Headed marks := by
  cases hw : s.writers[handle]? with
  | none => rwa [edit_of_none hw]
  | some w =>
    have heads := (hs handle w hw).heads_effect hmarks he
    rw [edit_eq_after hw]
    generalize w.kind.effect s.headers e = effect at heads ⊢
    refine forall_modify_append.mpr ⟨fun i d hd => ?_, fun i d hd => ?_⟩
    · split
      · next hi =>
        obtain rfl := hi
        obtain rfl : w = d := Option.some.inj (hw.symm.trans hd)
        exact Effect.headed_apply (hs handle w hw) heads s.writers.length
      · exact hs i d hd
    · have hmade : effect.made = some d := Option.mem_toList.mp (List.mem_of_getElem? hd)
      cases effect with
      | makes new =>
        cases hmade
        exact heads
      | _ => cases hmade

theorem headers_run (s : Store) (edits : List (Nat × Edit)) :
    (s.run edits).headers = s.headers := by
  induction edits generalizing s with
  | nil => rfl
  | cons p edits ih => exact (ih _).trans (headers_edit s p.1 p.2)

theorem headed_run (hmarks : s.headers.MarkedBy marks) (hs : s.Headed marks)
    (hedits : ∀ p ∈ edits, p.2.Titled) : (s.run edits).Headed marks := by
  induction edits generalizing s with
  | nil => exact hs
  | cons p edits ih =>
    obtain ⟨hp, hedits⟩ := List.forall_mem_cons.mp hedits
    exact ih (by rwa [headers_edit]) (headed_edit hmarks hs hp p.1) hedits

/-- A writer is shown with the heading of its title above all else. -/
theorem exists_text_below (hd : s.writers[i]? = some d) (hheaded : d.Headed marks) :
    ∃ heading rest, d.builtHeading marks = some heading ∧ s.text i = heading ++ "\n" ++ rest := by
  rw [text_of_getElem? hd, Writer.text, Writer.builtHeading]
  cases hform : d.form with
  | part heading =>
    obtain ⟨title, mark, htitle, hmark, rfl⟩ := hheaded.heading heading hform
    refine ⟨_, _, ?_, rfl⟩
    rw [htitle, hmark]
    rfl
  | directive arguments options =>
    exact ⟨_, _, rfl, String.append_assoc ..⟩

/-- A writer is reached from the first one by a number of sections, each made in the one before. -/
inductive ReachedBySections (s : Store) (edits : List (Nat × Edit)) : Nat → Nat → Prop
  | first : ReachedBySections s edits 0 0
  | made {before after : List (Nat × Edit)} {i k : Nat} {title : Value} {w : Writer}
      (parent : ReachedBySections s edits i k)
      (call : edits = before ++ (i, .addPart title) :: after)
      (writer : (s.run before).writers[i]? = some w)
      (ok : ((s.run before).edit i (.addPart title)).2 = none) :
      ReachedBySections s edits (s.run before).writers.length (k + 1)

theorem run_append (s : Store) (first second : List (Nat × Edit)) :
    s.run (first ++ second) = (s.run first).run second := List.foldl_append

theorem exists_newPart {title : Value} (hw : s.writers[i]? = some w)
    (hok : (s.edit i (.addPart title)).2 = none) :
    ∃ d, (s.edit i (.addPart title)).1.writers[s.writers.length]? = some d ∧
      d.form.isDirective = false ∧ d.depth = w.depth + 1 := by
  rw [edit_eq_after hw] at hok ⊢
  cases hnew : Writer.newPart s.headers title (w.depth + 1) 0 with
  | error fault =>
    have hfault : (w.kind.effect s.headers (.addPart title)).fault = some fault :=
      congrArg (fun made => (Effect.ofMade made).fault) hnew
    rw [hfault] at hok
    cases hok
  | ok d =>
    have heffect : w.kind.effect s.headers (.addPart title) = .makes d :=
      congrArg Effect.ofMade hnew
    obtain ⟨heading, -, hd⟩ := exists_of_bind_ok hnew
    refine ⟨d, ?_, by cases hd; rfl, by cases hd; rfl⟩
    rw [heffect]
    exact getElem?_after_made s i rfl

/-- The depth of a section tells by how many sections it is reached. -/
theorem ReachedBySections.exists_depth (hfirst : s.writers[0]? = some w)
    (hform : w.form.isDirective = false) (hdepth : w.depth = 0)
    (h : ReachedBySections s edits i k) :
    ∃ d, (s.run edits).writers[i]? = some d ∧ d.form.isDirective = false ∧ d.depth = k := by
  induction h with
  | first =>
    obtain ⟨d, hd, hkind⟩ := exists_kind_run edits hfirst
    refine ⟨d, hd, (congrArg Writer.Kind.isDirective hkind).trans hform, ?_⟩
    exact (congrArg Writer.Kind.depth hkind).trans hdepth
  | @made before after i k title v parent call writer ok ih =>
    obtain ⟨d, hd, -, hk⟩ := ih
    obtain ⟨new, hnew, hpart, hdeeper⟩ := exists_newPart writer ok
    rw [call, run_append] at hd ⊢
    -- The depth that the maker has in the end is the one it had when it made the section.
    obtain ⟨d', hd', hkind⟩ := exists_kind_run ((i, .addPart title) :: after) writer
    obtain rfl : d = d' := Option.some.inj (hd.symm.trans hd')
    have hv : v.depth = k := (congrArg Writer.Kind.depth hkind).symm.trans hk
    obtain ⟨last, hlast, hsame⟩ := exists_kind_run after hnew
    have hlastDepth : last.depth = new.depth := congrArg Writer.Kind.depth hsame
    refine ⟨last, hlast, (congrArg Writer.Kind.isDirective hsame).trans hpart, ?_⟩
    rw [hlastDepth, hdeeper, hv]
    rfl

theorem addPart_fault_iff (hmarks : s.headers.MarkedBy marks) (hd : s.writers[i]? = some d)
    (hk : d.depth = k) (title : Value) :
    (∃ kind, (s.edit i (.addPart title)).2 = some (.misuse (.noItem kind))) ↔
      ¬ k + 1 < marks.length := by
  have hdepth : d.kind.depth + 1 = ((k + 1 : Nat) : Int) := by
    rw [Writer.kind, hk]
    rfl
  rw [edit_eq_after hd, Writer.Kind.effect, hdepth, Nat.not_lt]
  constructor
  · rintro ⟨kind, hfault⟩
    cases hnew : Writer.newPart s.headers title ((k + 1 : Nat) : Int) 0 with
    | ok new =>
      rw [hnew] at hfault
      cases hfault
    | error fault =>
      rw [hnew] at hfault
      cases hfault
      exact le_of_newPart hmarks hnew
  · intro hbeyond
    obtain ⟨kind, hnew⟩ := newPart_beyond hmarks hbeyond title 0
    exact ⟨kind, by rw [hnew]; rfl⟩

/-- A section that cannot be made leaves everything as it is. -/
theorem edit_addPart_of_fault {title : Value} (h : (s.edit i (.addPart title)).2 ≠ none) :
    (s.edit i (.addPart title)).1 = s := by
  cases hw : s.writers[i]? with
  | none => exact edit_of_none hw _
  | some w =>
    rw [edit_eq_after hw, Writer.Kind.effect] at h ⊢
    generalize Writer.newPart s.headers title (w.kind.depth + 1) 0 = made at h ⊢
    cases made with
    | ok new => exact absurd rfl h
    | error fault => exact after_refuses s i fault

/-- However a document is written from its first section on, each writer is shown with the heading
of the title that it has. A section reached by a number of sections has the mark of that depth, once
above and once below the title for each of its characters. A section that would stand beyond the
last mark is missing an item, and leaves the document as it was; no other one is. -/
theorem headings_follow_titles (h : Headers) (marks : List String) (title : String) (indent : Int)
    (w : Writer) (edits : List (Nat × Edit)) (hmarks : h.MarkedBy marks)
    (hw : Writer.newPart h (.text title) 0 indent = .ok w) (hedits : ∀ p ∈ edits, p.2.Titled) :
    let s := (start h w).run edits
    (∀ (i : Nat) (d : Writer), s.writers[i]? = some d → ∃ heading rest,
      d.builtHeading marks = some heading ∧ s.text i = heading ++ "\n" ++ rest) ∧
    (∀ i k, ReachedBySections (start h w) edits i k → ∃ d text mark rest,
      s.writers[i]? = some d ∧ d.title = .text text ∧ marks[k]? = some mark ∧
      s.text i = "\n" ++ underline mark text.length ++ "\n" ++ text ++ "\n" ++
        underline mark text.length ++ "\n" ++ rest) ∧
    ∀ (i : Nat) (d : Writer), s.writers[i]? = some d → ∃ k : Nat, d.depth = k ∧
      ∀ title : Value, ((∃ kind, (s.edit i (.addPart title)).2 = some (.misuse (.noItem kind))) ↔
          ¬ k + 1 < marks.length) ∧
        (¬ k + 1 < marks.length → (s.edit i (.addPart title)).1 = s) := by
  intro s
  have hheaders : s.headers = h := headers_run (start h w) edits
  obtain ⟨hheaded, hform, hdepth⟩ : w.Headed marks ∧ w.form.isDirective = false ∧ w.depth = 0 :=
    headed_newPart hmarks hw
  have hstart : (start h w).Headed marks := by
    intro i d hd
    obtain rfl := List.mem_singleton.mp (List.mem_of_getElem? hd)
    exact hheaded
  have hs : s.Headed marks := headed_run hmarks hstart hedits
  refine ⟨fun i d hd => exists_text_below hd (hs i d hd), fun i k hreached => ?_, fun i d hd => ?_⟩
  · obtain ⟨d, hd, hpart, hk⟩ := hreached.exists_depth rfl hform hdepth
    obtain ⟨heading, rest, hbuilt, htext⟩ := exists_text_below hd (hs i d hd)
    cases hcase : d.form with
    | directive arguments options =>
      rw [hcase] at hpart
      cases hpart
    | part shown =>
      obtain ⟨text, mark, htitle, hmark, -⟩ := (hs i d hd).heading shown hcase
      rw [Writer.builtHeading, hcase, htitle, hmark] at hbuilt
      cases hbuilt
      rw [hk, Int.toNat_natCast] at hmark
      exact ⟨d, text, mark, rest, hd, htitle, hmark, htext⟩
  · obtain ⟨k, hk⟩ := Int.eq_ofNat_of_zero_le (hs i d hd).depth
    refine ⟨k, hk, fun title => ?_⟩
    have hiff := addPart_fault_iff (hheaders.symm ▸ hmarks) hd hk title
    refine ⟨hiff, fun hbeyond => edit_addPart_of_fault ?_⟩
    obtain ⟨kind, hfault⟩ := hiff.mpr hbeyond
    rw [hfault]
    simp

def twoMarks : Headers := .given (.list (["=", "--"].map .text))

def page : Writer := ⟨.part (headingText "=" "page"), .text "page", 0, 0, []⟩

/-- A section is given another title, after one in it has been tried that is too deep, and is then
taken out of the page. -/
def deepening : List (Nat × Edit) :=
  [(0, .addPart (.text "old")), (0, .addDirective (.text "note") []), (1, .addPart (.text "deep")),
    (1, .setTitle (.text "été")), (0, .clear)]

theorem deepening_follows_titles :
    twoMarks.MarkedBy ["=", "--"] ∧ Writer.newPart twoMarks (.text "page") 0 0 = .ok page ∧
    (∀ p ∈ deepening, p.2.Titled) ∧ ReachedBySections (start twoMarks page) deepening 1 1 ∧
    let s := (start twoMarks page).run deepening
    (∃ rest, s.text 1 = "\n------\nété\n------\n" ++ rest) ∧
      ∀ title, ∃ kind, s.edit 1 (.addPart title) = (s, some (.misuse (.noItem kind))) := by
  have hmarks : twoMarks.MarkedBy ["=", "--"] := .list _
  have hpage : Writer.newPart twoMarks (.text "page") 0 0 = .ok page := newPart_text hmarks rfl _ _
  have hedits : ∀ p ∈ deepening, p.2.Titled := by simp [deepening, Edit.Titled]
  have hreached : ReachedBySections (start twoMarks page) deepening 1 1 :=
    @ReachedBySections.made _ _ [] _ 0 0 _ _ .first rfl rfl rfl
  obtain ⟨-, hshown, hbeyond⟩ := headings_follow_titles _ _ _ _ _ deepening hmarks hpage hedits
  refine ⟨hmarks, hpage, hedits, hreached, ?_, fun title => ?_⟩
  · obtain ⟨d, text, mark, rest, hd, htitle, hmark, htext⟩ := hshown 1 1 hreached
    cases hd
    cases htitle
    cases hmark
    exact ⟨rest, htext⟩
  · obtain ⟨k, hk, hdeep⟩ := hbeyond 1 _ rfl
    cases hk
    obtain ⟨hfault, hsame⟩ := hdeep title
    obtain ⟨kind, hkind⟩ := hfault.mpr (by decide)
    exact ⟨kind, Prod.ext (hsame (by decide)) hkind⟩

end Store

end Rst

end CMakeDocs
