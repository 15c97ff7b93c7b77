import CMakeDocs.Proofs.Walking.Course

/-!
# Walks that follow their course

A walk looks at the surroundings before it does something, and what it does changes them. Where it
still sees the tree that it started in whenever it looks, its trace is its course; after an error
it is a first part of it. What holds of the surroundings along the way is handed through the walk,
so that each deed only has to keep it.
-/
namespace CMakeDocs.Site

/-- Surroundings in which the tree below a root looks as it does in others. -/
structure Sees (root : String) (w w' : World) : Prop where
  listing : ∀ ns, (∀ name ∈ ns, Path.IsName name) →
    w'.listing? (Path.below root ns) = w.listing? (Path.below root ns)
  isLink : ∀ ns, (∀ name ∈ ns, Path.IsName name) →
    w'.isLink (Path.below root ns) = w.isLink (Path.below root ns)
  holdsCMake : ∀ ns, (∀ name ∈ ns, Path.IsName name) →
    holdsCMake w' (Path.below root ns) = holdsCMake w (Path.below root ns)

theorem Sees.refl (root : String) (w : World) : Sees root w w :=
  ⟨fun _ _ => rfl, fun _ _ => rfl, fun _ _ => rfl⟩

/-- Whether a walk is over once it has done something. -/
def isOver (s : Settings) (deeds : List Deed) : Bool := !s.recursive && !deeds.isEmpty

/-- Whether a walk can still go on after what it has done. -/
def GoesOn (s : Settings) (past : List Deed) : Prop := s.recursive = true ∨ past = []

theorem GoesOn.append {s : Settings} {past deeds : List Deed} (h : GoesOn s past)
    (hdeeds : isOver s deeds = false) : GoesOn s (past ++ deeds) := by
  rcases h with hrec | rfl
  · exact .inl hrec
  · cases hrec : s.recursive with
    | true => exact .inl hrec
    | false => exact .inr (by simpa [isOver, hrec] using hdeeds)

theorem inTurn_of_isOver {s : Settings} {first : List Deed} (h : isOver s first = true)
    (later : List Deed) : inTurn s first later = first := by
  simp only [isOver, Bool.and_eq_true, Bool.not_eq_true', List.isEmpty_eq_false_iff] at h
  exact inTurn_of_ne_nil h.1 h.2 later

theorem inTurn_of_not_isOver {s : Settings} {first : List Deed} (h : isOver s first = false)
    (later : List Deed) : inTurn s first later = first ++ later := by
  refine if_pos ?_
  cases hrec : s.recursive with
  | true => rfl
  | false => simpa [isOver, hrec] using h

theorem isOver_append {s : Settings} {first : List Deed} (h : isOver s first = false)
    (later : List Deed) : isOver s (first ++ later) = isOver s later := by
  cases hrec : s.recursive with
  | true => simp [isOver, hrec]
  | false =>
    obtain rfl : first = [] := by simpa [isOver, hrec] using h
    rfl

section Performs

variable {α β : Type} {inv failed : List Deed → World → Prop} {past deeds more : List Deed}
  {w : World}

/-- What holds of an outcome: one thing where a run returns, another one where it stops. -/
inductive Ends (post : α → World → Prop) (err : World → Prop) :
    EStateM.Result SiteError World α → Prop where
  | ok {a : α} {w : World} (h : post a w) : Ends post err (.ok a w)
  | error {e : SiteError} {w : World} (h : err w) : Ends post err (.error e w)

theorem Ends.mono {post post' : α → World → Prop} {err err' : World → Prop}
    {r : EStateM.Result SiteError World α} (h : Ends post err r)
    (hpost : ∀ a w, post a w → post' a w) (herr : ∀ w, err w → err' w) : Ends post' err' r := by
  cases h with
  | ok h => exact .ok (hpost _ _ h)
  | error h => exact .error (herr _ h)

theorem Ends.and {post post' : α → World → Prop} {err err' : World → Prop}
    {r : EStateM.Result SiteError World α} (h : Ends post err r) (h' : Ends post' err' r) :
    Ends (fun a w => post a w ∧ post' a w) (fun w => err w ∧ err' w) r := by
  cases h with
  | ok h =>
    cases h' with
    | ok h' => exact .ok ⟨h, h'⟩
  | error h =>
    cases h' with
    | error h' => exact .error ⟨h, h'⟩

theorem Ends.bind {post : α → World → Prop} {post' : β → World → Prop} {err : World → Prop}
    {r : Run α} {f : α → Run β} (h : Ends post err (r w))
    (hf : ∀ a w', post a w' → Ends post' err (f a w')) : Ends post' err ((r >>= f) w) := by
  simp only [Bind.bind, EStateM.bind]
  cases hr : r w with
  | ok a w' =>
    rw [hr] at h
    cases h with
    | ok h => exact hf a w' h
  | error e w' =>
    rw [hr] at h
    cases h with
    | error h => exact .error h

/-- A run, after some deeds, does others and gives a result, unless it stops on the way. -/
def Performs (inv failed : List Deed → World → Prop) (past : List Deed) (w : World)
    (x : Traced α) (deeds : List Deed) (a : α) : Prop :=
  ∀ steps : List Step, steps.map Step.deed = past →
    match x (w, steps) with
    | .ok a' (w', steps') =>
      a' = a ∧ steps'.map Step.deed = past ++ deeds ∧ inv (past ++ deeds) w'
    | .error _ (w', steps') =>
      ∃ done, done <+: deeds ∧ steps'.map Step.deed = past ++ done ∧ failed (past ++ done) w'

namespace Performs

theorem ret (h : inv past w) (a : α) : Performs inv failed past w (pure a) [] a := by
  intro steps hsteps
  refine ⟨rfl, ?_, ?_⟩
  · rw [List.append_nil]
    exact hsteps
  · rw [List.append_nil]
    exact h

theorem seq {x : Traced α} {f : α → Traced β} {a : α} {b : β}
    (hx : Performs inv failed past w x deeds a)
    (hf : ∀ w', inv (past ++ deeds) w' → Performs inv failed (past ++ deeds) w' (f a) more b) :
    Performs inv failed past w (x >>= f) (deeds ++ more) b := by
  intro steps hsteps
  have hx := hx steps hsteps
  simp only [bind, EStateM.bind]
  cases hr : x (w, steps) with
  | error e ws =>
    rw [hr] at hx
    obtain ⟨done, hdone, hmap, hfailed⟩ := hx
    exact ⟨done, hdone.trans (List.prefix_append deeds more), hmap, hfailed⟩
  | ok a' ws =>
    rw [hr] at hx
    obtain ⟨rfl, hmap, hinv⟩ := hx
    have hf := hf ws.1 hinv ws.2 hmap
    dsimp only
    rw [← List.append_assoc]
    cases hr' : f a' ws with
    | ok b' ws' =>
      rw [hr'] at hf
      exact hf
    | error e ws' =>
      rw [hr'] at hf
      obtain ⟨done, hdone, hmap', hfailed⟩ := hf
      refine ⟨deeds ++ done, (List.prefix_append_right_inj deeds).mpr hdone, ?_, ?_⟩
      · rw [← List.append_assoc]
        exact hmap'
      · rw [← List.append_assoc]
        exact hfailed

/-- The same where the second run does nothing. -/
theorem thenNothing {x : Traced α} {f : α → Traced β} {a : α} {b : β}
    (hx : Performs inv failed past w x deeds a)
    (hf : ∀ w', inv (past ++ deeds) w' → Performs inv failed (past ++ deeds) w' (f a) [] b) :
    Performs inv failed past w (x >>= f) deeds b := by
  have hboth := seq hx hf
  rwa [List.append_nil] at hboth

theorem look {f : World → Traced α} {a : α} (h : Performs inv failed past w (f w) deeds a) :
    Performs inv failed past w (getThe World >>= f) deeds a := h

/-- A deed is noted before it is done. -/
theorem noted {step : Step} {r : Run Unit}
    (h : Ends (fun _ => inv (past ++ [step.deed])) (failed (past ++ [step.deed])) (r w)) :
    Performs inv failed past w (note step >>= fun _ => silently r) [step.deed] () := by
  intro steps hsteps
  have hmap : (steps ++ [step]).map Step.deed = past ++ [step.deed] := by
    rw [List.map_append, hsteps, List.map_singleton]
  simp only [bind, EStateM.bind, note, silently]
  cases hr : r w with
  | ok a w' =>
    rw [hr] at h
    cases h with
    | ok h => exact ⟨trivial, hmap, h⟩
  | error e w' =>
    rw [hr] at h
    cases h with
    | error h => exact ⟨[step.deed], List.prefix_refl _, hmap, h⟩

theorem each {xs : List α} {f : α → Traced Unit} {deed : α → Deed} (hpast : past ≠ [])
    (h : ∀ x ∈ xs, ∀ past w, past ≠ [] → inv past w →
      Performs inv failed past w (f x) [deed x] ()) (hinv : inv past w) :
    Performs inv failed past w (xs.forM f) (xs.map deed) () := by
  induction xs generalizing past w with
  | nil => exact ret hinv ()
  | cons x xs ih =>
    refine seq (h x List.mem_cons_self past w hpast hinv) fun w' hinv' => ?_
    exact ih (by simp) (fun y hy => h y (List.mem_cons_of_mem x hy)) hinv'

end Performs

end Performs

/-- What is run for a deed. -/
def Deed.run (index : String → List String → List String → Run Unit) (document : String → Run Unit)
    (deed : Deed) : Run Unit :=
  match deed.act with
  | .index folders files => index deed.folder folders files
  | .document path => document path

/-- What holds along a walk and is kept by each of its deeds: as long as the walk can go on it
still sees the tree, and a file is documented only after an index has been made. -/
structure Carries (s : Settings) (excluded : String → Bool) (w : World) (root : String)
    (index : String → List String → List String → Run Unit) (document : String → Run Unit)
    (inv failed : List Deed → World → Prop) : Prop where
  start : inv [] w
  sees : ∀ past w', inv past w' → GoesOn s past → Sees root w w'
  does : ∀ ns folders files, Reached s excluded w root ns →
    w.listing? (Path.below root ns) = some (folders, files) →
    ∀ deed ∈ visitDeeds s excluded w (Path.below root ns) folders files,
    ∀ past w', inv past w' → ((∃ path, deed.act = .document path) → past ≠ []) →
      Ends (fun _ => inv (past ++ [deed])) (failed (past ++ [deed])) (deed.run index document w')

section Walks

variable {s : Settings} {excluded : String → Bool} {w w' : World} {root : String}
  {index : String → List String → List String → Run Unit} {document : String → Run Unit}
  {inv failed : List Deed → World → Prop} {past : List Deed} {ns folders files : List String}

/-- More can be carried along, if each deed keeps it where the rest holds. -/
theorem Carries.and {inv' failed' : List Deed → World → Prop}
    (h : Carries s excluded w root index document inv failed) (hstart : inv' [] w)
    (hdoes : ∀ ns folders files, Reached s excluded w root ns →
      w.listing? (Path.below root ns) = some (folders, files) →
      ∀ deed ∈ visitDeeds s excluded w (Path.below root ns) folders files,
      ∀ past w', inv past w' → inv' past w' →
        Ends (fun _ => inv' (past ++ [deed])) (failed' (past ++ [deed]))
          (deed.run index document w')) :
    Carries s excluded w root index document (fun past w' => inv past w' ∧ inv' past w')
      (fun past w' => failed past w' ∧ failed' past w') where
  start := ⟨h.start, hstart⟩
  sees past w' hinv := h.sees past w' hinv.1
  does ns folders files hreached hlisting deed hdeed past w' hinv hpast :=
    (h.does ns folders files hreached hlisting deed hdeed past w' hinv.1 hpast).and
      (hdoes ns folders files hreached hlisting deed hdeed past w' hinv.1 hinv.2)

theorem keptFolders_congr (hw : w.Sound) (hsees : Sees root w w')
    (hns : ∀ name ∈ ns, Path.IsName name)
    (hlisting : w.listing? (Path.below root ns) = some (folders, files)) :
    keptFolders s excluded w' (Path.below root ns) folders =
      keptFolders s excluded w (Path.below root ns) folders := by
  unfold keptFolders
  dsimp only
  split
  · refine List.filter_congr fun name hname => ?_
    have hvalid := (hw.listing? hlisting).1.2 name ((prune_sublist _ _).subset hname)
    rw [← Path.below_concat]
    exact hsees.holdsCMake (ns ++ [name]) (Path.isName_concat hns hvalid)
  · rfl

/-- A visit does what it is to do by the listing of its folder. -/
theorem performs_visit (hw : w.Sound) (h : Carries s excluded w root index document inv failed)
    (hreached : Reached s excluded w root ns)
    (hlisting : w.listing? (Path.below root ns) = some (folders, files))
    (hgo : GoesOn s past) (hinv : inv past w') :
    Performs inv failed past w'
      (tracedVisit s excluded index document (Path.below root ns) folders files)
      (visitDeeds s excluded w (Path.below root ns) folders files)
      ⟨keptFolders s excluded w (Path.below root ns) folders,
        isOver s (visitDeeds s excluded w (Path.below root ns) folders files)⟩ := by
  have hdoes := h.does ns folders files hreached hlisting
  refine Performs.look ?_
  rw [visit_eq]
  refine Performs.look ?_
  rw [keptFolders_congr hw (h.sees past w' hinv hgo) (hreached.isName hw) hlisting]
  by_cases hskip : (s.autoExclude &&
      !(keptFiles excluded (Path.below root ns) files).any endsInSmallCMake) = true
  · have hnone : visitDeeds s excluded w (Path.below root ns) folders files = [] := if_pos hskip
    rw [if_pos hskip, hnone]
    have hover : isOver s [] = false := Bool.and_false _
    rw [hover]
    exact Performs.ret hinv _
  · have hdeeds : visitDeeds s excluded w (Path.below root ns) folders files = _ :=
      if_neg hskip
    have hover : isOver s (visitDeeds s excluded w (Path.below root ns) folders files) =
        !s.recursive := by
      rw [hdeeds]
      exact Bool.and_true _
    rw [if_neg hskip, hover]
    rw [hdeeds] at hdoes ⊢
    -- The index comes first, and each file after it finds that something has been done.
    refine Performs.seq (Performs.noted (hdoes _ List.mem_cons_self past w' hinv ?_))
      fun w₁ hinv₁ => ?_
    · rintro ⟨path, hpath⟩
      cases hpath
    · refine Performs.thenNothing (Performs.each (by simp) ?_ hinv₁) fun w₂ hinv₂ =>
        Performs.ret hinv₂ _
      intro name hname past' w'' hpast' hinv'
      refine Performs.noted (hdoes _ ?_ past' w'' hinv' fun _ => hpast')
      exact List.mem_cons_of_mem _ (List.mem_map_of_mem hname)

theorem performs_walkAll {enter : String → Traced Bool} {deedsOf : String → List Deed}
    {names : List String}
    (henter : ∀ name ∈ names, ∀ past w', GoesOn s past → inv past w' →
      Performs inv failed past w' (enter name) (deedsOf name) (isOver s (deedsOf name)))
    (hgo : GoesOn s past) (hinv : inv past w') :
    Performs inv failed past w' (walkAll enter names) (courseAll s deedsOf names)
      (isOver s (courseAll s deedsOf names)) := by
  induction names generalizing past w' with
  | nil =>
    have hover : isOver s [] = false := Bool.and_false _
    rw [courseAll, hover]
    exact Performs.ret hinv false
  | cons name rest ih =>
    have hfirst := henter name List.mem_cons_self past w' hgo hinv
    have hlater := fun other hother => henter other (List.mem_cons_of_mem name hother)
    rw [courseAll]
    cases hover : isOver s (deedsOf name) with
    | true =>
      rw [hover] at hfirst
      rw [inTurn_of_isOver hover, hover]
      exact Performs.thenNothing hfirst fun w'' hinv' => Performs.ret hinv' true
    | false =>
      rw [hover] at hfirst
      rw [inTurn_of_not_isOver hover, isOver_append hover]
      exact Performs.seq hfirst fun w'' hinv' => ih hlater (hgo.append hover) hinv'

theorem performs_walk (hw : w.Sound) (h : Carries s excluded w root index document inv failed)
    (depth : Nat) (hreached : Reached s excluded w root ns) (hgo : GoesOn s past)
    (hinv : inv past w') :
    Performs inv failed past w'
      (walk s (tracedVisit s excluded index document) depth (Path.below root ns))
      (course s excluded w depth (Path.below root ns))
      (isOver s (course s excluded w depth (Path.below root ns))) := by
  have hnothing : isOver s [] = false := Bool.and_false _
  induction depth generalizing ns past w' with
  | zero =>
    rw [course_zero, hnothing]
    exact Performs.ret hinv false
  | succ depth ih =>
    have hnames := hreached.isName hw
    refine Performs.look ?_
    rw [(h.sees past w' hinv hgo).listing ns hnames]
    cases hlisting : w.listing? (Path.below root ns) with
    | none =>
      rw [course_of_none hlisting, hnothing]
      exact Performs.ret hinv false
    | some listing =>
      obtain ⟨folders, files⟩ := listing
      have hvisit := performs_visit hw h hreached hlisting hgo hinv
      rw [course_succ hlisting]
      cases hover : isOver s (visitDeeds s excluded w (Path.below root ns) folders files) with
      | true =>
        rw [hover] at hvisit
        rw [inTurn_of_isOver hover, hover]
        exact Performs.thenNothing hvisit fun w₁ hinv₁ => Performs.ret hinv₁ true
      | false =>
        rw [hover] at hvisit
        rw [inTurn_of_not_isOver hover, isOver_append hover]
        refine Performs.seq hvisit fun w₁ hinv₁ => ?_
        refine performs_walkAll (fun name hname past' w₂ hgo' hinv' => ?_) (hgo.append hover) hinv₁
        have hvalid := isName_of_mem_keptFolders hw hlisting hname
        have hlink := (h.sees past' w₂ hinv' hgo').isLink (ns ++ [name])
          (Path.isName_concat hnames hvalid)
        rw [Path.below_concat] at hlink
        refine Performs.look ?_
        rw [courseInto, hlink]
        by_cases hskip : (!s.followLinks && w.isLink (Path.join (Path.below root ns) name)) = true
        · rw [if_pos hskip, if_pos hskip, hnothing]
          exact Performs.ret hinv' false
        · have hsub := hreached.enter hlisting hname hskip
          rw [if_neg hskip, if_neg hskip, ← Path.below_concat]
          exact ih hsub hgo' hinv'

end Walks

variable {s : Settings} {excluded : String → Bool} {w : World} {input root : String}
  {document : Value → String → String → Run Unit} {inv failed : List Deed → World → Prop}

/-- Documenting a folder follows the course through it. -/
theorem performs_folder (hw : w.Sound)
    (h : Carries s excluded w root (putIndex s (rootNameFor s input) root)
      (document (rootNameFor s input) root) inv failed) :
    Performs inv failed [] w (tracedFolder s excluded document input root)
      (fullCourse s excluded w root) () := by
  refine Performs.look ?_
  have hwalk := performs_walk hw h (walkDepth w) .root (.inr rfl) h.start
  exact Performs.thenNothing hwalk fun w' hinv' => Performs.ret hinv' ()

/-- What documenting a folder does, and what it leads to. -/
theorem stepsIn_of_carries (hw : w.Sound) (document : Value → String → String → Run Unit)
    (input : String) (h : Carries s excluded w root (putIndex s (rootNameFor s input) root)
      (document (rootNameFor s input) root) inv failed) :
    Ends
      (fun _ w' =>
        (stepsIn s excluded document input root w).map Step.deed = fullCourse s excluded w root ∧
          inv (fullCourse s excluded w root) w')
      (fun w' =>
        (stepsIn s excluded document input root w).map Step.deed <+:
            fullCourse s excluded w root ∧
          failed ((stepsIn s excluded document input root w).map Step.deed) w')
      (documentFolder s excluded document input root w) := by
  have hperforms := performs_folder hw h [] rfl
  rw [← (traces_folder w).1, stepsIn]
  cases hr : tracedFolder s excluded document input root (w, []) with
  | ok a ws =>
    rw [hr] at hperforms
    exact .ok hperforms.2
  | error e ws =>
    rw [hr] at hperforms
    obtain ⟨done, hdone, hmap, hfailed⟩ := hperforms
    rw [List.nil_append] at hmap hfailed
    refine .error ⟨?_, ?_⟩
    · rw [traceOf, hmap]
      exact hdone
    · rw [traceOf, hmap]
      exact hfailed

end CMakeDocs.Site
