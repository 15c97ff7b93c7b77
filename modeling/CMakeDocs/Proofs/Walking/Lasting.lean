import CMakeDocs.Proofs.Walking.Writing

/-!
# What lasts through a walk

Wherever a walk writes its pages, it takes nothing away: the surroundings stay sound, and a folder
stays a folder. So each step of a walk is taken in sound surroundings, in a folder below the root,
even where the pages that it writes change what it sees. A walk is its deeds in turn, and what each
of them does is all that the walk does.
-/
namespace CMakeDocs.Site

variable {s : Settings} {excluded : String → Bool} {w w' w'' : World} {root : String}
  {ns folders files : List String}

/-- Surroundings that have grown out of others. -/
structure Lasts (w w' : World) : Prop where
  current : w'.current = w.current
  order : w'.order = w.order
  files : FileTree.Grown w.place w.files w'.files

namespace Lasts

theorem place (h : Lasts w w') : w'.place = w.place := by
  rw [World.place, World.place, h.current]

theorem refl (hw : w.Sound) : Lasts w w := ⟨rfl, rfl, .refl hw.orderly⟩

theorem trans (h : Lasts w w') (h' : Lasts w' w'') : Lasts w w'' where
  current := h'.current.trans h.current
  order := h'.order.trans h.order
  files := by
    have hfiles := h'.files
    rw [h.place] at hfiles
    exact h.files.trans hfiles

theorem sound (h : Lasts w w') (hw : w.Sound) : w'.Sound where
  current_absolute := by rw [h.current]; exact hw.current_absolute
  orderly := by rw [h.place]; exact h.files.orderly
  named := h.files.named hw.named
  distinct := h.files.distinct hw.distinct
  order_perm := by rw [h.order]; exact hw.order_perm

theorem isFolder (h : Lasts w w') {path : String} (hfolder : w.isFolder path = true) :
    w'.isFolder path = true := by
  rw [World.isFolder, h.place]
  exact FileTree.isFolder_extends h.files.extends' hfolder

end Lasts

theorem Told.lasts (h : Told w w') (hw : w.Sound) : Lasts w w' := by
  obtain ⟨events, -, rfl⟩ := h
  exact ⟨rfl, rfl, .refl hw.orderly⟩

section Steps

variable {α β : Type}

/-- A step that takes nothing away from sound surroundings. -/
def Spares (r : Run α) : Prop :=
  ∀ w, w.Sound → Ends (fun _ w' => Lasts w w') (fun w' => Lasts w w') (r w)

theorem Tells.spares {r : Run α} (h : Tells r) : Spares r :=
  fun w hw => (h w).mono (fun _ _ htold => htold.lasts hw) fun _ htold => htold.lasts hw

theorem Spares.bind {r : Run α} {f : α → Run β} (hr : Spares r) (hf : ∀ a, Spares (f a)) :
    Spares (r >>= f) := by
  intro w hw
  refine Ends.bind (hr w hw) fun a w' hlasts => ?_
  exact (hf a w' (hlasts.sound hw)).mono (fun _ _ h => hlasts.trans h) fun _ h => hlasts.trans h

theorem Spares.look {f : World → Run α} (h : ∀ w, Spares (f w)) : Spares (get >>= f) :=
  fun w hw => Ends.get (h w w hw)

theorem spares_makeFolders (path : String) : Spares (makeFolders path) := by
  intro w hw
  have hlasts : Lasts w { w with files := (w.files.makeFolders w.place path).1 } :=
    ⟨rfl, rfl, FileTree.makeFolders_grown hw.orderly path⟩
  exact (ends_makeFolders path w).mono (fun _ _ h => h ▸ hlasts) fun _ h => h ▸ hlasts

theorem spares_write (path text : String) : Spares (write path text) := by
  intro w hw
  cases htarget : Rst.targetPath (.text path) with
  | error e =>
    unfold write
    rw [htarget]
    exact .error (.refl hw)
  | ok target =>
    have hlasts : Lasts w { w.happen [.write target text] with
        files := (w.files.save w.place target text).1 } :=
      ⟨rfl, rfl, FileTree.save_grown hw.orderly target text⟩
    exact (ends_save htarget text w).mono (fun _ _ h => h.1 ▸ hlasts) fun _ h => h ▸ hlasts

theorem quiet_outputFolder (s : Settings) : Quiet (outputFolder s) := by
  intro w
  unfold outputFolder
  cases s.outputFolder with
  | null => exact .ok rfl
  | text path => exact .ok rfl
  | _ => exact .error rfl

theorem spares_putIndex (s : Settings) (rootName : Value) (root folder : String)
    (folders files : List String) : Spares (putIndex s rootName root folder folders files) := by
  unfold putIndex
  refine (quiet_outputFolder s).tells.spares.bind fun output => ?_
  cases output with
  | none => exact fun w hw => .ok (.refl hw)
  | some output =>
    unfold writeIndex
    refine Spares.look fun w => ?_
    refine (spares_makeFolders _).bind fun _ => ?_
    refine (quiet_headingFor s _).tells.spares.bind fun _ => ?_
    refine (quiet_qualified s _ _).tells.spares.bind fun title => ?_
    refine (quiet_headingFor s _).tells.spares.bind fun heading => ?_
    exact spares_write _ _

theorem spares_documentFile (s : Settings) (rootName : Value) (root file : String) :
    Spares (documentFile s rootName root file) := by
  unfold documentFile
  refine Spares.look fun w => ?_
  refine (quiet_qualified s _ _).tells.spares.bind fun name => ?_
  refine (quiet_shownName _ _).tells.spares.bind fun title => ?_
  refine (quiet_shownName _ _).tells.spares.bind fun moduleName => ?_
  refine (quiet_outputFolder s).tells.spares.bind fun output => ?_
  cases output with
  | none =>
    refine (tells_pageText s file title moduleName).spares.bind fun text => ?_
    exact (tells_happen (by simp)).spares
  | some output =>
    refine (tells_happen (by simp)).spares.bind fun _ => ?_
    refine (tells_pageText s file title moduleName).spares.bind fun text => ?_
    refine (spares_makeFolders output).bind fun _ => ?_
    refine Spares.look fun w' => ?_
    split
    · refine (tells_happen (by simp)).spares.bind fun _ => ?_
      exact spares_write _ _
    · exact fun w hw => .ok (.refl hw)

theorem spares_deed (s : Settings) (rootName : Value) (root : String) (deed : Deed) :
    Spares (deed.run (putIndex s rootName root) (documentFile s rootName root)) := by
  obtain ⟨folder, act⟩ := deed
  cases act with
  | index folders files => exact spares_putIndex s rootName root folder folders files
  | document path => exact spares_documentFile s rootName root path

end Steps

section Walks

variable {α β : Type} {inv : List Deed → World → Prop} {post : α → Prop}
  {index : String → List String → List String → Run Unit} {document : String → Run Unit}

/-- From some surroundings on, what holds after the deeds of a trace still holds at the end of a
run. -/
def Keeps (inv : List Deed → World → Prop) (post : α → Prop) (w : World) (x : Traced α) : Prop :=
  ∀ steps : List Step, inv (steps.map Step.deed) w →
    match x (w, steps) with
    | .ok a (w', steps') => post a ∧ inv (steps'.map Step.deed) w'
    | .error _ (w', steps') => inv (steps'.map Step.deed) w'

namespace Keeps

theorem ret {a : α} (h : post a) (w : World) : Keeps inv post w (pure a) :=
  fun _ hinv => ⟨h, hinv⟩

theorem seq {x : Traced α} {f : α → Traced β} {post' : β → Prop} (hx : Keeps inv post w x)
    (hf : ∀ a w', post a → Keeps inv post' w' (f a)) : Keeps inv post' w (x >>= f) := by
  intro steps hinv
  have hx := hx steps hinv
  simp only [bind, EStateM.bind]
  cases hr : x (w, steps) with
  | error e ws =>
    rw [hr] at hx
    exact hx
  | ok a ws =>
    rw [hr] at hx
    exact hf a ws.1 hx.1 ws.2 hx.2

theorem look {f : World → Traced α} (h : Keeps inv post w (f w)) :
    Keeps inv post w (getThe World >>= f) := h

/-- What holds at the start can be made use of. -/
theorem knowing {x : Traced α} (h : ∀ past, inv past w → Keeps inv post w x) :
    Keeps inv post w x := fun steps hinv => h _ hinv steps hinv

theorem noted {step : Step} {r : Run Unit}
    (h : ∀ past, inv past w →
      Ends (fun _ => inv (past ++ [step.deed])) (inv (past ++ [step.deed])) (r w)) :
    Keeps inv (fun _ => True) w (note step >>= fun _ => silently r) := by
  intro steps hinv
  have hmap : (steps ++ [step]).map Step.deed = steps.map Step.deed ++ [step.deed] := by
    rw [List.map_append, List.map_singleton]
  have hends := h _ hinv
  rw [← hmap] at hends
  simp only [bind, EStateM.bind, note, silently]
  cases hr : r w with
  | ok a w' =>
    rw [hr] at hends
    cases hends with
    | ok h => exact ⟨trivial, h⟩
  | error e w' =>
    rw [hr] at hends
    cases hends with
    | error h => exact h

theorem each {xs : List α} {f : α → Traced Unit}
    (h : ∀ x ∈ xs, ∀ w, Keeps inv (fun _ => True) w (f x)) (w : World) :
    Keeps inv (fun _ => True) w (xs.forM f) := by
  induction xs generalizing w with
  | nil => exact ret trivial w
  | cons x xs ih =>
    refine seq (h x List.mem_cons_self w) fun _ w' _ => ?_
    exact ih (fun y hy => h y (List.mem_cons_of_mem x hy)) w'

end Keeps

/-- What holds in sound surroundings only, and is kept by each deed in a folder below a root. -/
structure KeptBelow (root : String) (index : String → List String → List String → Run Unit)
    (document : String → Run Unit) (inv : List Deed → World → Prop) : Prop where
  sound : ∀ past w, inv past w → w.Sound
  does : ∀ ns deed, (∀ part ∈ ns, Path.IsName part) → Deed.At root ns deed →
    ∀ past w, inv past w →
      Ends (fun _ => inv (past ++ [deed])) (inv (past ++ [deed])) (deed.run index document w)

theorem keeps_visit (h : KeptBelow root index document inv)
    (hns : ∀ part ∈ ns, Path.IsName part)
    (hlisting : w.listing? (Path.below root ns) = some (folders, files)) :
    Keeps inv (fun v => ∀ name ∈ v.folders, Path.IsName name) w
      (tracedVisit s excluded index document (Path.below root ns) folders files) := by
  refine Keeps.knowing fun past hinv => ?_
  have hw := h.sound past w hinv
  have hfolders : ∀ name ∈ keptFolders s excluded w (Path.below root ns) folders,
      Path.IsName name := fun _ hname => isName_of_mem_keptFolders hw hlisting hname
  refine Keeps.look ?_
  rw [visit_eq]
  refine Keeps.look ?_
  split
  · exact Keeps.ret hfolders w
  · have hindex : Deed.At root ns ⟨Path.below root ns, .index
        (Text.sort (keptFolders s excluded w (Path.below root ns) folders))
        (Text.sort (keptFiles excluded (Path.below root ns) files))⟩ :=
      ⟨rfl, fun path hpath => by cases hpath⟩
    refine Keeps.seq (Keeps.noted fun past => h.does ns _ hns hindex past w) fun _ w₁ _ => ?_
    refine Keeps.seq (Keeps.each (fun name hname w' => ?_) w₁) fun _ w₂ _ => Keeps.ret hfolders w₂
    have hkept := (Text.sort_perm _).mem_iff.mp (List.mem_filter.mp hname).1
    have hdocument : Deed.At root ns ⟨Path.below root ns,
        .document (Path.join (Path.below root ns) name)⟩ := by
      refine ⟨rfl, fun path hpath => ?_⟩
      cases hpath
      exact ⟨name, isName_of_mem_keptFiles hw hlisting hkept, (Path.below_concat ..).symm⟩
    exact Keeps.noted fun past => h.does ns _ hns hdocument past w'

theorem keeps_walkAll {enter : String → Traced Bool} {names : List String}
    (h : ∀ name ∈ names, ∀ w, Keeps inv (fun _ => True) w (enter name)) (w : World) :
    Keeps inv (fun _ => True) w (walkAll enter names) := by
  induction names generalizing w with
  | nil => exact Keeps.ret trivial w
  | cons name rest ih =>
    refine Keeps.seq (h name List.mem_cons_self w) fun isOver w' _ => ?_
    cases isOver with
    | true => exact Keeps.ret trivial w'
    | false => exact ih (fun other hother => h other (List.mem_cons_of_mem name hother)) w'

theorem keeps_walk (h : KeptBelow root index document inv) (depth : Nat)
    (hns : ∀ part ∈ ns, Path.IsName part) (w : World) :
    Keeps inv (fun _ => True) w
      (walk s (tracedVisit s excluded index document) depth (Path.below root ns)) := by
  induction depth generalizing ns w with
  | zero => exact Keeps.ret trivial w
  | succ depth ih =>
    refine Keeps.look ?_
    cases hlisting : w.listing? (Path.below root ns) with
    | none => exact Keeps.ret trivial w
    | some listing =>
      obtain ⟨folders, files⟩ := listing
      refine Keeps.seq (keeps_visit h hns hlisting) fun v w' hfolders => ?_
      cases hlast : v.isLast with
      | true => exact Keeps.ret trivial w'
      | false =>
        refine keeps_walkAll (fun name hname w'' => Keeps.look ?_) w'
        split
        · exact Keeps.ret trivial w''
        · rw [← Path.below_concat]
          exact ih (Path.isName_concat hns (hfolders name hname)) w''

end Walks

/-- From surroundings to others by some deeds, one after the other. -/
inductive InTurn (does : Deed → World → World → Prop) (w : World) : List Deed → World → Prop where
  | nil : InTurn does w [] w
  | snoc {past : List Deed} {deed : Deed} {w' w'' : World} (h : InTurn does w past w')
      (hdeed : does deed w' w'') : InTurn does w (past ++ [deed]) w''

variable {does : Deed → World → World → Prop}

/-- Documenting a folder is doing the deeds of its trace in turn, each of them in sound surroundings
in which the root is a folder. -/
theorem inTurn_of_folder (hw : w.Sound) (hfolder : w.isFolder root = true)
    (excluded : String → Bool) (input : String)
    (hdoes : ∀ ns deed, (∀ part ∈ ns, Path.IsName part) → Deed.At root ns deed →
      ∀ w', w'.Sound → w'.isFolder root = true →
        Ends (fun _ => does deed w') (does deed w')
          (deed.run (putIndex s (rootNameFor s input) root)
            (documentFile s (rootNameFor s input) root) w')) :
    Ends
      (fun _ => InTurn does w ((stepsIn s excluded (documentFile s) input root w).map Step.deed))
      (InTurn does w ((stepsIn s excluded (documentFile s) input root w).map Step.deed))
      (documentFolder s excluded (documentFile s) input root w) := by
  have hkept : KeptBelow root (putIndex s (rootNameFor s input) root)
      (documentFile s (rootNameFor s input) root)
      (fun past w' => InTurn does w past w' ∧ Lasts w w') := by
    refine ⟨fun past w' hinv => hinv.2.sound hw, fun ns deed hns hat past w' hinv => ?_⟩
    obtain ⟨hturn, hlasts⟩ := hinv
    have hw' := hlasts.sound hw
    refine ((hdoes ns deed hns hat w' hw' (hlasts.isFolder hfolder)).and
      (spares_deed s _ root deed w' hw')).mono ?_ ?_
    · exact fun _ w'' h => ⟨hturn.snoc h.1, hlasts.trans h.2⟩
    · exact fun w'' h => ⟨hturn.snoc h.1, hlasts.trans h.2⟩
  have hnone : ∀ part ∈ ([] : List String), Path.IsName part := by simp
  have hkeeps : Keeps (fun past w' => InTurn does w past w' ∧ Lasts w w') (fun _ => True) w
      (tracedFolder s excluded (documentFile s) input root) :=
    Keeps.look (Keeps.seq (keeps_walk hkept _ hnone w) fun _ w' _ => Keeps.ret trivial w')
  have hend := hkeeps [] ⟨.nil, .refl hw⟩
  rw [← (traces_folder w).1, stepsIn]
  cases hr : tracedFolder s excluded (documentFile s) input root (w, []) with
  | ok a ws =>
    rw [hr] at hend
    exact .ok hend.2.1
  | error e ws =>
    rw [hr] at hend
    exact .error hend.1

end CMakeDocs.Site
