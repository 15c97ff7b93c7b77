import CMakeDocs.Site

/-!
# Walks with a trace

What a walk does with an index and with a file is handed to it, and it does not depend on how steps
are taken. So a walk can keep a trace of what it does while it does it. Without the trace it is the
same run, an error included; what was done before the error stays in the trace.
-/
namespace CMakeDocs.Site

/-- What a walk does in a folder: it makes an index of folders and files, which is written if there
is a folder for the pages, or it documents a file. -/
inductive Act where
  | index (folders files : List String)
  | document (path : String)
deriving DecidableEq, Repr

/-- Something that a walk does in a folder, with the surroundings that it entered the folder in. -/
structure Step where
  world : World
  folder : String
  act : Act

/-- A step of a run that keeps a trace. -/
abbrev Traced := EStateM SiteError (World × List Step)

instance : MonadStateOf World Traced where
  get := fun (w, steps) => .ok w (w, steps)
  set := fun w (_, steps) => .ok ⟨⟩ (w, steps)
  modifyGet := fun f (w, steps) => .ok (f w).1 ((f w).2, steps)

variable {α β : Type} {w : World} {good : Step → Prop}

/-- An outcome with a trace. -/
def withTrace (steps : List Step) :
    EStateM.Result SiteError World α → EStateM.Result SiteError (World × List Step) α
  | .ok a w => .ok a (w, steps)
  | .error e w => .error e (w, steps)

/-- An outcome without its trace. -/
def untraced : EStateM.Result SiteError (World × List Step) α → EStateM.Result SiteError World α
  | .ok a (w, _) => .ok a w
  | .error e (w, _) => .error e w

/-- The trace of an outcome. -/
def traceOf : EStateM.Result SiteError (World × List Step) α → List Step
  | .ok _ (_, steps) => steps
  | .error _ (_, steps) => steps

theorem untraced_withTrace (steps : List Step) (r : EStateM.Result SiteError World α) :
    untraced (withTrace steps r) = r := by
  cases r <;> rfl

theorem traceOf_withTrace (steps : List Step) (r : EStateM.Result SiteError World α) :
    traceOf (withTrace steps r) = steps := by
  cases r <;> rfl

def note (step : Step) : Traced Unit := fun (w, steps) => .ok () (w, steps ++ [step])

/-- A run as a step that leaves no trace. -/
def silently (r : Run α) : Traced α := fun (w, steps) => withTrace steps (r w)

/-- From some surroundings on, a run that keeps a trace does what the run does, and adds good steps
to the trace. -/
def Traces (good : Step → Prop) (w : World) (x : Traced α) (r : Run α) : Prop :=
  ∀ steps, ∃ more, (∀ step ∈ more, good step) ∧ x (w, steps) = withTrace (steps ++ more) (r w)

namespace Traces

theorem ret (good : Step → Prop) (w : World) (a : α) :
    Traces good w (pure a : Traced α) (pure a : Run α) := by
  intro steps
  refine ⟨[], by simp, ?_⟩
  rw [List.append_nil]
  rfl

/-- One thing after the other. -/
theorem seq {x : Traced α} {r : Run α} {f : α → Traced β} {g : α → Run β} (hx : Traces good w x r)
    (hf : ∀ a w', r w = .ok a w' → Traces good w' (f a) (g a)) :
    Traces good w (x >>= f) (r >>= g) := by
  intro steps
  obtain ⟨more, hmore, hx⟩ := hx steps
  simp only [bind, EStateM.bind, hx]
  cases hr : r w with
  | error e w' => exact ⟨more, hmore, rfl⟩
  | ok a w' =>
    obtain ⟨later, hlater, hf⟩ := hf a w' hr (steps ++ more)
    refine ⟨more ++ later, ?_, ?_⟩
    · intro step hstep
      rcases List.mem_append.mp hstep with hstep | hstep
      · exact hmore step hstep
      · exact hlater step hstep
    · rw [← List.append_assoc]
      exact hf

/-- A look at the surroundings. -/
theorem look {f : World → Traced α} {g : World → Run α} (h : Traces good w (f w) (g w)) :
    Traces good w (getThe World >>= f) (getThe World >>= g) := h

/-- A look for the sake of the trace. -/
theorem glance {f : World → Traced α} {r : Run α} (h : Traces good w (f w) r) :
    Traces good w (getThe World >>= f) r := h

/-- A step is noted before it is taken. -/
theorem noted {step : Step} {r : Run α} (h : good step) :
    Traces good w (note step >>= fun _ => silently r) r := by
  intro steps
  refine ⟨[step], ?_, rfl⟩
  intro step' hstep
  rw [List.mem_singleton.mp hstep]
  exact h

theorem each {xs : List α} {f : α → Traced Unit} {g : α → Run Unit}
    (h : ∀ x ∈ xs, ∀ w, Traces good w (f x) (g x)) (w : World) :
    Traces good w (xs.forM f) (xs.forM g) := by
  induction xs generalizing w with
  | nil => exact ret good w ()
  | cons x xs ih =>
    refine seq (h x List.mem_cons_self w) fun _ w' _ => ?_
    exact ih (fun y hy => h y (List.mem_cons_of_mem x hy)) w'

end Traces

/-- A visit that notes what it does. -/
def tracedVisit (s : Settings) (excluded : String → Bool)
    (index : String → List String → List String → Run Unit) (document : String → Run Unit)
    (folder : String) (folders files : List String) : Traced Visit := do
  let w ← getThe World
  visit s excluded
    (fun folder folders files => do
      note ⟨w, folder, .index folders files⟩
      silently (index folder folders files))
    (fun path => do
      note ⟨w, folder, .document path⟩
      silently (document path))
    folder folders files

/-- Documents everything in a folder and keeps a trace of it. -/
def tracedFolder (s : Settings) (excluded : String → Bool)
    (document : Value → String → String → Run Unit) (input root : String) : Traced Unit :=
  let rootName := rootNameFor s input
  walkFolder s (tracedVisit s excluded (putIndex s rootName root) (document rootName root)) root

/-- What is done when everything in a folder is documented. -/
def stepsIn (s : Settings) (excluded : String → Bool)
    (document : Value → String → String → Run Unit) (input root : String) (w : World) : List Step :=
  traceOf (tracedFolder s excluded document input root (w, []))

def excludesFile (excluded : String → Bool) (folder name : String) : Bool :=
  excluded (Path.join folder name)

/-- A folder is excluded by its path with a slash at the end. -/
def excludesFolder (excluded : String → Bool) (folder name : String) : Bool :=
  excluded (Path.join folder (Path.join name ""))

/-- The folders in a folder that stay on its list. -/
def keptFolders (s : Settings) (excluded : String → Bool) (w : World) (folder : String)
    (folders : List String) : List String :=
  let kept := prune (excludesFolder excluded folder) folders
  if s.autoExclude then kept.filter fun name => holdsCMake w (Path.join folder name) else kept

/-- The files in a folder that stay on its list. -/
def keptFiles (excluded : String → Bool) (folder : String) (files : List String) : List String :=
  prune (excludesFile excluded folder) files

/-- A visit in the order of its steps. -/
theorem visit_eq {m : Type → Type} [Monad m] [MonadStateOf World m] (s : Settings)
    (excluded : String → Bool) (index : String → List String → List String → m Unit)
    (document : String → m Unit) (folder : String) (folders files : List String) :
    visit s excluded index document folder folders files =
      (getThe World >>= fun w =>
        if s.autoExclude && !(keptFiles excluded folder files).any endsInSmallCMake then
          pure ⟨keptFolders s excluded w folder folders, false⟩
        else
          index folder (Text.sort (keptFolders s excluded w folder folders))
              (Text.sort (keptFiles excluded folder files)) >>= fun _ =>
            ((Text.sort (keptFiles excluded folder files)).filter isCMakeName).forM
                (fun name => document (Path.join folder name)) >>= fun _ =>
              pure ⟨keptFolders s excluded w folder folders, !s.recursive⟩) := rfl

/-- What a visit to a folder can do, by what the folder lists. -/
inductive Act.Suits (s : Settings) (excluded : String → Bool) (w : World) (folder : String)
    (folders files : List String) : Act → Prop where
  | index : Suits s excluded w folder folders files
      (.index (Text.sort (keptFolders s excluded w folder folders))
        (Text.sort (keptFiles excluded folder files)))
  | document {name : String} (hname : name ∈ keptFiles excluded folder files)
      (hcmake : isCMakeName name = true) :
      Suits s excluded w folder folders files (.document (Path.join folder name))

/-- A step that goes by what its folder lists. -/
def Step.Listed (s : Settings) (excluded : String → Bool) (step : Step) : Prop :=
  ∃ folders files, step.world.listing? step.folder = some (folders, files) ∧
    step.act.Suits s excluded step.world step.folder folders files

variable {s : Settings} {excluded : String → Bool}
  {index : String → List String → List String → Run Unit} {document : String → Run Unit}

theorem traces_visit {folder : String} {folders files : List String}
    (hlisting : w.listing? folder = some (folders, files)) :
    Traces (Step.Listed s excluded) w (tracedVisit s excluded index document folder folders files)
      (visit s excluded index document folder folders files) := by
  have hindex : Step.Listed s excluded ⟨w, folder, .index
      (Text.sort (keptFolders s excluded w folder folders))
      (Text.sort (keptFiles excluded folder files))⟩ := ⟨folders, files, hlisting, .index⟩
  have hdocument : ∀ name ∈ (Text.sort (keptFiles excluded folder files)).filter isCMakeName,
      Step.Listed s excluded ⟨w, folder, .document (Path.join folder name)⟩ := by
    intro name hname
    obtain ⟨hmem, hcmake⟩ := List.mem_filter.mp hname
    have hkept := (Text.sort_perm _).mem_iff.mp hmem
    exact ⟨folders, files, hlisting, .document hkept hcmake⟩
  refine Traces.glance ?_
  rw [visit_eq, visit_eq]
  refine Traces.look ?_
  by_cases hskip : (s.autoExclude && !(keptFiles excluded folder files).any endsInSmallCMake) = true
  · rw [if_pos hskip, if_pos hskip]
    exact Traces.ret _ _ _
  · rw [if_neg hskip, if_neg hskip]
    refine Traces.seq (Traces.noted hindex) fun _ w₁ _ => ?_
    refine Traces.seq (Traces.each ?_ w₁) fun _ w₂ _ => Traces.ret _ _ _
    exact fun name hname w' => Traces.noted (hdocument name hname)

theorem traces_walkAll {enter : String → Traced Bool} {enter' : String → Run Bool}
    (h : ∀ name w, Traces good w (enter name) (enter' name)) (names : List String) (w : World) :
    Traces good w (walkAll enter names) (walkAll enter' names) := by
  induction names generalizing w with
  | nil => exact Traces.ret good w false
  | cons name rest ih =>
    refine Traces.seq (h name w) fun isOver w' _ => ?_
    cases isOver with
    | true => exact Traces.ret good w' true
    | false => exact ih w'

theorem traces_walk (depth : Nat) (folder : String) (w : World) :
    Traces (Step.Listed s excluded) w
      (walk s (tracedVisit s excluded index document) depth folder)
      (walk s (visit s excluded index document) depth folder) := by
  induction depth generalizing folder w with
  | zero => exact Traces.ret _ w false
  | succ depth ih =>
    refine Traces.look ?_
    cases hlisting : w.listing? folder with
    | none => exact Traces.ret _ w false
    | some listing =>
      obtain ⟨folders, files⟩ := listing
      refine Traces.seq (traces_visit hlisting) fun v w' _ => ?_
      cases hlast : v.isLast with
      | true => exact Traces.ret _ w' true
      | false =>
        refine traces_walkAll (fun name w'' => Traces.look ?_) v.folders w'
        split
        · exact Traces.ret _ w'' false
        · exact ih _ w''

variable {documentBelow : Value → String → String → Run Unit} {input root : String}

/-- The traced run is the run, and each of its steps goes by what its folder lists. -/
theorem traces_folder (w : World) :
    untraced (tracedFolder s excluded documentBelow input root (w, [])) =
        documentFolder s excluded documentBelow input root w ∧
      ∀ step ∈ stepsIn s excluded documentBelow input root w, step.Listed s excluded := by
  have htraces : Traces (Step.Listed s excluded) w
      (tracedFolder s excluded documentBelow input root)
      (documentFolder s excluded documentBelow input root) :=
    Traces.look (Traces.seq (traces_walk _ root w) fun _ w' _ => Traces.ret _ w' ())
  obtain ⟨more, hmore, heq⟩ := htraces []
  rw [stepsIn, heq, untraced_withTrace, traceOf_withTrace]
  exact ⟨rfl, hmore⟩

end CMakeDocs.Site
