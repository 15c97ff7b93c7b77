import CMakeDocs.Proofs.Walking.Writing

/-!
# Walks that leave their tree alone

A walk that prints its pages leaves all files as they are, and one that writes them outside of its
tree changes nothing that it looks at. Both follow their course. Where such a walk stops, it has
tried the last deed of its trace, and that one has failed.
-/
namespace CMakeDocs.Site

variable {s : Settings} {excluded : String → Bool} {w w' : World} {root : String}
  {index : String → List String → List String → Run Unit} {document : String → Run Unit}
  {inv failed : List Deed → World → Prop} {deeds : List Deed}

/-- The last of some deeds has failed. -/
def StoppedAt (index : String → List String → List String → Run Unit) (document : String → Run Unit)
    (deeds : List Deed) (w' : World) : Prop :=
  ∃ before deed w₁ e, deeds = before ++ [deed] ∧ deed.run index document w₁ = .error e w'

theorem Carries.stopped (h : Carries s excluded w root index document inv failed) :
    Carries s excluded w root index document inv (StoppedAt index document) where
  start := h.start
  sees := h.sees
  does ns folders files hreached hlisting deed hdeed past w' hinv hpast := by
    have hends := h.does ns folders files hreached hlisting deed hdeed past w' hinv hpast
    cases hr : deed.run index document w' with
    | error e w'' => exact .error ⟨past, deed, w', e, rfl, hr⟩
    | ok a w'' =>
      rw [hr] at hends
      cases hends with
      | ok hdone => exact .ok hdone

theorem sees_of_told (root : String) (h : Told w w') : Sees root w w' := by
  obtain ⟨events, -, rfl⟩ := h
  exact ⟨fun _ _ => rfl, fun _ _ => rfl, fun _ _ => rfl⟩

theorem outputFolder_null (hs : s.outputFolder = .null) : outputFolder s = pure none := by
  unfold outputFolder
  rw [hs]

/-- Where pages are printed, there are no indexes. -/
theorem putIndex_null (hs : s.outputFolder = .null) (rootName : Value) (root folder : String)
    (folders files : List String) :
    putIndex s rootName root folder folders files = pure () := by
  unfold putIndex
  rw [outputFolder_null hs, pure_bind]

theorem ends_putIndex_null (hs : s.outputFolder = .null) {post err : World → Prop} (h : post w)
    (rootName : Value) (root folder : String) (folders files : List String) :
    Ends (fun _ => post) err (putIndex s rootName root folder folders files w) := by
  rw [putIndex_null hs]
  exact .ok h

theorem tells_documentFile (hs : s.outputFolder = .null) (rootName : Value) (root file : String) :
    Tells (documentFile s rootName root file) := by
  intro w
  unfold documentFile
  refine Ends.get ?_
  dsimp only
  refine (quiet_qualified s _ _).tells.bind (fun name => ?_) w
  refine (quiet_shownName _ _).tells.bind fun title => ?_
  refine (quiet_shownName _ _).tells.bind fun moduleName => ?_
  rw [outputFolder_null hs, pure_bind]
  refine (tells_pageText s file title moduleName).bind fun text => ?_
  exact tells_happen (by simp)

theorem carries_printing (excluded : String → Bool) (w : World) (root : String)
    (hs : s.outputFolder = .null) (rootName : Value) :
    Carries s excluded w root (putIndex s rootName root) (documentFile s rootName root)
      (fun _ => Told w) (fun _ => Told w) where
  start := .refl w
  sees _ _ hinv _ := sees_of_told root hinv
  does ns folders files _ _ deed _ past w' hinv _ := by
    obtain ⟨folder, act⟩ := deed
    cases act with
    | index shownFolders shownFiles =>
      exact ends_putIndex_null hs hinv rootName root folder shownFolders shownFiles
    | document path =>
      refine (tells_documentFile hs rootName root path w').mono ?_ ?_
      · exact fun _ _ h => hinv.trans h
      · exact fun _ h => hinv.trans h

/-- Pages are printed, or they go to a folder outside of a tree. -/
def LeavesAlone (s : Settings) (w : World) (root : String) : Prop :=
  s.outputFolder = .null ∨ ∃ output, s.outputFolder = .text output ∧ w.OutputOutside output root

/-- No blank stands in front of the path of the folder for the pages, if there is one. -/
def OutputVisible (s : Settings) : Prop :=
  ∀ output, s.outputFolder = .text output → Path.StartsVisibly output

theorem outputVisible_toPages : OutputVisible toPages := by
  intro output hout
  cases hout
  exact startsVisibly_out

/-- What documenting a folder does is its course. If it stops, it is a first part of its course, and
the last deed of it has failed. -/
theorem follows_course (hw : w.Sound) (hroot : Path.isAbsolute root = true)
    (hfolder : w.isFolder root = true) (hs : LeavesAlone s w root)
    (hstart : OutputVisible s) (excluded : String → Bool) (input : String) :
    Ends
      (fun _ _ => (stepsIn s excluded (documentFile s) input root w).map Step.deed =
        fullCourse s excluded w root)
      (fun w' =>
        (stepsIn s excluded (documentFile s) input root w).map Step.deed <+:
            fullCourse s excluded w root ∧
          StoppedAt (putIndex s (rootNameFor s input) root)
            (documentFile s (rootNameFor s input) root)
            ((stepsIn s excluded (documentFile s) input root w).map Step.deed) w')
      (documentFolder s excluded (documentFile s) input root w) := by
  rcases hs with hnull | ⟨output, htext, hout⟩
  · have hcarries := (carries_printing excluded w root hnull (rootNameFor s input)).stopped
    exact (stepsIn_of_carries hw (documentFile s) input hcarries).mono (fun _ _ h => h.1)
      fun _ h => h
  · have hcarries := (carries_writing excluded hw hroot hfolder hout (hstart output htext)
      htext (rootNameFor s input)).stopped
    exact (stepsIn_of_carries hw (documentFile s) input hcarries).mono (fun _ _ h => h.1)
      fun _ h => h

end CMakeDocs.Site
