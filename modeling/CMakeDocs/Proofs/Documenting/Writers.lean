import CMakeDocs.Rst.Store

/-!
# Writers that grow

What stands in a writer has been made later than the writer itself, so the blocks of some writers
are told without looking at those before them, and writers made afterwards have no part in them.
A writer grows if blocks are put behind those it has, whatever other writers had to be made for
that. Everything that is done to fill a directive is then, for the writer that the directive stands
in, growing by one block.
-/
namespace CMakeDocs.Rst

namespace Writer

variable (w : Writer) (e : Element)

@[simp] theorem add_form : (w.add e).form = w.form := rfl

@[simp] theorem add_title : (w.add e).title = w.title := rfl

@[simp] theorem add_depth : (w.add e).depth = w.depth := rfl

@[simp] theorem add_indent : (w.add e).indent = w.indent := rfl

@[simp] theorem add_elements : (w.add e).elements = w.elements ++ [e] := rfl

end Writer

namespace Store

variable (s : Store) (h : Headers) (handle : Nat) (f : Writer → Writer) (w : Writer)

@[simp] theorem start_headers : (start h w).headers = h := rfl

@[simp] theorem start_writers : (start h w).writers = [w] := rfl

@[simp] theorem modify_headers : (s.modify handle f).headers = s.headers := rfl

@[simp] theorem modify_writers : (s.modify handle f).writers = s.writers.modify handle f := rfl

@[simp] theorem addChild_headers : (s.addChild handle w).headers = s.headers := rfl

@[simp] theorem addChild_writers : (s.addChild handle w).writers =
    s.writers.modify handle (·.add (.child s.writers.length)) ++ [w] := rfl

/-- A writer may be put in the place of the one that it has come from. -/
theorem modify_replaced {s : Store} {handle : Nat} {w : Writer} (hw : s.writers[handle]? = some w)
    (f : Writer → Writer) : s.modify handle (fun _ => f w) = s.modify handle f := by
  refine congrArg (Store.mk s.headers) (List.ext_getElem? fun i => ?_)
  rw [List.getElem?_modify, List.getElem?_modify]
  by_cases hi : handle = i
  · subst hi
    simp [hw]
  · simp [hi]

end Store

namespace Element

/-- The handle of a child lies in a range. -/
def Within (low high : Nat) : Element → Prop
  | piece _ => True
  | child i => low ≤ i ∧ i < high

theorem Within.mono {low low' high high' : Nat} {e : Element} (h : e.Within low high)
    (hlow : low' ≤ low) (hhigh : high ≤ high') : e.Within low' high' := by
  cases e with
  | piece b => trivial
  | child i => exact ⟨Nat.le_trans hlow h.1, Nat.lt_of_lt_of_le h.2 hhigh⟩

/-- The block of an element; the blocks of the handles from one on are given. -/
def blockFrom (first : Nat) (blocks : List Block) : Element → Block
  | piece b => b
  | child i => blocks.getD (i - first) (.paragraph "")

theorem elementBlock_eq (handle : Nat) (later : List Block) (e : Element) :
    Writer.elementBlock handle later e = e.blockFrom (handle + 1) later := by
  cases e with
  | piece b => rfl
  | child i => rfl

variable {first : Nat} {blocks : List Block} {e : Element}

/-- The blocks of later handles have no part in an element with an earlier one. -/
theorem blockFrom_append_left (h : e.Within first (first + blocks.length)) (more : List Block) :
    e.blockFrom first (blocks ++ more) = e.blockFrom first blocks := by
  cases e with
  | piece b => rfl
  | child i =>
    have hlt : i - first < blocks.length := by
      obtain ⟨hlow, hhigh⟩ := h
      omega
    simp only [blockFrom, List.getD_eq_getElem?_getD, List.getElem?_append_left hlt]

/-- Nor have those of earlier handles in an element with a later one. -/
theorem blockFrom_append_right {high : Nat} {more : List Block}
    (h : e.Within (first + blocks.length) high) :
    e.blockFrom first (blocks ++ more) = e.blockFrom (first + blocks.length) more := by
  cases e with
  | piece b => rfl
  | child i =>
    have hle : blocks.length ≤ i - first := by
      obtain ⟨hlow, -⟩ := h
      omega
    simp only [blockFrom, List.getD_eq_getElem?_getD, List.getElem?_append_right hle,
      Nat.sub_sub]

end Element

namespace Store

/-- Of writers whose handles begin at one, each has only later ones as children. -/
def Ordered : Nat → List Writer → Prop
  | _, [] => True
  | handle, w :: ws =>
    (∀ e ∈ w.elements, e.Within (handle + 1) (handle + 1 + ws.length)) ∧ Ordered (handle + 1) ws

theorem length_blocksFrom (handle : Nat) (ws : List Writer) :
    (blocksFrom handle ws).length = ws.length := by
  induction ws generalizing handle with
  | nil => rfl
  | cons w ws ih => simp [blocksFrom, ih]

theorem ordered_append {handle : Nat} {ws more : List Writer} (h : Ordered handle ws)
    (hmore : Ordered (handle + ws.length) more) : Ordered handle (ws ++ more) := by
  induction ws generalizing handle with
  | nil => exact hmore
  | cons w ws ih =>
    obtain ⟨helements, hws⟩ := h
    have hshift : handle + (w :: ws).length = handle + 1 + ws.length := by
      rw [List.length_cons]
      omega
    have hbound : handle + 1 + ws.length ≤ handle + 1 + (ws ++ more).length := by
      rw [List.length_append]
      omega
    exact ⟨fun e he => (helements e he).mono (Nat.le_refl _) hbound, ih hws (hshift ▸ hmore)⟩

theorem toBlock_append {handle : Nat} {w : Writer} {later : List Block}
    (h : ∀ e ∈ w.elements, e.Within (handle + 1) (handle + 1 + later.length))
    (more : List Block) : w.toBlock handle (later ++ more) = w.toBlock handle later := by
  have hblocks : w.blocks handle (later ++ more) = w.blocks handle later := by
    refine List.map_congr_left fun e he => ?_
    rw [Element.elementBlock_eq, Element.elementBlock_eq]
    exact Element.blockFrom_append_left (h e he) more
  unfold Writer.toBlock
  rw [hblocks]

/-- Writers made afterwards do not change the blocks of those before. -/
theorem blocksFrom_append {handle : Nat} {ws : List Writer} (h : Ordered handle ws)
    (more : List Writer) :
    blocksFrom handle (ws ++ more) =
      blocksFrom handle ws ++ blocksFrom (handle + ws.length) more := by
  induction ws generalizing handle with
  | nil => rfl
  | cons w ws ih =>
    obtain ⟨helements, hws⟩ := h
    have hshift : handle + (w :: ws).length = handle + 1 + ws.length := by
      rw [List.length_cons]
      omega
    simp only [List.cons_append, blocksFrom, ih hws, hshift]
    rw [toBlock_append]
    rwa [length_blocksFrom]

theorem getElem?_blocksFrom (first : Nat) (ws : List Writer) (i : Nat) :
    (blocksFrom first ws)[i]? = ws[i]?.map fun w =>
      w.toBlock (first + i) (blocksFrom (first + i + 1) (ws.drop (i + 1))) := by
  induction ws generalizing first i with
  | nil => rfl
  | cons w ws ih =>
    cases i with
    | zero => rfl
    | succ i =>
      rw [blocksFrom, List.getElem?_cons_succ, ih, List.getElem?_cons_succ, List.drop_succ_cons,
        Nat.add_right_comm first 1 i, ← Nat.add_assoc]

variable {s : Store} {i j : Nat} {w : Writer}

/-- The blocks of the writers after one. -/
def later (s : Store) (i : Nat) : List Block := blocksFrom (i + 1) (s.writers.drop (i + 1))

theorem text_of_getElem? (hw : s.writers[i]? = some w) : s.text i = w.text i (s.later i) := by
  rw [text, hw]
  rfl

theorem elementBlock_child (hlt : i < j) (hw : s.writers[j]? = some w) :
    Writer.elementBlock i (s.later i) (.child j) = w.toBlock j (s.later j) := by
  have hj : i + 1 + (j - (i + 1)) = j := by omega
  rw [Writer.elementBlock, later, List.getD_eq_getElem?_getD, getElem?_blocksFrom,
    List.getElem?_drop, List.drop_drop, ← Nat.add_assoc, hj, hw]
  rfl

end Store

def Form.withOptions (more : List (String × String)) : Form → Form
  | part heading => part heading
  | directive arguments options => directive arguments (options ++ more)

def Form.isDirective : Form → Bool
  | part _ => false
  | directive _ _ => true

namespace Writer

/-- A writer with more options and elements. -/
def grown (options : List (String × String)) (es : List Element) (w : Writer) : Writer :=
  { w with form := w.form.withOptions options, elements := w.elements ++ es }

theorem grown_nil (w : Writer) : w.grown [] [] = w := by
  unfold grown Form.withOptions
  cases hform : w.form <;> simp [← hform]

theorem modify_grown_nil (ws : List Writer) (handle : Nat) :
    ws.modify handle (grown [] []) = ws := by
  have hid : grown [] [] = id := funext grown_nil
  rw [hid, List.modify_id]

theorem grown_grown (options options' : List (String × String)) (es es' : List Element)
    (w : Writer) :
    (w.grown options es).grown options' es' = w.grown (options ++ options') (es ++ es') := by
  unfold grown Form.withOptions
  cases w.form <;> simp

theorem add_eq_grown (w : Writer) (e : Element) : w.add e = w.grown [] [e] := by
  unfold add grown Form.withOptions
  cases w.form <;> simp

theorem isDirective_grown (options : List (String × String)) (es : List Element) (w : Writer) :
    (w.grown options es).form.isDirective = w.form.isDirective := by
  unfold grown Form.withOptions
  cases w.form <;> rfl

end Writer

namespace Store

/-- Options and elements have been added to one writer, and other writers made for them, which are
told by the blocks that they amount to. -/
structure Grows (handle : Nat) (options : List (String × String)) (blocks : List Block)
    (s s' : Store) : Prop where
  headers : s'.headers = s.headers
  writers : ∃ es new, s'.writers = s.writers.modify handle (Writer.grown options es) ++ new ∧
    es.map (Element.blockFrom s.writers.length (blocksFrom s.writers.length new)) = blocks ∧
    (∀ e ∈ es, e.Within s.writers.length (s.writers.length + new.length)) ∧
    Ordered s.writers.length new

variable {handle : Nat} {options options' : List (String × String)} {blocks blocks' : List Block}
  {s s' s'' : Store}

theorem Grows.refl (handle : Nat) (s : Store) : Grows handle [] [] s s := by
  refine ⟨rfl, [], [], ?_, rfl, by simp, trivial⟩
  rw [Writer.modify_grown_nil, List.append_nil]

/-- The writer that has grown is still there. -/
theorem Grows.writer {w : Writer} (h : Grows handle options blocks s s')
    (hw : s.writers[handle]? = some w) :
    ∃ w', s'.writers[handle]? = some w' ∧ w'.form.isDirective = w.form.isDirective := by
  obtain ⟨es, new, hwriters, -⟩ := h.writers
  have hlt : handle < (s.writers.modify handle (Writer.grown options es)).length := by
    rw [List.length_modify]
    exact (List.getElem?_eq_some_iff.mp hw).1
  refine ⟨w.grown options es, ?_, w.isDirective_grown options es⟩
  rw [hwriters, List.getElem?_append_left hlt, List.getElem?_modify_eq, hw]
  rfl

theorem modify_append_left {α : Type} {xs ys : List α} {i : Nat} (h : i < xs.length) (f : α → α) :
    (xs ++ ys).modify i f = xs.modify i f ++ ys := by
  induction xs generalizing i with
  | nil => simp at h
  | cons x xs ih =>
    cases i with
    | zero => rfl
    | succ i => simp [ih (Nat.lt_of_succ_lt_succ h)]

theorem modify_append_length {α : Type} (xs : List α) (y : α) (ys : List α) (f : α → α) :
    (xs ++ y :: ys).modify xs.length f = xs ++ f y :: ys := by
  induction xs with
  | nil => rfl
  | cons x xs ih => simp [ih]

theorem Grows.trans (h : Grows handle options blocks s s')
    (h' : Grows handle options' blocks' s' s'') (hlt : handle < s.writers.length) :
    Grows handle (options ++ options') (blocks ++ blocks') s s'' := by
  obtain ⟨es, new, hwriters, rfl, hwithin, hordered⟩ := h.writers
  obtain ⟨es', new', hwriters', rfl, hwithin', hordered'⟩ := h'.writers
  have hlength : s'.writers.length = s.writers.length + new.length := by
    rw [hwriters, List.length_append, List.length_modify]
  have hbound : (blocksFrom s.writers.length new).length = new.length := length_blocksFrom _ _
  rw [hlength] at hwithin' hordered' ⊢
  refine ⟨h'.headers.trans h.headers, es ++ es', new ++ new', ?_, ?_, ?_, ?_⟩
  · have hgrown : Writer.grown options' es' ∘ Writer.grown options es =
        Writer.grown (options ++ options') (es ++ es') :=
      funext fun w => w.grown_grown options options' es es'
    rw [hwriters', hwriters, modify_append_left (by rw [List.length_modify]; exact hlt),
      List.modify_modify_eq, hgrown, List.append_assoc]
  · rw [blocksFrom_append hordered, List.map_append]
    congr 1
    · refine List.map_congr_left fun e he => Element.blockFrom_append_left ?_ _
      rw [hbound]
      exact hwithin e he
    · refine List.map_congr_left fun e he => ?_
      have hlater : e.Within (s.writers.length + (blocksFrom s.writers.length new).length)
          (s.writers.length + new.length + new'.length) := by
        rw [hbound]
        exact hwithin' e he
      rw [Element.blockFrom_append_right hlater, hbound]
  · intro e he
    rw [List.length_append, ← Nat.add_assoc]
    rcases List.mem_append.mp he with he | he
    · exact (hwithin e he).mono (Nat.le_refl _) (Nat.le_add_right _ _)
    · exact (hwithin' e he).mono (Nat.le_add_right _ _) (Nat.le_refl _)
  · exact ordered_append hordered hordered'

theorem grows_piece (handle : Nat) (b : Block) (s : Store) :
    Grows handle [] [b] s (s.modify handle (·.add (.piece b))) := by
  refine ⟨rfl, [.piece b], [], ?_, rfl, by simp [Element.Within], trivial⟩
  rw [modify_writers, funext fun w : Writer => w.add_eq_grown (.piece b), List.append_nil]

/-- A directive that has been filled is one block of the writer that it stands in. -/
theorem grows_directive {name : Value} {arguments : List String} {indent : Int}
    (h : Grows s.writers.length options blocks
      (s.addChild handle ⟨.directive arguments [], name, 0, indent, []⟩) s') :
    Grows handle [] [.directive name.shown arguments options blocks] s s' := by
  generalize hdirective : (⟨.directive arguments [], name, 0, indent, []⟩ : Writer) = d at h
  obtain ⟨es, new, hwriters, rfl, hwithin, hordered⟩ := h.writers
  have hchild : (s.addChild handle d).writers =
      s.writers.modify handle (Writer.grown [] [.child s.writers.length]) ++ [d] := by
    simp only [addChild_writers, Writer.add_eq_grown]
  have hlength : (s.addChild handle d).writers.length = s.writers.length + 1 := by
    rw [hchild, List.length_append, List.length_modify, List.length_singleton]
  rw [hlength] at hwithin hordered ⊢
  refine ⟨h.headers, [.child s.writers.length], d.grown options es :: new, ?_, ?_, ?_,
    hdirective ▸ hwithin, hordered⟩
  · have hlast := modify_append_length
      (s.writers.modify handle (Writer.grown [] [.child s.writers.length])) d []
      (Writer.grown options es)
    rw [List.length_modify] at hlast
    rw [hwriters, hchild, hlast, List.append_assoc]
    rfl
  · subst hdirective
    simp only [List.map_cons, List.map_nil, Element.blockFrom, Nat.sub_self, blocksFrom,
      List.getD_cons_zero, Writer.toBlock, Writer.grown, Form.withOptions, Writer.blocks,
      List.nil_append]
    rw [List.map_congr_left fun e _ => Element.elementBlock_eq _ _ e]
  · simp [Element.Within]

/-- A directive takes any option, and nothing else takes one. -/
theorem addOption_eq (name value : Value) (w : Writer) :
    addOption name value w = if w.form.isDirective then
      .ok (w.grown [(name.shown, value.shown)] []) else .error .noOptions := by
  unfold addOption Writer.grown Form.withOptions
  cases w.form with
  | part heading => rfl
  | directive arguments options => simp [Form.isDirective]

theorem grown_of_addOption {w w' : Writer} {name value : Value}
    (h : addOption name value w = .ok w') : w' = w.grown [(name.shown, value.shown)] [] := by
  rw [addOption_eq] at h
  split at h
  · cases h
    rfl
  · cases h

theorem grows_option {w w' : Writer} (name value : Value) (hw : s.writers[handle]? = some w)
    (h : addOption name value w = .ok w') :
    Grows handle [(name.shown, value.shown)] [] s (s.modify handle fun _ => w') := by
  refine ⟨rfl, [], [], ?_, rfl, by simp, trivial⟩
  rw [List.append_nil, grown_of_addOption h,
    modify_replaced hw (Writer.grown [(name.shown, value.shown)] []), modify_writers]

/-- What stands in the first writer. -/
def elements (s : Store) : List Element := (s.writers.head?.map Writer.elements).getD []

/-- The block of what stands in the first writer. -/
def blockOf (s : Store) (e : Element) : Block := e.blockFrom 1 (blocksFrom 1 s.writers.tail)

/-- When the first writer grows, what stands in it stays there, with the same blocks. -/
theorem Grows.first {w : Writer} {rest : List Writer} (h : Grows 0 [] blocks s s')
    (hs : s.writers = w :: rest) (hordered : Ordered 0 s.writers) :
    ∃ es new, s'.writers = { w with elements := w.elements ++ es } :: (rest ++ new) ∧
      es.map s'.blockOf = blocks ∧ w.elements.map s'.blockOf = w.elements.map s.blockOf ∧
      Ordered 0 s'.writers := by
  obtain ⟨es, new, hwriters, rfl, hwithin, hnew⟩ := h.writers
  have hgrown : w.grown [] es = { w with elements := w.elements ++ es } := by
    unfold Writer.grown Form.withOptions
    cases hform : w.form <;> simp
  have hlength : s.writers.length = 1 + rest.length := by
    rw [hs, List.length_cons, Nat.add_comm]
  have hbound : (blocksFrom 1 rest).length = rest.length := length_blocksFrom 1 rest
  rw [hs, List.modify_zero_cons, hgrown, List.cons_append] at hwriters
  rw [hlength] at hwithin hnew ⊢
  rw [hs] at hordered
  obtain ⟨hold, hrest⟩ := hordered
  have hlater : blocksFrom 1 s'.writers.tail =
      blocksFrom 1 rest ++ blocksFrom (1 + rest.length) new := by
    rw [hwriters, List.tail_cons, blocksFrom_append hrest]
  refine ⟨es, new, hwriters, ?_, ?_, ?_⟩
  · refine List.map_congr_left fun e he => ?_
    have hfresh : e.Within (1 + (blocksFrom 1 rest).length) (1 + rest.length + new.length) := by
      rw [hbound]
      exact hwithin e he
    rw [blockOf, hlater, Element.blockFrom_append_right hfresh, hbound]
  · refine List.map_congr_left fun e he => ?_
    rw [blockOf, blockOf, hlater, hs, List.tail_cons]
    refine Element.blockFrom_append_left ?_ _
    rw [hbound]
    exact hold e he
  · rw [hwriters]
    refine ⟨fun e he => ?_, ordered_append hrest hnew⟩
    rw [List.length_append, ← Nat.add_assoc]
    rcases List.mem_append.mp he with he | he
    · exact (hold e he).mono (Nat.le_refl _) (Nat.le_add_right _ _)
    · exact (hwithin e he).mono (Nat.le_add_right _ _) (Nat.le_refl _)

end Store

end CMakeDocs.Rst
