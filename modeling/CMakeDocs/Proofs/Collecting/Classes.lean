import CMakeDocs.Proofs.Collecting.Growth

/-!
# Open classes

A collector puts every class on the stack of open classes when it begins and takes one off the
stack at the end of a class. A class that is included only with a comment, and has one, is put
there twice: once with its entry, and above that once without, as if it had no comment. The
second time is never undone, so from there on the methods of other classes may be lost.
-/
namespace CMakeDocs

namespace Item

def command? : Item → Option Command
  | documented _ command => some command
  | plain command => some command
  | _ => none

def kind? (it : Item) : Option CommandKind := it.command?.map Command.kind

/-- A class with a comment. -/
def isDocumentedClass : Item → Bool
  | documented _ command => command.kind = .classStart
  | _ => false

end Item

/-- Items in which each class that begins also ends, before the one around it. -/
inductive Nested : List Item → Prop where
  | nil : Nested []
  | other {it : Item} {rest : List Item} (hs : it.kind? ≠ some .classStart)
      (he : it.kind? ≠ some .classEnd) (hr : Nested rest) : Nested (it :: rest)
  | block {start stop : Item} {inner rest : List Item} (hs : start.kind? = some .classStart)
      (he : stop.kind? = some .classEnd) (hi : Nested inner) (hr : Nested rest) :
      Nested (start :: (inner ++ stop :: rest))

/-- Every class has a name. -/
def Named (is : List Item) : Prop :=
  ∀ it ∈ is, it.kind? = some .classStart → ∀ command ∈ it.command?, command.singles ≠ []

instance : DecidablePred Named := fun is =>
  inferInstanceAs (Decidable (∀ it ∈ is, it.kind? = some .classStart →
    ∀ command ∈ it.command?, command.singles ≠ []))

def Class.methods (k : Class) (isConstructor : Bool) : List Method :=
  if isConstructor then k.constructors else k.members

/-- What a command with the given documentation declares stands in a class, if it declares a
method or an attribute at all. -/
def Class.Lists (k : Class) (doc : String) (command : Command) : Prop :=
  match command.kind, command.singles with
  | .member isConstructor, name :: parentClass :: paramTypes =>
    ⟨name, doc, parentClass, paramTypes, [], isConstructor, false⟩ ∈
      (k.methods isConstructor).map Method.declared
  | .classAttribute, parentClass :: name :: rest =>
    ⟨name, doc, parentClass, rest.head?⟩ ∈ k.attributes
  | _, _ => True

theorem Class.Extends.lists {k k' : Class} (h : k.Extends k') {doc : String} {command : Command}
    (hl : k.Lists doc command) : k'.Lists doc command := by
  unfold Class.Lists at hl ⊢
  split
  · next isConstructor _ _ _ hk hs =>
    rw [hk, hs] at hl
    cases isConstructor with
    | true => exact h.constructors.subset hl
    | false => exact h.members.subset hl
  · next hk hs =>
    rw [hk, hs] at hl
    exact h.attributes.subset hl
  · trivial

namespace Collector

variable {s : Settings} {c c' : Collector}

theorem openClass_spec {command : Command} (hn : command.singles ≠ []) (doc : String)
    (c : Collector) :
    c.Grows (openClass doc command c).1 ∧
      (openClass doc command c).1.classes = some c.next :: c.classes ∧
      ∃ k : Class, (openClass doc command c).1.entries[c.next]? = some (.classDoc k) ∧
        command.singles.head? = some k.name ∧ k.doc = doc := by
  obtain ⟨name, superclasses, hs⟩ := List.exists_cons_of_ne_nil hn
  have happend := append_keeps c (.classDoc ⟨name, doc, superclasses, [], [], [], []⟩)
  have hentry : (c.append (.classDoc ⟨name, doc, superclasses, [], [], [], []⟩)).entries[c.next]? =
      some (.classDoc ⟨name, doc, superclasses, [], [], [], []⟩) := by simp [next]
  have hinner (i : Nat) := modify_class_keeps
    (c.append (.classDoc ⟨name, doc, superclasses, [], [], [], []⟩)) i
    (f := fun k => { k with innerClasses := k.innerClasses ++ [name] })
    fun k => ⟨rfl, rfl, List.prefix_rfl, List.prefix_rfl, List.prefix_rfl⟩
  rw [openClass, hs]
  dsimp only
  split
  · next i _ _ =>
    obtain ⟨k, hk, hext⟩ := (hinner i).grows _ _ hentry
    exact ⟨(happend.trans (hinner i)).grows, rfl, k, hk, by rw [hext.name_eq]; rfl, hext.doc_eq⟩
  · exact ⟨happend.grows, rfl, _, hentry, rfl, rfl⟩

/-- What an item makes of a collector when nothing goes wrong. -/
inductive Passes (s : Settings) : Item → Collector → Collector → Prop where
  | moduleComment {text : String} {c : Collector} {e : Entry} :
      Passes s (.moduleComment text) c (c.append e)
  | documented {comment : String} {command : Command} {c c₁ c₂ : Collector}
      {logs₁ logs₂ : List LogRecord}
      (hr : record s (Comment.clean comment) command c = .ok (c₁, logs₁))
      (hf : follow s true command c₁ = .ok (c₂, logs₂)) :
      Passes s (.documented comment command) c c₂
  | plain {command : Command} {c c' : Collector} {logs : List LogRecord}
      (hf : follow s false command c = .ok (c', logs)) : Passes s (.plain command) c c'
  | strayComment {c : Collector} : Passes s .strayComment c c

theorem step_of_error_none {p : Progress} {text : String} {command : Command}
    {f : Collector → Outcome} (h : (p.step text command f).error = none) :
    p.error = none ∧ ∃ logs, f p.collector = .ok ((p.step text command f).collector, logs) := by
  unfold Progress.step at h ⊢
  split at h
  · next hp => rw [h] at hp; cases hp
  · next hp =>
    split at h
    · next hf => exact ⟨hp, by simp [hf]⟩
    · cases h

/-- An item after which there is no error. -/
theorem item_passes {p : Progress} {it : Item} (h : (item s p it).error = none) :
    p.error = none ∧ Passes s it p.collector (item s p it).collector := by
  cases it with
  | moduleComment text =>
    simp only [item, Progress.append] at h ⊢
    split at h
    · next hp => rw [h] at hp; cases hp
    · next hp => exact ⟨hp, by simpa [hp] using .moduleComment⟩
  | documented comment command =>
    obtain ⟨hp, logs, hf⟩ := step_of_error_none h
    obtain ⟨hp', logs', hr⟩ := step_of_error_none hp
    exact ⟨hp', .documented hr hf⟩
  | plain command =>
    obtain ⟨hp, logs, hf⟩ := step_of_error_none h
    exact ⟨hp, .plain hf⟩
  | strayComment =>
    simp only [item, Progress.say] at h ⊢
    split at h
    · next hp => rw [h] at hp; cases hp
    · next hp => exact ⟨hp, by simpa [hp] using .strayComment⟩

/-- What an item that begins a class puts on the stack, if its entry gets the given number. -/
def pushed (s : Settings) (entry : Nat) : Item → List (Option Nat)
  | .documented _ _ => if s.includes .classStart then [some entry] else [none, some entry]
  | _ => if s.includes .classStart then [some entry] else [none]

theorem follow_included {command : Command} (h : command.kind = .classStart)
    (hi : s.includes .classStart = true) (hasComment : Bool) (c : Collector) :
    follow s hasComment command c =
      if hasComment then .ok (c, []) else .ok (openClass "" command c) := by
  simp [follow_classStart h, hi, record_classStart h]

theorem follow_excluded {command : Command} (h : command.kind = .classStart)
    (hi : s.includes .classStart = false) (hasComment : Bool) (c : Collector) :
    follow s hasComment command c = .ok ({ c with classes := none :: c.classes }, []) := by
  simp [follow_classStart h, hi]

namespace Passes

variable {it : Item}

theorem keeps (h : Passes s it c c') (hs : it.kind? ≠ some .classStart)
    (he : it.kind? ≠ some .classEnd) : c.Keeps c' := by
  have hkind {command : Command} {kind : CommandKind} (hne : some command.kind ≠ some kind) :
      command.kind ≠ kind := fun heq => hne (congrArg some heq)
  cases h with
  | moduleComment => exact append_keeps c _
  | documented hr hf =>
    exact (record_keeps s _ (hkind hs) c _ _ hr).trans
      (follow_keeps s true (hkind hs) (hkind he) _ _ _ hf)
  | plain hf => exact follow_keeps s false (hkind hs) (hkind he) c _ _ hf
  | strayComment => exact .refl c

/-- The end of a class takes one class off the stack, whatever is there. -/
theorem closes (h : Passes s it c c') (he : it.kind? = some .classEnd) :
    c.Grows c' ∧ ∃ x, c.classes = x :: c'.classes := by
  have hfollow {hasComment : Bool} {command : Command} {c c' : Collector} {logs : List LogRecord}
      (hk : command.kind = .classEnd) (hf : follow s hasComment command c = .ok (c', logs)) :
      c.Grows c' ∧ ∃ x, c.classes = x :: c'.classes := by
    obtain ⟨-, hr, -⟩ | ⟨hf', -⟩ := follow_cases hf
    · simp [isRecorded, hk] at hr
    · rw [hk] at hf'
      cases hf' with
      | stay hne => simp at hne
      | @closeClass x rest hc => exact ⟨.refl c, x, hc⟩
  cases h with
  | moduleComment => cases he
  | documented hr hf =>
    have hk := Option.some.inj he
    have hkeeps := record_keeps s _ (by simp [hk]) c _ _ hr
    obtain ⟨hgrows, x, hx⟩ := hfollow hk hf
    exact ⟨hkeeps.grows.trans hgrows, x, hkeeps.classes_eq ▸ hx⟩
  | plain hf => exact hfollow (Option.some.inj he) hf
  | strayComment => cases he

theorem opens (h : Passes s it c c') (hs : it.kind? = some .classStart)
    (hn : ∀ command ∈ it.command?, command.singles ≠ []) :
    c.Grows c' ∧ c'.classes = pushed s c.next it ++ c.classes := by
  cases h with
  | moduleComment => cases hs
  | @documented comment command _ c₁ _ _ _ hr hf =>
    have hk := Option.some.inj hs
    obtain ⟨hgrows, hclasses, -⟩ := openClass_spec (hn command rfl) (Comment.clean comment) c
    rw [record_classStart hk] at hr
    have hc₁ : (openClass (Comment.clean comment) command c).1 = c₁ :=
      congrArg Prod.fst (Except.ok.inj hr)
    rw [hc₁] at hgrows hclasses
    by_cases hi : s.includes .classStart = true
    · rw [follow_included hk hi] at hf
      cases hf
      exact ⟨hgrows, by simp [pushed, hi, hclasses]⟩
    · rw [follow_excluded hk (eq_false_of_ne_true hi)] at hf
      cases hf
      exact ⟨hgrows, by simp [pushed, hi, hclasses]⟩
  | @plain command _ _ logs hf =>
    have hk := Option.some.inj hs
    by_cases hi : s.includes .classStart = true
    · obtain ⟨hgrows, hclasses, -⟩ := openClass_spec (hn command rfl) "" c
      rw [follow_included hk hi] at hf
      have hc' : (openClass "" command c).1 = c' := congrArg Prod.fst (Except.ok.inj hf)
      rw [hc'] at hgrows hclasses
      exact ⟨hgrows, by simp [pushed, hi, hclasses]⟩
    · rw [follow_excluded hk (eq_false_of_ne_true hi)] at hf
      cases hf
      exact ⟨.refl c, by simp [pushed, hi]⟩
  | strayComment => cases hs

theorem grows (h : Passes s it c c')
    (hn : it.kind? = some .classStart → ∀ command ∈ it.command?, command.singles ≠ []) :
    c.Grows c' := by
  by_cases hs : it.kind? = some .classStart
  · exact (h.opens hs (hn hs)).1
  by_cases he : it.kind? = some .classEnd
  · exact (h.closes he).1
  · exact (h.keeps hs he).grows

end Passes

/-- How many classes are still on the stack after nested items: those put there twice. -/
def leftOpen (s : Settings) (is : List Item) : Nat :=
  if s.includes .classStart then 0 else is.countP Item.isDocumentedClass

theorem leftOpen_append (s : Settings) (is js : List Item) :
    leftOpen s (is ++ js) = leftOpen s is + leftOpen s js := by
  unfold leftOpen
  split
  · rfl
  · exact List.countP_append

theorem leftOpen_cons (s : Settings) (it : Item) (is : List Item) :
    leftOpen s (it :: is) = leftOpen s [it] + leftOpen s is := leftOpen_append s [it] is

theorem leftOpen_of_not_start {it : Item} (h : it.kind? ≠ some .classStart) :
    leftOpen s [it] = 0 := by
  have hit : it.isDocumentedClass = false := by
    cases it with
    | documented comment command =>
      exact decide_eq_false fun hk => h (congrArg some hk)
    | _ => rfl
  simp [leftOpen, hit]

theorem leftOpen_eq_zero_iff {is : List Item} :
    leftOpen s is = 0 ↔
      s.includes .classStart = true ∨ ∀ it ∈ is, it.isDocumentedClass = false := by
  cases hi : s.includes .classStart <;> simp [leftOpen, hi]

theorem pushed_length {it : Item} (h : it.kind? = some .classStart) (entry : Nat) :
    (pushed s entry it).length = leftOpen s [it] + 1 := by
  cases it with
  | documented comment command =>
    have hk : (Item.documented comment command).isDocumentedClass = true :=
      decide_eq_true (Option.some.inj h)
    cases hi : s.includes .classStart <;> simp [pushed, leftOpen, hi, hk]
  | plain command =>
    cases hi : s.includes .classStart <;> simp [pushed, leftOpen, hi, Item.isDocumentedClass]
  | moduleComment text => cases h
  | strayComment => cases h

theorem run_error_none {p : Progress} {is : List Item}
    (h : (is.foldl (item s) p).error = none) : p.error = none := by
  induction is generalizing p with
  | nil => exact h
  | cons it is ih => exact (item_passes (ih h)).1

theorem run_grows {p : Progress} {is : List Item} (hn : Named is)
    (h : (is.foldl (item s) p).error = none) :
    p.collector.Grows (is.foldl (item s) p).collector := by
  induction is generalizing p with
  | nil => exact .refl _
  | cons it is ih =>
    obtain ⟨hit, his⟩ := List.forall_mem_cons.mp hn
    have hpasses := (item_passes (run_error_none h)).2
    exact (hpasses.grows hit).trans (ih his h)

/-- Nested items leave what was on the stack before them. -/
theorem run_nested {p : Progress} {is : List Item} (hnest : Nested is) (hn : Named is)
    (h : (is.foldl (item s) p).error = none) :
    ∃ left, (is.foldl (item s) p).collector.classes = left ++ p.collector.classes ∧
      left.length = leftOpen s is := by
  induction hnest generalizing p with
  | nil => exact ⟨[], rfl, by simp [leftOpen]⟩
  | @other it rest hs he _ ih =>
    obtain ⟨-, hrest⟩ := List.forall_mem_cons.mp hn
    obtain ⟨left, hleft, hlen⟩ := ih hrest h
    have hkeeps := (item_passes (run_error_none h)).2.keeps hs he
    refine ⟨left, ?_, by rw [leftOpen_cons, leftOpen_of_not_start hs, hlen]; omega⟩
    rw [List.foldl_cons, hleft, hkeeps.classes_eq]
  | @block start stop inner rest hs he _ _ ihi ihr =>
    obtain ⟨hstart, hothers⟩ := List.forall_mem_cons.mp hn
    obtain ⟨hinner, hrest⟩ := List.forall_mem_append.mp hothers
    rw [List.foldl_cons, List.foldl_append, List.foldl_cons] at h ⊢
    obtain ⟨herror, hstop⟩ := item_passes (run_error_none h)
    obtain ⟨-, hopen⟩ := (item_passes (run_error_none herror)).2.opens hs (hstart hs)
    obtain ⟨left, hleft, hlen⟩ := ihi hinner herror
    obtain ⟨left', hleft', hlen'⟩ := ihr (List.forall_mem_cons.mp hrest).2 h
    obtain ⟨-, x, hx⟩ := hstop.closes he
    have hpushed := pushed_length hs p.collector.next (s := s)
    have hend : leftOpen s [stop] = 0 := leftOpen_of_not_start (by simp [he])
    -- The end of the class takes the topmost of what its inside and its start have put there.
    obtain ⟨y, ys, hys⟩ := List.exists_cons_of_length_pos
      (show 0 < (left ++ pushed s p.collector.next start).length by simp; omega)
    rw [hleft, hopen, ← List.append_assoc, hys, List.cons_append] at hx
    refine ⟨left' ++ ys, ?_, ?_⟩
    · rw [hleft', ← (List.cons.inj hx).2, List.append_assoc]
    · have hcount := congrArg List.length hys
      simp only [List.length_append, List.length_cons] at hcount ⊢
      rw [leftOpen_cons, leftOpen_append, leftOpen_cons s stop]
      omega

theorem modify_class_entry {i : Nat} {k : Class} (h : c.entries[i]? = some (.classDoc k))
    (f : Class → Class) :
    (c.modify i (Entry.mapClass f)).entries[i]? = some (.classDoc (f k)) := by
  simp [h, Entry.mapClass]

/-- A command that gets an entry puts what it declares into the innermost class. -/
theorem record_lists {command : Command} {doc : String} {logs : List LogRecord} {i : Nat}
    {outer : List (Option Nat)} {k k' : Class} (hc : c.classes = some i :: outer)
    (hk : c.entries[i]? = some (.classDoc k)) (h : record s doc command c = .ok (c', logs))
    (hk' : c'.entries[i]? = some (.classDoc k')) : k'.Lists doc command := by
  unfold Class.Lists
  split
  · next isConstructor name parentClass paramTypes hkind hs =>
    simp only [record_member hkind, addMember, hs, hc] at h
    cases h
    have heq := hk'.symm.trans (modify_class_entry hk _)
    cases heq
    cases isConstructor <;> simp [addToClass, Class.methods, Method.declared]
  · next parentClass name rest hkind hs =>
    simp only [record_classAttribute hkind, addAttribute, hs, hc] at h
    cases h
    have heq := hk'.symm.trans (modify_class_entry hk _)
    cases heq
    simp
  · trivial

namespace Passes

theorem lists {comment : String} {command : Command} {i : Nat} {outer : List (Option Nat)}
    {k : Class} (h : Passes s (.documented comment command) c c')
    (hn : command.kind = .classStart → command.singles ≠ [])
    (hc : c.classes = some i :: outer) (hk : c.entries[i]? = some (.classDoc k)) :
    ∃ k', c'.entries[i]? = some (.classDoc k') ∧ k.Extends k' ∧
      k'.Lists (Comment.clean comment) command := by
  have hgrows := h.grows fun hs cmd hcmd => by
    cases hcmd
    exact hn (Option.some.inj hs)
  obtain ⟨k', hk', hext⟩ := hgrows i k hk
  refine ⟨k', hk', hext, ?_⟩
  cases h with
  | @documented _ _ _ c₁ _ _ _ hr hf =>
    by_cases hs : command.kind = .classStart
    · simp [Class.Lists, hs]
    by_cases he : command.kind = .classEnd
    · simp [Class.Lists, he]
    · obtain ⟨k₁, hk₁, -⟩ := (record_keeps s _ hs c _ _ hr).grows i k hk
      obtain ⟨k₂, hk₂, hext₂⟩ := (follow_keeps s true hs he c₁ _ _ hf).grows i k₁ hk₁
      have heq := hk'.symm.trans hk₂
      cases heq
      exact hext₂.lists (record_lists hc hk hr hk₁)

theorem entry {comment : String} {start : Command} (h : Passes s (.documented comment start) c c')
    (hs : start.kind = .classStart) (hn : start.singles ≠ [])
    (hi : s.includes .classStart = true) :
    ∃ k, c'.entries[c.next]? = some (.classDoc k) ∧ start.singles.head? = some k.name := by
  cases h with
  | documented hr hf =>
    obtain ⟨-, -, k, hk, hname, -⟩ := openClass_spec hn (Comment.clean comment) c
    rw [record_classStart hs] at hr
    rw [follow_included hs hi] at hf
    have hc₁ := congrArg Prod.fst (Except.ok.inj hr)
    have hc' := congrArg Prod.fst (Except.ok.inj hf)
    dsimp only at hc₁ hc'
    rw [hc₁, hc'] at hk
    exact ⟨k, hk, hname⟩

end Passes

/-- How the open classes are kept while the items of a file are gone through. -/
structure ClassDiscipline (s : Settings) (is : List Item) : Prop where
  /-- A class that begins is put on the stack once. -/
  pushes_one : ∀ (before : List Item) (start : Item) (after : List Item),
    is = before ++ start :: after → start.kind? = some .classStart →
    ∃ x, (items s (before ++ [start]) empty).collector.classes =
      x :: (items s before empty).collector.classes
  all_closed : (items s is empty).collector.classes = []
  /-- What is declared with a comment directly inside a class that has a comment stands in the
  entry of that class. -/
  lists : ∀ (before : List Item) (comment : String) (start : Command) (inner : List Item)
    (text : String) (command : Command) (after : List Item),
    is = before ++ .documented comment start :: (inner ++ .documented text command :: after) →
    start.kind = .classStart → Nested inner →
    ∃ k : Class, (items s is empty).collector.entries[(items s before empty).collector.next]? =
        some (.classDoc k) ∧
      start.singles.head? = some k.name ∧ k.Lists (Comment.clean text) command

variable {is before inner after : List Item}

theorem pushes_one_of_leftOpen {start : Item} (heq : is = before ++ start :: after)
    (hn : Named is) (hl : leftOpen s is = 0) (h : (items s is empty).error = none)
    (hs : start.kind? = some .classStart) :
    ∃ x, (items s (before ++ [start]) empty).collector.classes =
      x :: (items s before empty).collector.classes := by
  subst heq
  rw [leftOpen_append, leftOpen_cons] at hl
  rw [items, List.foldl_append, List.foldl_cons] at h
  obtain ⟨-, hopen⟩ := (item_passes (run_error_none h)).2.opens hs (hn start (by simp) hs)
  have hpushed := pushed_length hs (items s before empty).collector.next (s := s)
  obtain ⟨x, hx⟩ := List.length_eq_one_iff.mp (hpushed.trans (by omega))
  refine ⟨x, ?_⟩
  rw [items, List.foldl_append, List.foldl_cons, List.foldl_nil, hopen]
  exact congrArg (· ++ _) hx

theorem lists_of_leftOpen {comment text : String} {start command : Command}
    (heq : is = before ++ .documented comment start :: (inner ++ .documented text command :: after))
    (hn : Named is) (hl : leftOpen s is = 0) (h : (items s is empty).error = none)
    (hs : start.kind = .classStart) (hnest : Nested inner) :
    ∃ k : Class, (items s is empty).collector.entries[(items s before empty).collector.next]? =
        some (.classDoc k) ∧
      start.singles.head? = some k.name ∧ k.Lists (Comment.clean text) command := by
  subst heq
  have hi : s.includes .classStart = true := by
    refine (leftOpen_eq_zero_iff.mp hl).resolve_right fun hnone => ?_
    have hclass := hnone (.documented comment start) (by simp)
    exact absurd hclass (by simp [Item.isDocumentedClass, hs])
  obtain ⟨-, hrest⟩ := List.forall_mem_append.mp hn
  obtain ⟨hstart, hrest⟩ := List.forall_mem_cons.mp hrest
  obtain ⟨hinner, hrest⟩ := List.forall_mem_append.mp hrest
  obtain ⟨hcommand, hafter⟩ := List.forall_mem_cons.mp hrest
  have hnamed := hstart (congrArg some hs) start rfl
  rw [items, List.foldl_append, List.foldl_cons, List.foldl_append, List.foldl_cons] at h ⊢
  obtain ⟨herror, hrecord⟩ := item_passes (run_error_none h)
  obtain ⟨-, hopen⟩ := item_passes (run_error_none herror)
  -- The class gets its entry and is on top of the stack, also behind the items inside it.
  obtain ⟨k, hk, hname⟩ := hopen.entry hs hnamed hi
  obtain ⟨-, hclasses⟩ := hopen.opens (congrArg some hs) (hstart (congrArg some hs))
  obtain ⟨left, hleft, hlen⟩ := run_nested hnest hinner herror
  have hnil : left = [] := List.eq_nil_of_length_eq_zero (by simpa [leftOpen, hi] using hlen)
  rw [hnil, hclasses, pushed, if_pos hi] at hleft
  obtain ⟨k₁, hk₁, hext₁⟩ := run_grows hinner herror _ k hk
  obtain ⟨k₂, hk₂, hext₂, hlists⟩ := hrecord.lists
    (fun hc => hcommand (congrArg some hc) command rfl) hleft hk₁
  obtain ⟨k₃, hk₃, hext₃⟩ := run_grows hafter h _ k₂ hk₂
  refine ⟨k₃, hk₃, ?_, hext₃.lists hlists⟩
  rw [hname, ((hext₁.trans hext₂).trans hext₃).name_eq]

/-- Nested classes with names are kept track of exactly if classes are included without a
comment or none has a comment. In any case one class stays open for each class that was put on
the stack twice. -/
theorem classDiscipline_iff (s : Settings) {is : List Item} (hnest : Nested is) (hn : Named is)
    (h : (items s is empty).error = none) :
    (items s is empty).collector.classes.length = leftOpen s is ∧
      (ClassDiscipline s is ↔
        s.includes .classStart = true ∨ ∀ it ∈ is, it.isDocumentedClass = false) := by
  obtain ⟨left, hleft, hlen⟩ := run_nested hnest hn h
  have hclasses : (items s is empty).collector.classes = left := by
    rw [items, hleft]
    exact List.append_nil left
  refine ⟨by rw [hclasses, hlen], ?_⟩
  rw [← leftOpen_eq_zero_iff]
  constructor
  · intro hd
    rw [← hlen, ← hclasses, hd.all_closed, List.length_nil]
  · intro hl
    refine ⟨?_, ?_, ?_⟩
    · intro before start after heq hs
      exact pushes_one_of_leftOpen heq hn hl h hs
    · rw [hclasses]
      exact List.eq_nil_of_length_eq_zero (hlen.trans hl)
    · intro before comment start inner text command after heq hs hinner
      exact lists_of_leftOpen heq hn hl h hs hinner

/-- A command on the first line with plain words as arguments. -/
def plainCommand (name : String) (words : List String) : Command :=
  ⟨name, words.map (.single .identifier), "", 1⟩

/-- A class with a comment, and in it a class without one. -/
def classInClass : List Item :=
  [.documented "#[[[\n# Outer.\n#]]" (plainCommand "cpp_class" ["Outer"]),
    .plain (plainCommand "cpp_class" ["Inner"]),
    .documented "#[[[\n# Some x.\n#]]" (plainCommand "cpp_attr" ["Inner", "x"]),
    .plain (plainCommand "cpp_end_class" []),
    .documented "#[[[\n# Does f.\n#]]" (plainCommand "cpp_member" ["f", "Outer", "int"]),
    .plain (plainCommand "cpp_end_class" [])]

theorem classInClass_discipline :
    Nested classInClass ∧ Named classInClass ∧
      (items default classInClass empty).error = none ∧ ClassDiscipline default classInClass := by
  have hinner : Nested [.documented "#[[[\n# Some x.\n#]]"
      (plainCommand "cpp_attr" ["Inner", "x"])] := .other (by decide) (by decide) .nil
  have hmember : Nested [.documented "#[[[\n# Does f.\n#]]"
      (plainCommand "cpp_member" ["f", "Outer", "int"])] := .other (by decide) (by decide) .nil
  have hnest : Nested classInClass :=
    .block (by decide) (by decide) (.block (by decide) (by decide) hinner hmember) .nil
  have hn : Named classInClass := by decide
  exact ⟨hnest, hn, rfl, (classDiscipline_iff default hnest hn rfl).2.mpr (.inl rfl)⟩

/-- Settings under which a class gets an entry only with a comment. -/
def commentedClassesOnly : Settings :=
  { (default : Settings) with includes := fun kind => kind ≠ .classStart }

/-- A class with a comment and nothing in it. -/
def emptyClass : List Item :=
  [.documented "#[[[\n# A\n#]]" (plainCommand "cpp_class" ["A"]),
    .plain (plainCommand "cpp_end_class" [])]

theorem emptyClass_stays_open :
    Nested emptyClass ∧ Named emptyClass ∧
      (items commentedClassesOnly emptyClass empty).error = none ∧
      ¬ ClassDiscipline commentedClassesOnly emptyClass := by
  refine ⟨.block (by decide) (by decide) .nil .nil, by decide, rfl, fun h => ?_⟩
  exact absurd h.all_closed (by decide)

end Collector

end CMakeDocs
