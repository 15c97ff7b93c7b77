import CMakeDocs.Proofs.Collecting.Origins
import Mathlib.Data.List.ReduceOption

/-!
# Classes as they are nested

The items of a file tell by themselves which classes there are, and what stands directly in each of
them: an inner class is counted by its start, and what lies between its start and its end belongs to
it alone. A collector knows only the stack of open classes. As long as every class is put there
once, the entries of the classes say what the items say.
-/
namespace CMakeDocs

namespace Command

variable (doc : String) (command : Command)

/-- The class that a command begins, before anything is declared in it. -/
def class? : Option Class :=
  match command.kind, command.singles with
  | .classStart, name :: superclasses => some ⟨name, doc, superclasses, [], [], [], []⟩
  | _, _ => none

/-- The method that a command declares, if it is a constructor or none as asked for. -/
def method? (isConstructor : Bool) : Option Method :=
  match command.kind, command.singles with
  | .member sort, name :: parentClass :: paramTypes =>
    if sort = isConstructor then
      some ⟨name, doc, parentClass, paramTypes, [], isConstructor, false⟩
    else none
  | _, _ => none

/-- The attribute that a command declares. -/
def attribute? : Option Attribute :=
  match command.kind, command.singles with
  | .classAttribute, parentClass :: name :: rest => some ⟨name, doc, parentClass, rest.head?⟩
  | _, _ => none

variable {command} in
theorem class?_eq_none (h : command.kind ≠ .classStart) : command.class? doc = none := by
  unfold class?
  split
  · next hk _ => exact absurd hk h
  · rfl

end Command

namespace Item

/-- A command with its documentation, which it has by a comment or because it is included without
one. -/
def recorded? (s : Settings) : Item → Option (String × Command)
  | documented comment command => some (Comment.clean comment, command)
  | plain command => if s.includes command.kind then some ("", command) else none
  | moduleComment _ | strayComment => none

theorem recorded?_plain {s : Settings} {command : Command} (h : s.includes command.kind = true) :
    (plain command).recorded? s = some ("", command) := if_pos h

theorem kind?_of_recorded {s : Settings} {it : Item} {doc : String} {command : Command}
    (h : it.recorded? s = some (doc, command)) : it.kind? = some command.kind := by
  cases it with
  | documented comment other =>
    cases h
    rfl
  | plain other =>
    by_cases hi : s.includes other.kind = true
    · rw [recorded?_plain hi] at h
      cases h
      rfl
    · simp [recorded?, hi] at h
  | moduleComment text => cases h
  | strayComment => cases h

variable (s : Settings) (it : Item)

def class? : Option Class := (it.recorded? s).bind fun (doc, command) => command.class? doc

def method? (isConstructor : Bool) : Option Method :=
  (it.recorded? s).bind fun (doc, command) => command.method? doc isConstructor

def attribute? : Option Attribute :=
  (it.recorded? s).bind fun (doc, command) => command.attribute? doc

end Item

/-- The items that stand directly in a class, out of those behind its start. Classes in it are told
by their starts; the depth counts how many of them are open. -/
def directly : Nat → List Item → List Item
  | _, [] => []
  | depth, it :: rest =>
    if it.kind? = some .classEnd then
      match depth with
      | 0 => []
      | depth + 1 => directly depth rest
    else
      (if depth = 0 then [it] else []) ++
        directly (if it.kind? = some .classStart then depth + 1 else depth) rest

/-- A class with what some items declare, each sort in the order of the items. -/
def Class.filled (s : Settings) (inside : List Item) (k : Class) : Class :=
  { k with
    innerClasses := k.innerClasses ++ (inside.filterMap (Item.class? s)).map Class.name
    constructors := k.constructors ++ inside.filterMap fun it => it.method? s true
    members := k.members ++ inside.filterMap fun it => it.method? s false
    attributes := k.attributes ++ inside.filterMap (Item.attribute? s) }

/-- The classes that items begin, in their order, each with what stands directly in it. -/
def classesIn (s : Settings) : List Item → List Class
  | [] => []
  | it :: rest =>
    ((it.class? s).map (Class.filled s (directly 0 rest))).toList ++ classesIn s rest

section Nested

variable {s : Settings} {it stop : Item} {is js : List Item}

theorem directly_end_zero (h : stop.kind? = some .classEnd) (js : List Item) :
    directly 0 (stop :: js) = [] := by
  simp [directly, h]

theorem directly_end_succ (h : stop.kind? = some .classEnd) (depth : Nat) (js : List Item) :
    directly (depth + 1) (stop :: js) = directly depth js := by
  simp [directly, h]

theorem directly_start (h : it.kind? = some .classStart) (depth : Nat) (js : List Item) :
    directly depth (it :: js) = (if depth = 0 then [it] else []) ++ directly (depth + 1) js := by
  simp [directly, h]

theorem directly_other (hs : it.kind? ≠ some .classStart) (he : it.kind? ≠ some .classEnd)
    (depth : Nat) (js : List Item) :
    directly depth (it :: js) = (if depth = 0 then [it] else []) ++ directly depth js := by
  simp [directly, hs, he]

/-- Nested items leave the depth as it is, and none of them is seen from inside another class. -/
theorem directly_append (h : Nested is) (depth : Nat) (js : List Item) :
    directly depth (is ++ js) =
      (if depth = 0 then directly 0 is else []) ++ directly depth js := by
  induction h generalizing depth js with
  | nil => simp [directly]
  | @other it rest hs he _ ih =>
    rw [List.cons_append, directly_other hs he, ih, directly_other hs he]
    split <;> simp
  | @block start stop inner rest hs he _ _ ihi ihr =>
    rw [List.cons_append, List.append_assoc, List.cons_append, directly_start hs, ihi,
      directly_end_succ he, ihr, directly_start hs, ihi, directly_end_succ he]
    split <;> simp

/-- What stands directly in a class ends where the class ends. -/
theorem directly_closed (h : Nested is) (he : stop.kind? = some .classEnd) (js : List Item) :
    directly 0 (is ++ stop :: js) = directly 0 is := by
  rw [directly_append h, directly_end_zero he]
  simp

theorem class?_of_ne_start (h : it.kind? ≠ some .classStart) : it.class? s = none := by
  cases hr : it.recorded? s with
  | none => simp [Item.class?, hr]
  | some found =>
    obtain ⟨doc, command⟩ := found
    have hk : command.kind ≠ .classStart := fun hk =>
      h ((Item.kind?_of_recorded hr).trans (congrArg some hk))
    simpa [Item.class?, hr] using Command.class?_eq_none doc hk

theorem classesIn_of_ne_start (h : it.kind? ≠ some .classStart) (js : List Item) :
    classesIn s (it :: js) = classesIn s js := by
  rw [classesIn, class?_of_ne_start h]
  rfl

theorem classesIn_append (h : Nested is) (s : Settings) (js : List Item) :
    classesIn s (is ++ js) = classesIn s is ++ classesIn s js := by
  induction h generalizing js with
  | nil => rfl
  | other hs _ _ ih =>
    rw [List.cons_append, classesIn_of_ne_start hs, classesIn_of_ne_start hs, ih]
  | @block start stop inner rest hs he hinner _ ihi ihr =>
    have hstop : stop.kind? ≠ some .classStart := by simp [he]
    rw [List.cons_append, List.append_assoc, List.cons_append, classesIn, classesIn,
      directly_closed hinner he, directly_closed hinner he, ihi, ihi,
      classesIn_of_ne_start hstop, classesIn_of_ne_start hstop, ihr]
    simp only [List.append_assoc]

theorem classesIn_block {start : Item} {k : Class} (hk : start.class? s = some k)
    (he : stop.kind? = some .classEnd) (h : Nested is) (js : List Item) :
    classesIn s (start :: (is ++ stop :: js)) =
      k.filled s (directly 0 is) :: (classesIn s is ++ classesIn s js) := by
  have hstop : stop.kind? ≠ some .classStart := by simp [he]
  rw [classesIn, hk, directly_closed h he, classesIn_append h, classesIn_of_ne_start hstop]
  rfl

end Nested

namespace Class

variable {s : Settings} {is js : List Item} {k : Class} {it : Item}

theorem filled_nil (s : Settings) (k : Class) : k.filled s [] = k := by
  simp [filled]

theorem filled_append (s : Settings) (is js : List Item) (k : Class) :
    k.filled s (is ++ js) = (k.filled s is).filled s js := by
  simp [filled]

/-- A class without what the definitions of its methods add to them. -/
def declared (k : Class) : Class :=
  { k with
    constructors := k.constructors.map Method.declared
    members := k.members.map Method.declared }

/-- What one command adds to the class that it stands in. -/
def receive (doc : String) (command : Command) (k : Class) : Class :=
  { k with
    innerClasses := k.innerClasses ++ (command.class? doc).toList.map Class.name
    constructors := k.constructors ++ (command.method? doc true).toList
    members := k.members ++ (command.method? doc false).toList
    attributes := k.attributes ++ (command.attribute? doc).toList }

theorem filled_of_recorded {doc : String} {command : Command}
    (h : it.recorded? s = some (doc, command)) : filled s [it] = receive doc command := by
  have hlist {α : Type} (f : Item → Option α) : [it].filterMap f = (f it).toList := by
    cases hf : f it <;> simp [hf]
  funext k
  simp only [filled, receive, hlist, Item.class?, Item.method?, Item.attribute?, h,
    Option.bind_some]

theorem filled_of_not_recorded (h : it.recorded? s = none) : filled s [it] = id := by
  funext k
  simp [filled, Item.class?, Item.method?, Item.attribute?, h]

theorem receive_eq_id {doc : String} {command : Command} (hs : command.kind ≠ .classStart)
    (hm : ∀ isConstructor, command.kind ≠ .member isConstructor)
    (ha : command.kind ≠ .classAttribute) : receive doc command = id := by
  have hclass := Command.class?_eq_none doc hs
  have hmethod (isConstructor : Bool) : command.method? doc isConstructor = none := by
    unfold Command.method?
    split
    · next hk _ => exact absurd hk (hm _)
    · rfl
  have hattribute : command.attribute? doc = none := by
    unfold Command.attribute?
    split
    · next hk _ => exact absurd hk ha
    · rfl
  funext k
  simp [receive, hclass, hmethod, hattribute]

end Class

/-- The class of an entry, as it was declared. -/
def Entry.outline? : Entry → Option Class
  | classDoc k => some k.declared
  | _ => none

namespace Collector

variable {s : Settings} {c c' : Collector} {is : List Item} {it : Item} {doc : String}
  {command : Command} {logs : List LogRecord}

/-- The entries of a collector by their classes. -/
def outlines (c : Collector) : List (Option Class) := c.entries.map Entry.outline?

theorem length_outlines (c : Collector) : c.outlines.length = c.next := by
  simp [outlines, next]

theorem outlines_append (c : Collector) (e : Entry) :
    (c.append e).outlines = c.outlines ++ [e.outline?] := by
  simp [outlines]

theorem outlines_modify {f : Entry → Entry} (hf : ∀ e, (f e).outline? = e.outline?)
    (c : Collector) (i : Nat) : (c.modify i f).outlines = c.outlines :=
  map_modify_eq hf c.entries i

/-- Changes the class with a number, if there is one. -/
def fill (i : Option Nat) (f : Class → Class) (ks : List (Option Class)) : List (Option Class) :=
  match i with
  | some i => ks.modify i (Option.map f)
  | none => ks

theorem fill_id (i : Option Nat) (ks : List (Option Class)) : fill i id ks = ks := by
  cases i with
  | none => rfl
  | some i =>
    have hid : (Option.map id : Option Class → Option Class) = id := by
      funext k
      simp
    rw [fill, hid, List.modify_id]

theorem fill_fill (i : Option Nat) (f g : Class → Class) (ks : List (Option Class)) :
    fill i g (fill i f ks) = fill i (g ∘ f) ks := by
  cases i with
  | none => rfl
  | some i => rw [fill, fill, fill, List.modify_modify_eq, Option.map_comp_map]

theorem length_fill (i : Option Nat) (f : Class → Class) (ks : List (Option Class)) :
    (fill i f ks).length = ks.length := by
  cases i with
  | none => rfl
  | some i => exact List.length_modify ..

/-- What is added behind does not matter to a class that is there already. -/
theorem fill_append {i : Option Nat} {ks : List (Option Class)} (h : ∀ j ∈ i, j < ks.length)
    (f : Class → Class) (more : List (Option Class)) :
    fill i f (ks ++ more) = fill i f ks ++ more := by
  cases i with
  | none => rfl
  | some i =>
    have hlt : i < ks.length := h i rfl
    have hlong : i < (ks ++ more).length := by
      rw [List.length_append]
      omega
    rw [fill, fill, List.modify_eq_take_cons_drop hlong, List.modify_eq_take_cons_drop hlt,
      List.take_append_of_le_length (Nat.le_of_lt hlt), List.getElem_append_left hlt,
      List.drop_append_of_le_length hlt, List.append_assoc]
    rfl

theorem fill_last (f : Class → Class) (ks : List (Option Class)) (k : Class) :
    fill (some ks.length) f (ks ++ [some k]) = ks ++ [some (f k)] := by
  have hlast := List.modifyTailIdx_add (List.modifyHead (Option.map f)) 0 ks [some k]
  exact hlast

theorem outlines_modifyClass {f g : Class → Class}
    (hf : ∀ k, (f k).declared = g k.declared) (c : Collector) (i : Nat) :
    (c.modify i (Entry.mapClass f)).outlines = fill (some i) g c.outlines := by
  have hentry (e : Entry) : (e.mapClass f).outline? = e.outline?.map g := by
    cases e with
    | classDoc k => exact congrArg some (hf k)
    | _ => rfl
  unfold outlines modify fill
  generalize c.entries = es
  induction es generalizing i with
  | nil => simp
  | cons e es ih =>
    cases i with
    | zero => simp [hentry]
    | succ i => simpa using ih i

theorem outlines_markKeywords (c : Collector) : c.markKeywords.outlines = c.outlines := by
  unfold markKeywords
  split
  · refine outlines_modify (fun e => ?_) c _
    cases e <;> rfl
  · rfl

theorem outlines_link (c : Collector) (isMacro : Bool) (params : List String)
    (awaiting : Awaiting) : (c.link isMacro params awaiting).outlines = c.outlines := by
  cases awaiting with
  | unitTest i =>
    refine outlines_modify (fun e => ?_) c i
    cases e <;> rfl
  | method i isConstructor j =>
    -- The definition of a method changes nothing of how it was declared.
    have hmethods (ms : List Method) : (ms.modify j fun m =>
        { m with isMacro := isMacro, params := m.params ++ params }).map Method.declared =
        ms.map Method.declared := by
      rw [map_modify_eq]
      exact fun m => rfl
    have hsame := outlines_modifyClass (g := id) (f := fun k =>
      if isConstructor then
        { k with constructors := k.constructors.modify j fun m =>
            { m with isMacro := isMacro, params := m.params ++ params } }
      else
        { k with members := k.members.modify j fun m =>
            { m with isMacro := isMacro, params := m.params ++ params } })
      (fun k => by cases isConstructor <;> simp [Class.declared, hmethods]) c i
    rw [fill_id] at hsame
    exact hsame

/-- What a class receives from a method is what a collector adds to it. -/
theorem declared_addToClass {isConstructor : Bool} {name parentClass : String}
    {paramTypes : List String} (hk : command.kind = .member isConstructor)
    (hs : command.singles = name :: parentClass :: paramTypes) (k : Class) :
    (addToClass ⟨name, doc, parentClass, paramTypes, [], isConstructor, false⟩ k).declared =
      k.declared.receive doc command := by
  cases isConstructor <;>
    simp [addToClass, Class.declared, Class.receive, Command.class?, Command.method?,
      Command.attribute?, hk, hs, Method.declared]

theorem outlines_addMember {isConstructor : Bool} (hk : command.kind = .member isConstructor) :
    (addMember isConstructor doc command c).1.outlines =
      fill c.innermost (Class.receive doc command) c.outlines := by
  have hshort (hfew : ∀ name parentClass paramTypes,
      command.singles ≠ name :: parentClass :: paramTypes) : Class.receive doc command = id := by
    have hmethod (sort : Bool) : command.method? doc sort = none := by
      unfold Command.method?
      split
      · next hs => exact absurd hs (hfew _ _ _)
      · rfl
    funext k
    simp [Class.receive, Command.class?, Command.attribute?, hk, hmethod]
  unfold addMember
  split
  · next name parentClass paramTypes hs =>
    unfold innermost
    split
    · next hc => rw [hc]; rfl
    · next hc => rw [hc]; rfl
    · next i _ hc =>
      rw [hc]
      exact outlines_modifyClass (declared_addToClass hk hs) c i
  · next hfew => rw [hshort hfew, fill_id]

theorem outlines_addAttribute (hk : command.kind = .classAttribute) :
    (addAttribute doc command c).1.outlines =
      fill c.innermost (Class.receive doc command) c.outlines := by
  have hshort (hfew : ∀ parentClass name rest,
      command.singles ≠ parentClass :: name :: rest) : Class.receive doc command = id := by
    have hattribute : command.attribute? doc = none := by
      unfold Command.attribute?
      split
      · next hs => exact absurd hs (hfew _ _ _)
      · rfl
    funext k
    simp [Class.receive, Command.class?, Command.method?, hk, hattribute]
  unfold addAttribute
  split
  · next parentClass name rest hs =>
    unfold innermost
    split
    · next hc => rw [hc]; rfl
    · next hc => rw [hc]; rfl
    · next i _ hc =>
      rw [hc]
      refine outlines_modifyClass (fun k => ?_) c i
      simp [Class.declared, Class.receive, Command.class?, Command.method?, Command.attribute?, hk,
        hs]
  · next hfew => rw [hshort hfew, fill_id]

/-- A command that is recorded and is no class adds what it declares to the innermost class, and no
class. -/
theorem outlines_record (hs : command.kind ≠ .classStart)
    (h : record s doc command c = .ok (c', logs)) :
    ∃ n, c'.outlines =
      fill c.innermost (Class.receive doc command) c.outlines ++ List.replicate n none := by
  by_cases hm : ∃ isConstructor, command.kind = .member isConstructor
  · obtain ⟨isConstructor, hk⟩ := hm
    rw [record_member hk] at h
    rw [← outlines_addMember hk, Except.ok.inj h]
    exact ⟨0, by simp⟩
  by_cases ha : command.kind = .classAttribute
  · rw [record_classAttribute ha] at h
    rw [← outlines_addAttribute ha, Except.ok.inj h]
    exact ⟨0, by simp⟩
  -- All other commands leave the classes alone.
  rw [Class.receive_eq_id hs (fun isConstructor hk => hm ⟨isConstructor, hk⟩) ha, fill_id]
  obtain ⟨change, hr, rfl⟩ := records_of_ok h
  have hsuits := hr.suits
  generalize command.kind = kind at hsuits hs hm ha
  cases hsuits with
  | define isMacro d => exact ⟨1, outlines_append c _⟩
  | keywords => exact ⟨0, by simp [Change.apply, outlines_markKeywords]⟩
  | await isSection t => exact ⟨1, outlines_append c _⟩
  | beginClass => exact absurd rfl hs
  | @declare isConstructor => exact absurd ⟨isConstructor, rfl⟩ hm
  | hold => exact absurd rfl ha
  | @add _ e hk he =>
    have hnone : e.outline? = none := by
      cases e with
      | classDoc k => exact absurd rfl (Change.Suits.ne_classDoc (.add hk he) k)
      | _ => rfl
    refine ⟨1, ?_⟩
    rw [Change.apply, outlines_append, hnone]
    rfl
  | nothing => exact ⟨0, by simp [Change.apply]⟩

/-- A command that is followed changes no class if its comment has been dealt with or if it is not
recorded without one. -/
theorem outlines_follow {hasComment : Bool}
    (hr : hasComment = true ∨ isRecorded s c.awaiting.isSome command.kind = false)
    (h : follow s hasComment command c = .ok (c', logs)) : c'.outlines = c.outlines := by
  unfold outlines
  rcases follow_entries hr h with he | he | ⟨isMacro, params, awaiting, he⟩
  · rw [he]
  · rw [he]
    exact outlines_markKeywords c
  · rw [he]
    exact outlines_link c isMacro params awaiting

/-- A class that begins is added behind all others, and by its name to the innermost one. -/
theorem openClass_outlines (doc : String) (hk : command.kind = .classStart)
    (hn : command.singles ≠ []) (hin : ∀ i ∈ c.innermost, i < c.next) :
    ∃ k, command.class? doc = some k ∧
      (openClass doc command c).1.classes = some c.next :: c.classes ∧
      (openClass doc command c).1.outlines =
        fill c.innermost (Class.receive doc command) c.outlines ++ [some k] := by
  obtain ⟨name, superclasses, hs⟩ := List.exists_cons_of_ne_nil hn
  have hclass : command.class? doc = some ⟨name, doc, superclasses, [], [], [], []⟩ := by
    simp [Command.class?, hk, hs]
  refine ⟨_, hclass, ?_⟩
  have hlong : ∀ i ∈ c.innermost, i < c.outlines.length := by
    rw [length_outlines]
    exact hin
  rw [← fill_append hlong]
  unfold innermost openClass
  rw [hs]
  dsimp only
  split
  · next i _ hc =>
    rw [hc]
    refine ⟨rfl, (outlines_modifyClass (g := Class.receive doc command) (fun k => ?_) _ i).trans ?_⟩
    · simp [Class.declared, Class.receive, hclass, Command.method?, Command.attribute?, hk]
    · rw [outlines_append]
      rfl
  · next hc =>
    refine ⟨rfl, ?_⟩
    have hnone : c.classes.head?.join = none := by
      match hclasses : c.classes with
      | [] => rfl
      | none :: _ => rfl
      | some i :: rest => exact absurd hclasses (hc i rest)
    rw [hnone]
    exact outlines_append c _

/-- An item that begins no class adds what it declares to the innermost class, and no class. -/
theorem outlines_pass (hs : it.kind? ≠ some .classStart) (h : pass s c it = .ok c') :
    ∃ n, c'.outlines =
      fill c.innermost (Class.filled s [it]) c.outlines ++ List.replicate n none := by
  cases it with
  | moduleComment text =>
    cases h
    refine ⟨1, ?_⟩
    rw [Class.filled_of_not_recorded rfl, fill_id]
    exact outlines_append c _
  | documented comment command =>
    obtain ⟨c₁, logs₁, logs₂, hr, hf⟩ := pass_documented.mp h
    rw [Class.filled_of_recorded rfl, outlines_follow (.inl rfl) hf]
    exact outlines_record (fun hk => hs (congrArg some hk)) hr
  | plain command =>
    obtain ⟨logs, hf⟩ := pass_plain.mp h
    have hstart : command.kind ≠ .classStart := fun hk => hs (congrArg some hk)
    by_cases hrec : isRecorded s c.awaiting.isSome command.kind = true
    · have hincluded : s.includes command.kind = true := by
        unfold isRecorded at hrec
        split at hrec
        · exact (Bool.and_eq_true_iff.mp hrec).2
        all_goals simp_all
      rw [follow_of_isRecorded hrec] at hf
      rw [Class.filled_of_recorded (Item.recorded?_plain hincluded)]
      exact outlines_record hstart hf
    · have hnothing : Class.filled s [Item.plain command] = id := by
        by_cases hincluded : s.includes command.kind = true
        · rw [Class.filled_of_recorded (Item.recorded?_plain hincluded)]
          refine Class.receive_eq_id hstart (fun isConstructor hk => ?_) fun hk => ?_
          · rw [hk] at hrec hincluded
            exact hrec hincluded
          · rw [hk] at hrec hincluded
            exact hrec hincluded
        · exact Class.filled_of_not_recorded (if_neg hincluded)
      rw [outlines_follow (.inr (eq_false_of_ne_true hrec)) hf, hnothing, fill_id]
      exact ⟨0, by simp⟩
  | strayComment =>
    cases h
    rw [Class.filled_of_not_recorded rfl, fill_id]
    exact ⟨0, by simp⟩

/-- The end of a class declares nothing. -/
theorem outlines_pass_end (he : it.kind? = some .classEnd) (h : pass s c it = .ok c') :
    ∃ n, c'.outlines = c.outlines ++ List.replicate n none := by
  have hnothing : Class.filled s [it] = id := by
    cases hr : it.recorded? s with
    | none => exact Class.filled_of_not_recorded hr
    | some found =>
      obtain ⟨doc, command⟩ := found
      have hk : command.kind = .classEnd :=
        Option.some.inj ((Item.kind?_of_recorded hr).symm.trans he)
      rw [Class.filled_of_recorded hr]
      exact Class.receive_eq_id (by simp [hk]) (by simp [hk]) (by simp [hk])
  have hpass := outlines_pass (by simp [he]) h
  rwa [hnothing, fill_id] at hpass

/-- An item that begins a class. -/
theorem outlines_pass_start (hi : s.includes .classStart = true)
    (hs : it.kind? = some .classStart) (hn : ∀ command ∈ it.command?, command.singles ≠ [])
    (hin : ∀ i ∈ c.innermost, i < c.next) (h : pass s c it = .ok c') :
    ∃ k, it.class? s = some k ∧ c'.classes = some c.next :: c.classes ∧
      c'.outlines = fill c.innermost (Class.filled s [it]) c.outlines ++ [some k] := by
  cases it with
  | moduleComment text => cases hs
  | documented comment command =>
    have hk := Option.some.inj hs
    obtain ⟨c₁, logs₁, logs₂, hr, hf⟩ := pass_documented.mp h
    rw [record_classStart hk] at hr
    rw [follow_included hk hi] at hf
    have hc₁ : c₁ = c' := congrArg Prod.fst (Except.ok.inj hf)
    have hopen := openClass_outlines (Comment.clean comment) hk (hn command rfl) hin
    rw [Except.ok.inj hr, hc₁] at hopen
    rw [Class.filled_of_recorded rfl]
    exact hopen
  | plain command =>
    have hk := Option.some.inj hs
    obtain ⟨logs, hf⟩ := pass_plain.mp h
    rw [follow_included hk hi] at hf
    have hrecorded := Item.recorded?_plain (hk.symm ▸ hi : s.includes command.kind = true)
    have hopen := openClass_outlines "" hk (hn command rfl) hin
    rw [Except.ok.inj hf] at hopen
    rw [Class.filled_of_recorded hrecorded, Item.class?, hrecorded]
    exact hopen
  | strayComment => cases hs

/-- A collector in which the innermost class is one of the entries. -/
def Anchored (c : Collector) : Prop := ∀ i ∈ c.innermost, i < c.next

/-- What becomes of a collector when its innermost class takes in what some items declare, and some
classes are added. -/
structure TakesIn (s : Settings) (inside : List Item) (added : List Class) (c c' : Collector) :
    Prop where
  classes_eq : c'.classes = c.classes
  outlines_eq : ∃ more, more.reduceOption = added ∧
    c'.outlines = fill c.innermost (Class.filled s inside) c.outlines ++ more

namespace TakesIn

variable {inside more : List Item} {added others : List Class} {c'' : Collector}

theorem innermost_eq (h : TakesIn s inside added c c') : c'.innermost = c.innermost := by
  rw [innermost, innermost, h.classes_eq]

theorem refl (s : Settings) (c : Collector) : TakesIn s [] [] c c := by
  have hid : Class.filled s [] = id := funext (Class.filled_nil s)
  refine ⟨rfl, [], rfl, ?_⟩
  rw [hid, fill_id, List.append_nil]

theorem anchored (h : TakesIn s inside added c c') (hc : c.Anchored) : c'.Anchored := by
  obtain ⟨more, -, houtlines⟩ := h.outlines_eq
  have hlength := congrArg List.length houtlines
  rw [List.length_append, length_fill, length_outlines, length_outlines] at hlength
  intro i hi
  rw [h.innermost_eq] at hi
  have hlt := hc i hi
  omega

theorem trans (hc : c.Anchored) (h : TakesIn s inside added c c')
    (h' : TakesIn s more others c' c'') : TakesIn s (inside ++ more) (added ++ others) c c'' := by
  obtain ⟨new, hnew, houtlines⟩ := h.outlines_eq
  obtain ⟨new', hnew', houtlines'⟩ := h'.outlines_eq
  have hlong : ∀ i ∈ c.innermost,
      i < (fill c.innermost (Class.filled s inside) c.outlines).length := by
    rw [length_fill, length_outlines]
    exact hc
  have hfilled : Class.filled s (inside ++ more) = Class.filled s more ∘ Class.filled s inside :=
    funext (Class.filled_append s inside more)
  refine ⟨h'.classes_eq.trans h.classes_eq, new ++ new', ?_, ?_⟩
  · rw [List.reduceOption_append, hnew, hnew']
  · rw [houtlines', houtlines, h.innermost_eq, fill_append hlong, fill_fill, hfilled,
      List.append_assoc]

end TakesIn

theorem takesIn_other (hs : it.kind? ≠ some .classStart) (he : it.kind? ≠ some .classEnd)
    {p : Progress} (h : (item s p it).error = none) :
    TakesIn s [it] [] p.collector (item s p it).collector := by
  obtain ⟨n, houtlines⟩ := outlines_pass hs (pass_of_error_none h).2
  exact ⟨((item_passes h).2.keeps hs he).classes_eq, _, List.reduceOption_replicate_none, houtlines⟩

/-- A class from its start to its end: what lies between goes into the class, which is then complete
and is added with the classes in it. -/
theorem takesIn_block {start stop : Item} {c₁ c₂ c₃ : Collector} {inside : List Item}
    {added : List Class} (hi : s.includes .classStart = true)
    (hs : start.kind? = some .classStart) (hn : ∀ command ∈ start.command?, command.singles ≠ [])
    (he : stop.kind? = some .classEnd) (hc : c.Anchored) (hstart : pass s c start = .ok c₁)
    (hinner : c₁.Anchored → TakesIn s inside added c₁ c₂) (hstop : pass s c₂ stop = .ok c₃)
    (hclose : ∃ x, c₂.classes = x :: c₃.classes) :
    ∃ k, start.class? s = some k ∧
      TakesIn s [start] (k.filled s inside :: added) c c₃ := by
  obtain ⟨k, hk, hclasses, houtlines⟩ := outlines_pass_start hi hs hn hc hstart
  have hinnermost : c₁.innermost = some c.next := by
    rw [innermost, hclasses]
    rfl
  have hlength : (fill c.innermost (Class.filled s [start]) c.outlines).length = c.next := by
    rw [length_fill, length_outlines]
  have hanchored : c₁.Anchored := by
    intro i hmem
    rw [hinnermost] at hmem
    cases hmem
    rw [← length_outlines c₁, houtlines, List.length_append, hlength, List.length_singleton]
    omega
  have htakes := hinner hanchored
  obtain ⟨new, hnew, houtlines₂⟩ := htakes.outlines_eq
  obtain ⟨n, houtlines₃⟩ := outlines_pass_end he hstop
  obtain ⟨x, hx⟩ := hclose
  rw [htakes.classes_eq, hclasses] at hx
  refine ⟨k, hk, (List.cons.inj hx).2.symm,
    some (k.filled s inside) :: (new ++ List.replicate n none), ?_, ?_⟩
  · rw [List.reduceOption_cons_of_some, List.reduceOption_append, hnew,
      List.reduceOption_replicate_none, List.append_nil]
  · rw [houtlines₃, houtlines₂, hinnermost, houtlines, ← hlength, fill_last, List.append_assoc,
      List.append_assoc]
    rfl

/-- Nested items put into the innermost class what stands directly among them, and add their
classes. -/
theorem run_takesIn (hi : s.includes .classStart = true) {p : Progress} (hnest : Nested is)
    (hn : Named is) (hc : p.collector.Anchored) (h : (is.foldl (item s) p).error = none) :
    TakesIn s (directly 0 is) (classesIn s is) p.collector (is.foldl (item s) p).collector := by
  induction hnest generalizing p with
  | nil => exact .refl s p.collector
  | @other it rest hs he _ ih =>
    have hit := takesIn_other hs he (run_error_none h)
    rw [directly_other hs he, classesIn_of_ne_start hs]
    exact hit.trans hc (ih (List.forall_mem_cons.mp hn).2 (hit.anchored hc) h)
  | @block start stop inner rest hs he hinner hrest ihi ihr =>
    obtain ⟨hnstart, hothers⟩ := List.forall_mem_cons.mp hn
    obtain ⟨hninner, hnrest⟩ := List.forall_mem_append.mp hothers
    rw [List.foldl_cons, List.foldl_append, List.foldl_cons] at h ⊢
    obtain ⟨hinner_ok, hstop⟩ := pass_of_error_none (run_error_none h)
    obtain ⟨-, hstart⟩ := pass_of_error_none (run_error_none hinner_ok)
    obtain ⟨-, hclose⟩ := (item_passes (run_error_none h)).2.closes he
    obtain ⟨k, hk, hblock⟩ := takesIn_block hi hs (hnstart hs) he hc hstart
      (fun hc₁ => ihi hninner hc₁ hinner_ok) hstop hclose
    rw [directly_start hs, directly_append hinner, directly_end_succ he,
      classesIn_block hk he hinner]
    exact hblock.trans hc (ihr (List.forall_mem_cons.mp hnrest).2 (hblock.anchored hc) h)

/-- With classes included, the entries of the classes of nested items are, in order, the classes
that the items begin, each with what stands directly in it; and no class is left open. -/
theorem classes_mirror_nesting (s : Settings) (is : List Item)
    (hi : s.includes .classStart = true) (hnest : Nested is) (hn : Named is)
    (h : (items s is empty).error = none) :
    (items s is empty).collector.entries.filterMap Entry.outline? = classesIn s is ∧
      (items s is empty).collector.classes = [] := by
  have hanchored : (Progress.start empty).collector.Anchored := by
    intro i hmem
    cases hmem
  have htakes := run_takesIn hi hnest hn hanchored h
  obtain ⟨more, hmore, houtlines⟩ := htakes.outlines_eq
  refine ⟨?_, htakes.classes_eq⟩
  have hentries : (items s is empty).collector.outlines = more := houtlines
  rw [← hmore, ← hentries, outlines, List.reduceOption, List.filterMap_map]
  rfl

/-- Settings under which an attribute is listed only with a comment. -/
def commentedAttributesOnly : Settings :=
  { (default : Settings) with includes := fun kind => kind ≠ .classAttribute }

/-- A class in another one, with a method before it and attributes behind it, and a third class. -/
def classesAndParts : List Item :=
  [.documented "#[[[\n# Outer.\n#]]" (plainCommand "cpp_class" ["Outer", "Base"]),
    .plain (plainCommand "cpp_member" ["run", "Outer", "int"]),
    .plain (plainCommand "function" ["run", "self", "x"]),
    .plain (plainCommand "endfunction" []),
    .plain (plainCommand "cpp_class" ["Inner"]),
    .plain (plainCommand "cpp_constructor" ["CTOR", "Inner"]),
    .documented "#[[[\n# Some x.\n#]]" (plainCommand "cpp_attr" ["Inner", "x", "1"]),
    .plain (plainCommand "cpp_end_class" []),
    .plain (plainCommand "cpp_attr" ["Outer", "y"]),
    .documented "#[[[\n# Some z.\n#]]" (plainCommand "cpp_attr" ["Outer", "z"]),
    .plain (plainCommand "cpp_end_class" []),
    .plain (plainCommand "cpp_class" ["Other"]),
    .plain (plainCommand "cpp_end_class" [])]

theorem classesAndParts_mirror_nesting :
    Nested classesAndParts ∧ Named classesAndParts ∧
      (items commentedAttributesOnly classesAndParts empty).error = none ∧
      (items commentedAttributesOnly classesAndParts empty).collector.entries.filterMap
          Entry.outline? =
        [⟨"Outer", "Outer.\n", ["Base"], ["Inner"], [],
            [⟨"run", "", "Outer", ["int"], [], false, false⟩], [⟨"z", "Some z.\n", "Outer", none⟩]⟩,
          ⟨"Inner", "", [], [], [⟨"CTOR", "", "Inner", [], [], true, false⟩], [],
            [⟨"x", "Some x.\n", "Inner", some "1"⟩]⟩,
          ⟨"Other", "", [], [], [], [], []⟩] ∧
      (items commentedAttributesOnly classesAndParts empty).collector.classes = [] := by
  have hnest : Nested classesAndParts :=
    .block (by decide) (by decide)
      (.other (by decide) (by decide) (.other (by decide) (by decide)
        (.other (by decide) (by decide) (.block (by decide) (by decide)
          (.other (by decide) (by decide) (.other (by decide) (by decide) .nil))
          (.other (by decide) (by decide) (.other (by decide) (by decide) .nil))))))
      (.block (by decide) (by decide) .nil .nil)
  have hn : Named classesAndParts := by decide
  obtain ⟨hclasses, hclosed⟩ := classes_mirror_nesting commentedAttributesOnly classesAndParts rfl
    hnest hn rfl
  exact ⟨hnest, hn, rfl, hclasses.trans rfl, hclosed⟩

end Collector

end CMakeDocs
