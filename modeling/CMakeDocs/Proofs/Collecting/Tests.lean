import CMakeDocs.Proofs.Collecting.Entering
import CMakeDocs.Reader.Rules

/-!
# Tests by their arguments

The arguments of a test are looked through one after the other for keywords, in any spelling. What
stands behind the keyword for the name is the name of the test, but it is looked at again as if it
were a keyword itself. For the parameters of a test the keyword and the name are taken out by what
they are and not by where they stand, and there the keyword counts in capitals only.
-/
namespace CMakeDocs.Collector

variable {args before after rest : List String} {keyword name : String}

theorem nameAfter?_keyword (h : Text.isSpellingOf "NAME" keyword = true) (other name : String)
    (rest : List String) :
    nameAfter? other (keyword :: name :: rest) = nameAfter? name (name :: rest) := by
  rw [nameAfter?, if_pos h]

theorem nameAfter?_append (h : ∀ a ∈ before, Text.isSpellingOf "NAME" a = false) (name : String)
    (rest : List String) : nameAfter? name (before ++ rest) = nameAfter? name rest := by
  induction before with
  | nil => rfl
  | cons a before ih =>
    obtain ⟨ha, hbefore⟩ := List.forall_mem_cons.mp h
    rw [List.cons_append, nameAfter?.eq_def]
    simp [ha, ih hbefore]

/-- Without a keyword the name stays what it is. -/
theorem nameAfter?_of_forall (h : ∀ a ∈ args, Text.isSpellingOf "NAME" a = false)
    (name : String) : nameAfter? name args = some name := by
  have happend := nameAfter?_append h name []
  rwa [List.append_nil] at happend

theorem nameAfter?_once (hk : Text.isSpellingOf "NAME" keyword = true)
    (h : ∀ a ∈ before ++ name :: after, Text.isSpellingOf "NAME" a = false) (other : String) :
    nameAfter? other (before ++ keyword :: name :: after) = some name := by
  obtain ⟨hbefore, hrest⟩ := List.forall_mem_append.mp h
  rw [nameAfter?_append hbefore, nameAfter?_keyword hk, nameAfter?_of_forall hrest]

/-- The one keyword, and the name behind it, split the arguments. -/
theorem exists_split_of_countP {p : String → Bool} {i : Nat} (hi : i + 1 < args.length)
    (hone : args.countP p = 1) (hk : p args[i] = true) :
    args = args.take i ++ args[i] :: args[i + 1] :: args.drop (i + 2) ∧
      ∀ a ∈ args.take i ++ args[i + 1] :: args.drop (i + 2), p a = false := by
  have hsplit : args = args.take i ++ args[i] :: args[i + 1] :: args.drop (i + 2) := by
    rw [← List.drop_eq_getElem_cons, ← List.drop_eq_getElem_cons, List.take_append_drop]
  refine ⟨hsplit, ?_⟩
  have hnone : (args.take i ++ args[i + 1] :: args.drop (i + 2)).countP p = 0 := by
    have hcount := congrArg (List.countP p) hsplit
    rw [hone, List.countP_append, List.countP_cons_of_pos hk] at hcount
    rw [List.countP_append]
    omega
  simpa using List.countP_eq_zero.mp hnone

/-- Taking out the keyword in capitals and all that is like the name leaves the other arguments
just if the keyword is in capitals and no other argument is like the name. -/
theorem filter_leaves_others_iff (hk : Text.isSpellingOf "NAME" keyword = true)
    (h : ∀ a ∈ before ++ name :: after, Text.isSpellingOf "NAME" a = false) :
    (before ++ keyword :: name :: after).filter (fun a => a ≠ name ∧ a ≠ "NAME") =
        before ++ after ↔ keyword = "NAME" ∧ name ∉ before ++ after := by
  have hname : keyword ≠ name := by
    rintro rfl
    simp [h] at hk
  have hothers : ∀ a ∈ before ++ after, a ≠ keyword ∧ a ≠ "NAME" := by
    intro a ha
    have hno : Text.isSpellingOf "NAME" a = false := by
      refine h a ?_
      rcases List.mem_append.mp ha with ha | ha <;> simp [ha]
    constructor
    · rintro rfl
      simp [hno] at hk
    · rintro rfl
      exact absurd hno (by decide)
  constructor
  · intro heq
    constructor
    · by_contra hne
      have hmem : keyword ∈ before ++ after := by
        rw [← heq]
        simp [hname, hne]
      exact (hothers keyword hmem).1 rfl
    · intro hmem
      rw [← heq] at hmem
      simp at hmem
  · rintro ⟨rfl, hfresh⟩
    have hkept : ∀ a ∈ before ++ after, a ≠ name ∧ a ≠ "NAME" := by
      intro a ha
      exact ⟨fun heq => hfresh (heq ▸ ha), (hothers a ha).2⟩
    obtain ⟨hbefore, hafter⟩ := List.forall_mem_append.mp hkept
    rw [List.filter_append, List.filter_cons_of_neg (by simp), List.filter_cons_of_neg (by simp),
      List.filter_eq_self.mpr (by simpa using hbefore),
      List.filter_eq_self.mpr (by simpa using hafter)]

variable (s : Settings) (doc : String) {command : Command}

theorem record_named_test (hk : command.kind = .test) (hlength : 2 ≤ command.singles.length)
    (hname : nameAfter? "" command.singles = some name) (c : Collector) :
    record s doc command c = .ok (c.append (.test ⟨name, doc,
      command.singles.filter fun a => a ≠ name ∧ a ≠ "NAME"⟩), []) := by
  have henough : ¬ command.singles.length < 2 := Nat.not_lt.mpr hlength
  simp only [record_test hk, addTest, henough, if_false, hname]

/-- A test with one keyword for its name, whatever its other arguments are, gets an entry with the
argument behind the keyword as its name. Its parameters are all other arguments, in their places,
just if the keyword is in capitals and the name occurs nowhere else. -/
theorem test_keeps_arguments_iff (s : Settings) (c : Collector) (before : List Item) (it : Item)
    (doc : String) (command : Command) (i : Nat) (hfree : (items s before c).error = none)
    (hit : it.recorded? s = some (doc, command)) (hkind : command.kind = .test)
    (hi : i + 1 < command.singles.length)
    (hone : command.singles.countP (Text.isSpellingOf "NAME") = 1)
    (hkeyword : Text.isSpellingOf "NAME" command.singles[i] = true) :
    ∃ params, Enters s c before it [.test ⟨command.singles[i + 1], doc, params⟩] ∧
      params = command.singles.filter
        (fun a => a ≠ command.singles[i + 1] ∧ a ≠ "NAME") ∧
      (params = command.singles.take i ++ command.singles.drop (i + 2) ↔
        command.singles[i] = "NAME" ∧
          command.singles[i + 1] ∉ command.singles.take i ++ command.singles.drop (i + 2)) := by
  obtain ⟨hsplit, hothers⟩ := exists_split_of_countP hi hone hkeyword
  have hname : nameAfter? "" command.singles = some command.singles[i + 1] := by
    have honce := nameAfter?_once hkeyword hothers ""
    rwa [← hsplit] at honce
  have hsettled : command.kind.isSettled = true := by
    rw [hkind]
    rfl
  have hrecord := record_named_test s doc hkind (by omega) hname
    (items s before c).collector
  have hiff := filter_leaves_others_iff hkeyword hothers
  rw [← hsplit] at hiff
  exact ⟨_, enters_of_pass hfree (pass_of_recorded hsettled hit hrecord) rfl, rfl, hiff⟩

/-- The name of the test stands between other arguments. -/
def nameInBetween : Item :=
  .documented "#[[[\n# Runs.\n#]]"
    (plainCommand "add_test" ["COMMAND", "run", "NAME", "quick", "-v"])

theorem nameInBetween_keeps_arguments : ∃ params,
    Enters default empty [.plain (plainCommand "cpp_class" ["A"])] nameInBetween
        [.test ⟨"quick", "Runs.\n", params⟩] ∧ params = ["COMMAND", "run", "-v"] := by
  obtain ⟨params, henters, hparams, -⟩ := test_keeps_arguments_iff default empty
    [.plain (plainCommand "cpp_class" ["A"])] nameInBetween "Runs.\n"
    (plainCommand "add_test" ["COMMAND", "run", "NAME", "quick", "-v"]) 2 rfl rfl rfl (by decide)
    (by decide) (by decide)
  exact ⟨params, henters, hparams.trans (by decide)⟩

/-- The command of the test has the name of the test. -/
def commandNamedAlike : String := "#[[[\n# Doc.\n#]]\nadd_test(NAME foo COMMAND foo)\n"

theorem commandNamedAlike_lost : ∃ tree,
    (Reader.file (Reader.start commandNamedAlike)).tree? = some tree ∧
      Item.ofFile tree = [.documented "#[[[\n# Doc.\n#]]" ⟨"add_test",
        ["NAME", "foo", "COMMAND", "foo"].map (.single .identifier),
        "add_test(NAMEfooCOMMANDfoo)", 4⟩] ∧
      (file default tree empty).error = none ∧
      (file default tree empty).collector.entries = [.test ⟨"foo", "Doc.\n", ["COMMAND"]⟩] := by
  have hitems : (Reader.file (Reader.start commandNamedAlike)).tree?.map Item.ofFile =
      some [.documented "#[[[\n# Doc.\n#]]" ⟨"add_test",
        ["NAME", "foo", "COMMAND", "foo"].map (.single .identifier),
        "add_test(NAMEfooCOMMANDfoo)", 4⟩] := by
    decide
  obtain ⟨tree, htree, hof⟩ := Option.map_eq_some_iff.mp hitems
  refine ⟨tree, htree, hof, ?_, ?_⟩
  · rw [file, hof]
    rfl
  · rw [file, hof]
    rfl

/-- A text is a spelling of one word only. -/
theorem eq_of_isSpellingOf {word word' a : String} (h : Text.isSpellingOf word a = true)
    (h' : Text.isSpellingOf word' a = true) : word = word' := by
  simp only [Text.isSpellingOf, decide_eq_true_eq] at h h'
  exact String.toList_injective (h.symm.trans h')

theorem isSpellingOf_expectFail_of_name (h : Text.isSpellingOf "NAME" name = true) :
    Text.isSpellingOf "EXPECTFAIL" name = false := by
  by_contra hfail
  exact absurd (eq_of_isSpellingOf h (eq_true_of_ne_false hfail)) (by decide)

/-- The unit test that a name and the arguments behind it make, where the name counts as a keyword
too if it is spelled like one. -/
def unitTestOf (isSection : Bool) (doc name : String) (rest : List String) : List Entry :=
  if Text.isSpellingOf "NAME" name then
    rest.head?.toList.map fun other => .unitTest isSection
      ⟨other, doc, rest.any (Text.isSpellingOf "EXPECTFAIL"), [], false⟩
  else
    [.unitTest isSection ⟨name, doc, Text.isSpellingOf "EXPECTFAIL" name ||
      rest.any (Text.isSpellingOf "EXPECTFAIL"), [], false⟩]

theorem unitTestOf_eq_iff (h : ∀ a ∈ rest, Text.isSpellingOf "NAME" a = false)
    (isSection : Bool) (doc : String) :
    unitTestOf isSection doc name rest = [.unitTest isSection
        ⟨name, doc, rest.any (Text.isSpellingOf "EXPECTFAIL"), [], false⟩] ↔
      Text.isSpellingOf "NAME" name = false ∧ (Text.isSpellingOf "EXPECTFAIL" name = true →
        rest.any (Text.isSpellingOf "EXPECTFAIL") = true) := by
  unfold unitTestOf
  cases hname : Text.isSpellingOf "NAME" name with
  | true =>
    cases rest with
    | nil => simp
    | cons other rest =>
      have hother : other ≠ name := by
        rintro rfl
        simp [h] at hname
      simp [hother]
  | false => simp

/-- What recording a unit test does that begins with the keyword for its name. -/
theorem record_named_unitTest {isSection : Bool} (hk : command.kind = .unitTest isSection)
    (hargs : command.singles = "NAME" :: name :: rest)
    (h : ∀ a ∈ rest, Text.isSpellingOf "NAME" a = false) (c : Collector) :
    ∃ c' logs, record s doc command c = .ok (c', logs) ∧
      c'.entries = c.entries ++ unitTestOf isSection doc name rest := by
  have henough : ¬ ("NAME" :: name :: rest).length < 2 := by simp
  have hfirst : nameAfter? "" ("NAME" :: name :: rest) = nameAfter? name (name :: rest) :=
    nameAfter?_keyword (by decide) _ _ _
  have hany : ("NAME" :: name :: rest).any (Text.isSpellingOf "EXPECTFAIL") =
      (Text.isSpellingOf "EXPECTFAIL" name || rest.any (Text.isSpellingOf "EXPECTFAIL")) := by
    have hno : Text.isSpellingOf "EXPECTFAIL" "NAME" = false := by decide
    rw [List.any_cons, List.any_cons, hno, Bool.false_or]
  simp only [record_unitTest hk, addUnitTest, hargs, henough, if_false, hfirst, hany]
  cases hname : Text.isSpellingOf "NAME" name with
  | false =>
    rw [nameAfter?_of_forall (List.forall_mem_cons.mpr ⟨hname, h⟩)]
    exact ⟨_, _, rfl, by rw [unitTestOf, if_neg (by simp [hname])]; rfl⟩
  | true =>
    cases rest with
    | nil =>
      have hlast : nameAfter? name [name] = none := by rw [nameAfter?, if_pos hname]
      rw [hlast]
      exact ⟨c, _, rfl, by simp [unitTestOf, hname]⟩
    | cons other rest =>
      rw [nameAfter?_keyword hname, nameAfter?_of_forall h, isSpellingOf_expectFail_of_name hname,
        Bool.false_or]
      exact ⟨_, _, rfl, by rw [unitTestOf, if_pos hname]; rfl⟩

/-- A unit test or a section with a keyword and a name in front of arguments that are no such
keyword. It is entered under that name, and as expected to fail if one of the arguments behind the
name says so, just if the name is not spelled like a keyword itself, or only like the one that is
there anyway. -/
theorem unitTest_named_iff (s : Settings) (c : Collector) (before : List Item) (it : Item)
    (doc : String) (command : Command) (isSection : Bool) (name : String) (rest : List String)
    (hfree : (items s before c).error = none) (hit : it.recorded? s = some (doc, command))
    (hkind : command.kind = .unitTest isSection)
    (hargs : command.singles = "NAME" :: name :: rest)
    (hrest : ∀ a ∈ rest, Text.isSpellingOf "NAME" a = false) :
    Enters s c before it (unitTestOf isSection doc name rest) ∧
      (unitTestOf isSection doc name rest = [.unitTest isSection
          ⟨name, doc, rest.any (Text.isSpellingOf "EXPECTFAIL"), [], false⟩] ↔
        Text.isSpellingOf "NAME" name = false ∧ (Text.isSpellingOf "EXPECTFAIL" name = true →
          rest.any (Text.isSpellingOf "EXPECTFAIL") = true)) := by
  have hsettled : command.kind.isSettled = true := by
    rw [hkind]
    rfl
  obtain ⟨c', logs, hrecord, hentries⟩ :=
    record_named_unitTest s doc hkind hargs hrest (items s before c).collector
  exact ⟨enters_of_pass hfree (pass_of_recorded hsettled hit hrecord) hentries,
    unitTestOf_eq_iff hrest isSection doc⟩

/-- A section whose last argument says that it is expected to fail. -/
def failingSection : Command := plainCommand "ct_add_section" ["NAME", "slow", "x", "ExpectFail"]

theorem failingSection_named :
    Enters default empty [] (.plain failingSection)
        (unitTestOf true "" "slow" ["x", "ExpectFail"]) ∧
      unitTestOf true "" "slow" ["x", "ExpectFail"] =
        [.unitTest true ⟨"slow", "", true, [], false⟩] := by
  obtain ⟨henters, hiff⟩ := unitTest_named_iff default empty [] (.plain failingSection) ""
    failingSection true "slow" ["x", "ExpectFail"] rfl rfl rfl rfl (by decide)
  exact ⟨henters, hiff.mpr (by decide)⟩

/-- The name of the test is spelled like a keyword. -/
def nameLikeKeyword : String := "#[[[\n# Doc.\n#]]\nct_add_test(NAME expectfail)\n"

theorem nameLikeKeyword_fails : ∃ tree,
    (Reader.file (Reader.start nameLikeKeyword)).tree? = some tree ∧
      Item.ofFile tree = [.documented "#[[[\n# Doc.\n#]]" ⟨"ct_add_test",
        ["NAME", "expectfail"].map (.single .identifier), "ct_add_test(NAMEexpectfail)", 4⟩] ∧
      (file default tree empty).error = none ∧
      (file default tree empty).collector.entries =
        [.unitTest false ⟨"expectfail", "Doc.\n", true, [], false⟩] := by
  have hitems : (Reader.file (Reader.start nameLikeKeyword)).tree?.map Item.ofFile =
      some [.documented "#[[[\n# Doc.\n#]]" ⟨"ct_add_test",
        ["NAME", "expectfail"].map (.single .identifier), "ct_add_test(NAMEexpectfail)", 4⟩] := by
    decide
  obtain ⟨tree, htree, hof⟩ := Option.map_eq_some_iff.mp hitems
  refine ⟨tree, htree, hof, ?_, ?_⟩
  · rw [file, hof]
    rfl
  · rw [file, hof]
    rfl

end CMakeDocs.Collector
