import CMakeDocs.Proofs.Collecting.Joined

/-!
# Comments that dangle

A documentation comment that no name comes after belongs to no command. A file can be read without
such comments as well as with them: what is collected is the same, and of what is said only the
warnings are gone, one for each of them.
-/
namespace CMakeDocs

open CMakeDocs.Tree

namespace Token

/-- A documentation comment that no name comes right after. -/
def dangles (t : Token) (after : List Token) : Bool :=
  t.kind = .docComment && after.head?.all fun u => u.kind ≠ .identifier

def dangling : List Token → List Token
  | [] => []
  | t :: ts => if t.dangles ts then t :: dangling ts else dangling ts

/-- The tokens without the comments that dangle. -/
def undangled : List Token → List Token
  | [] => []
  | t :: ts => if t.dangles ts then undangled ts else t :: undangled ts

theorem dangles_eq_false {t : Token} (h : t.kind ≠ .docComment) (after : List Token) :
    t.dangles after = false := by
  simp [dangles, h]

theorem dangling_append {ts : List Token} (h : ∀ t ∈ ts, t.kind ≠ .docComment)
    (us : List Token) : dangling (ts ++ us) = dangling us := by
  induction ts with
  | nil => rfl
  | cons t ts ih =>
    obtain ⟨ht, hts⟩ := List.forall_mem_cons.mp h
    rw [List.cons_append, dangling, dangles_eq_false ht, ih hts]
    rfl

theorem undangled_append {ts : List Token} (h : ∀ t ∈ ts, t.kind ≠ .docComment)
    (us : List Token) : undangled (ts ++ us) = ts ++ undangled us := by
  induction ts with
  | nil => rfl
  | cons t ts ih =>
    obtain ⟨ht, hts⟩ := List.forall_mem_cons.mp h
    rw [List.cons_append, undangled, dangles_eq_false ht, ih hts]
    rfl

end Token

namespace Derivation

theorem Command.ne_docComment {c : Tree} (h : Command c) :
    ∀ t ∈ c.leaves, t.kind ≠ .docComment := by
  intro t ht hk
  have hinner := h.kinds.isInner _ (List.mem_map_of_mem ht)
  simp [Grammar.IsInner, hk, TokenKind.isArgument] at hinner

theorem IsModulePart.ne_docComment {ts : List Tree} (h : IsModulePart ts) :
    ∀ t ∈ leavesOfList ts, t.kind ≠ .docComment := by
  cases h with
  | none => simp
  | one ht => simp [ht]

/-- Without the comments that dangle, the other items are read as before. -/
theorem Attached.exists_undangled {ts : List Tree} (h : Attached ts) {last : Token}
    (hl : last.kind = .endOfText) :
    ∃ us, Attached us ∧
      Token.undangled (leavesOfList ts ++ [last]) = leavesOfList us ++ [last] ∧
      us.filterMap CMakeDocs.Item.ofTree? =
        (ts.filterMap CMakeDocs.Item.ofTree?).filter (· ≠ .strayComment) ∧
      (Token.dangling (leavesOfList ts ++ [last])).length =
        (ts.filterMap CMakeDocs.Item.ofTree?).count .strayComment := by
  induction h with
  | nil =>
    have hlast := Token.dangles_eq_false (t := last) (by simp [hl]) []
    exact ⟨[], .nil, by simp [Token.undangled, hlast], rfl, by simp [Token.dangling, hlast]⟩
  | @documented t tree rest ht hc _ ih =>
    obtain ⟨us, hus, hleaves, hitems, hcount⟩ := ih
    obtain ⟨_, command, _, -, -, hcommand, -⟩ := hc.exists_moved rfl
    obtain ⟨name, others, hname, hk⟩ := hc.exists_leaves
    have hattached : t.dangles (tree.leaves ++ (leavesOfList rest ++ [last])) = false := by
      simp [Token.dangles, hname, hk]
    refine ⟨Derivation.documented t tree :: us, .documented ht hc hus, ?_, ?_, ?_⟩
    · simp only [leavesOfList_cons, leaves_documented, List.cons_append, List.append_assoc]
      rw [Token.undangled, hattached, Token.undangled_append hc.ne_docComment, hleaves]
      rfl
    · rw [List.filterMap_cons_some (ofTree?_documented hc hcommand),
        List.filterMap_cons_some (ofTree?_documented hc hcommand), hitems,
        List.filter_cons_of_pos (by simp)]
    · simp only [leavesOfList_cons, leaves_documented, List.cons_append, List.append_assoc]
      rw [Token.dangling, hattached, List.filterMap_cons_some (ofTree?_documented hc hcommand),
        List.count_cons_of_ne (by simp), ← hcount, Token.dangling_append hc.ne_docComment]
      rfl
  | @command tree rest hc _ ih =>
    obtain ⟨us, hus, hleaves, hitems, hcount⟩ := ih
    obtain ⟨_, command, _, -, -, hcommand, -⟩ := hc.exists_moved rfl
    refine ⟨tree :: us, .command hc hus, ?_, ?_, ?_⟩
    · rw [leavesOfList_cons, List.append_assoc, Token.undangled_append hc.ne_docComment, hleaves,
        leavesOfList_cons, List.append_assoc]
    · rw [List.filterMap_cons_some (ofTree?_command hc hcommand),
        List.filterMap_cons_some (ofTree?_command hc hcommand), hitems,
        List.filter_cons_of_pos (by simp)]
    · rw [leavesOfList_cons, List.append_assoc, Token.dangling_append hc.ne_docComment, hcount,
        List.filterMap_cons_some (ofTree?_command hc hcommand), List.count_cons_of_ne (by simp)]
  | @comment t rest ht hn _ ih =>
    obtain ⟨us, hus, hleaves, hitems, hcount⟩ := ih
    have hstray : CMakeDocs.Item.ofTree? (Derivation.comment t) = some .strayComment := rfl
    have hdangles : t.dangles (leavesOfList rest ++ [last]) = true := by
      cases hrest : leavesOfList rest with
      | nil => simp [Token.dangles, ht, hl]
      | cons u others => simpa [Token.dangles, ht, hrest] using hn
    refine ⟨us, hus, ?_, ?_, ?_⟩
    · rw [leavesOfList_cons, leaves_comment, List.singleton_append, List.cons_append,
        Token.undangled, hdangles]
      exact hleaves
    · rw [List.filterMap_cons_some hstray, List.filter_cons_of_neg (by simp), hitems]
    · rw [leavesOfList_cons, leaves_comment, List.singleton_append, List.cons_append,
        Token.dangling, hdangles, List.filterMap_cons_some hstray, List.count_cons_self, ← hcount]
      rfl

theorem IsModulePart.ne_strayComment {modules : List Tree} (h : IsModulePart modules) :
    ∀ it ∈ modules.filterMap CMakeDocs.Item.ofTree?, it ≠ .strayComment := by
  cases h with
  | none => simp
  | one ht =>
    rw [List.filterMap_cons_some (ofTree?_moduleComment ht)]
    simp

/-- A file without the comments that dangle. -/
theorem exists_undangled {modules ts : List Tree} {last : Token} (hm : IsModulePart modules)
    (hts : Attached ts) (hl : last.kind = .endOfText) :
    ∃ us, Attached us ∧
      Token.undangled (leavesOfList modules ++ leavesOfList ts ++ [last]) =
        leavesOfList modules ++ (leavesOfList us ++ [last]) ∧
      (modules ++ us).filterMap CMakeDocs.Item.ofTree? =
        ((modules ++ ts).filterMap CMakeDocs.Item.ofTree?).filter (· ≠ .strayComment) ∧
      (Token.dangling (leavesOfList modules ++ leavesOfList ts ++ [last])).length =
        ((modules ++ ts).filterMap CMakeDocs.Item.ofTree?).count .strayComment := by
  obtain ⟨us, hus, hleaves, hitems, hcount⟩ := hts.exists_undangled hl
  refine ⟨us, hus, ?_, ?_, ?_⟩
  · rw [List.append_assoc, Token.undangled_append hm.ne_docComment, hleaves]
  · have hmodules : (modules.filterMap CMakeDocs.Item.ofTree?).filter (· ≠ .strayComment) =
        modules.filterMap CMakeDocs.Item.ofTree? :=
      List.filter_eq_self.mpr fun it hit => by simpa using hm.ne_strayComment it hit
    rw [List.filterMap_append, List.filterMap_append, List.filter_append, hitems, hmodules]
  · rw [List.append_assoc, Token.dangling_append hm.ne_docComment, hcount, List.filterMap_append,
      List.count_append,
      List.count_eq_zero.mpr fun hmem => hm.ne_strayComment _ hmem rfl, Nat.zero_add]

end Derivation

namespace Collector

variable {s : Settings} {c : Collector} {doc : String} {command : Command}

/-- All that is said is a complaint about the command. -/
def OnlyErrors (logs : List LogRecord) : Prop := ∀ log ∈ logs, log.level = .error

theorem OnlyErrors.nil : OnlyErrors [] := by simp [OnlyErrors]

theorem OnlyErrors.singleton {log : LogRecord} (h : log.level = .error) : OnlyErrors [log] := by
  simpa [OnlyErrors] using h

theorem OnlyErrors.not_mem {logs : List LogRecord} (h : OnlyErrors logs) :
    strayWarning ∉ logs := fun hmem => absurd (h _ hmem) (by decide)

theorem addUnitTest_logs (isSection : Bool) :
    OnlyErrors (addUnitTest isSection doc command c).2 := by
  unfold addUnitTest
  dsimp only
  split
  · exact .singleton rfl
  · split
    · exact .singleton rfl
    · exact .nil

theorem setVariable_logs {r : Collector × List LogRecord}
    (h : setVariable doc command c = .ok r) : OnlyErrors r.2 := by
  unfold setVariable at h
  split at h
  · cases h
    exact .singleton rfl
  · cases h
    exact .nil
  · split at h
    · cases h
    · cases h
      exact .nil
  · cases h
    exact .nil

theorem openClass_logs : OnlyErrors (openClass doc command c).2 := by
  unfold openClass
  split
  · exact .singleton rfl
  · exact .nil

theorem addMember_logs (isConstructor : Bool) :
    OnlyErrors (addMember isConstructor doc command c).2 := by
  unfold addMember
  split
  · split
    · exact .singleton rfl
    · exact .nil
    · exact .nil
  · exact .singleton rfl

theorem addAttribute_logs : OnlyErrors (addAttribute doc command c).2 := by
  unfold addAttribute
  split
  · split
    · exact .singleton rfl
    · exact .nil
    · exact .nil
  · exact .singleton rfl

theorem addTest_logs : OnlyErrors (addTest doc command c).2 := by
  unfold addTest
  dsimp only
  split
  · exact .singleton rfl
  · split
    · exact .singleton rfl
    · exact .nil

theorem addOption_logs : OnlyErrors (addOption doc command c).2 := by
  unfold addOption
  split
  · exact .nil
  · exact .nil
  · exact .singleton rfl

theorem define_logs {isMacro : Bool} {r : Collector × List LogRecord}
    (h : define s isMacro doc command c = .ok r) : OnlyErrors r.2 := by
  obtain ⟨name, rest, params, hasKeywords, -, -, -, hlogs, -⟩ := define_eq_ok h
  rw [hlogs]
  exact .nil

theorem record_logs {r : Collector × List LogRecord} (h : record s doc command c = .ok r) :
    OnlyErrors r.2 := by
  cases hk : command.kind with
  | definition isMacro => exact define_logs (record_definition hk ▸ h)
  | setVariable => exact setVariable_logs (record_setVariable hk ▸ h)
  | option =>
    rw [record_option hk] at h
    cases h
    exact addOption_logs
  | test =>
    rw [record_test hk] at h
    cases h
    exact addTest_logs
  | unitTest isSection =>
    rw [record_unitTest hk] at h
    cases h
    exact addUnitTest_logs isSection
  | classStart =>
    rw [record_classStart hk] at h
    cases h
    exact openClass_logs
  | member isConstructor =>
    rw [record_member hk] at h
    cases h
    exact addMember_logs isConstructor
  | classAttribute =>
    rw [record_classAttribute hk] at h
    cases h
    exact addAttribute_logs
  | generic =>
    rw [record_generic hk] at h
    cases h
  | parseArguments =>
    rw [record_parseArguments hk] at h
    cases h
    exact .nil
  | endDefinition | classEnd | other =>
    rw [record_ruleless (by simp [hk, CommandKind.ruleless])] at h
    cases h
    exact .nil

theorem follow_logs {hasComment : Bool} {r : Collector × List LogRecord}
    (h : follow s hasComment command c = .ok r) : OnlyErrors r.2 := by
  obtain ⟨-, -, hr⟩ | ⟨-, hlogs⟩ := follow_cases h
  · exact record_logs hr
  · rw [hlogs]
    exact .nil

/-- The same progress without the warnings about comments. -/
def Progress.unwarned (p : Progress) : Progress :=
  { p with logs := p.logs.filter (· ≠ strayWarning) }

theorem filter_append_of_onlyErrors {added : List LogRecord} (h : OnlyErrors added)
    (logs : List LogRecord) :
    (logs ++ added).filter (· ≠ strayWarning) = logs.filter (· ≠ strayWarning) ++ added := by
  rw [List.filter_append, List.append_cancel_left_eq, List.filter_eq_self]
  intro log hlog
  have hne : log ≠ strayWarning := fun heq => h.not_mem (heq ▸ hlog)
  simpa using hne

theorem count_append_of_onlyErrors {added : List LogRecord} (h : OnlyErrors added)
    (logs : List LogRecord) : (logs ++ added).count strayWarning = logs.count strayWarning := by
  rw [List.count_append, List.count_eq_zero.mpr h.not_mem, Nat.add_zero]

section Step

variable {f : Collector → Outcome} (hf : ∀ {c r}, f c = .ok r → OnlyErrors r.2) (text : String)
  (command : Command) (p : Progress)

include hf

/-- What a step does does not depend on the warnings before it. -/
theorem step_unwarned :
    p.unwarned.step text command f = (p.step text command f).unwarned := by
  obtain ⟨c, logs, error⟩ := p
  unfold Progress.step Progress.unwarned
  cases error with
  | some e => rfl
  | none =>
    dsimp only
    cases hfc : f c with
    | error e =>
      exact congrArg (Progress.mk c · (some (e, command)))
        (filter_append_of_onlyErrors (.singleton rfl) logs).symm
    | ok r =>
      exact congrArg (Progress.mk r.1 · none) (filter_append_of_onlyErrors (hf hfc) logs).symm

theorem step_warnings :
    (p.step text command f).logs.count strayWarning = p.logs.count strayWarning := by
  obtain ⟨c, logs, error⟩ := p
  unfold Progress.step
  cases error with
  | some e => rfl
  | none =>
    dsimp only
    cases hfc : f c with
    | error e => exact count_append_of_onlyErrors (.singleton rfl) logs
    | ok r => exact count_append_of_onlyErrors (hf hfc) logs

end Step

theorem item_unwarned (p : Progress) {it : Item} (h : it ≠ .strayComment) :
    item s p.unwarned it = (item s p it).unwarned := by
  cases it with
  | moduleComment text =>
    obtain ⟨c, logs, error⟩ := p
    cases error <;> rfl
  | documented comment command =>
    rw [item, followCommand, step_unwarned record_logs, step_unwarned follow_logs]
    rfl
  | plain command => exact step_unwarned follow_logs _ _ _
  | strayComment => exact absurd rfl h

theorem strayComment_unwarned (p : Progress) :
    (item s p .strayComment).unwarned = p.unwarned := by
  obtain ⟨c, logs, error⟩ := p
  cases error with
  | none => simp [item, Progress.say, Progress.unwarned]
  | some e => rfl

/-- A run over the other items differs from one over all of them by the warnings alone. -/
theorem items_unwarned (s : Settings) (is : List Item) (c : Collector) :
    items s (is.filter (· ≠ .strayComment)) c = (items s is c).unwarned := by
  induction is using List.reverseRecOn with
  | nil => rfl
  | append_singleton is it ih =>
    rw [List.filter_append, items_concat]
    by_cases hit : it = .strayComment
    · rw [List.filter_cons_of_neg (by simp [hit]), List.filter_nil, List.append_nil, ih, hit,
        strayComment_unwarned]
    · rw [List.filter_cons_of_pos (by simpa using hit), List.filter_nil, items_concat, ih,
        item_unwarned _ hit]

theorem item_warnings {p : Progress} {it : Item} (h : p.error = none) :
    (item s p it).logs.count strayWarning =
      p.logs.count strayWarning + [it].count .strayComment := by
  cases it with
  | moduleComment text => simp [item, Progress.append, h]
  | documented comment command =>
    rw [item, followCommand, step_warnings follow_logs, step_warnings record_logs]
    simp
  | plain command =>
    rw [item, followCommand, step_warnings follow_logs]
    simp
  | strayComment => simp [item, Progress.say, h]

/-- A run without an error warns of each comment that belongs to no command. -/
theorem items_warnings {is : List Item} (h : (items s is c).error = none) :
    (items s is c).logs.count strayWarning = is.count .strayComment := by
  induction is using List.reverseRecOn with
  | nil => rfl
  | append_singleton is it ih =>
    obtain ⟨hbefore, -⟩ := items_concat_error_none h
    rw [items_concat, item_warnings hbefore, ih hbefore, List.count_append]

/-- Comments that dangle do nothing but cause a warning each. The tokens without them are those of a
file again, wherever they stand, and as long as there is no error the same is collected from them
and the same is said, but for the warnings. -/
theorem walk_undangled (s : Settings) (c : Collector) (cells rest : List Cell)
    (h : Grammar.File (cells.map fun cell => cell.token.kind))
    (hrest : rest.map (fun cell => cell.token.word) =
      (Token.undangled (cells.map Cell.token)).map Token.word) :
    Grammar.File (rest.map fun cell => cell.token.kind) ∧
    ∃ p, walk? s cells c = some p ∧
      (p.error = none →
        p.logs.count strayWarning = (Token.dangling (cells.map Cell.token)).length ∧
        ∃ q, walk? s rest c = some q ∧ q.error = none ∧ q.collector = p.collector ∧
          strayWarning ∉ q.logs ∧ q.logs = p.logs.filter (· ≠ strayWarning)) := by
  have hkinds : Grammar.File ((cells.map Cell.token).map Token.kind) := by
    rw [List.map_map]
    exact h
  obtain ⟨modules, ts, last, hm, hts, hl, hleaves⟩ := Derivation.File.exists_of_kinds hkinds
  obtain ⟨us, hus, hundangled, hitems, hcount⟩ := Derivation.exists_undangled hm hts hl
  rw [← hleaves, hundangled] at hrest
  have hwords : (rest.map Cell.token).map Token.word =
      (leavesOfList modules ++ leavesOfList []).map Token.word ++
        (leavesOfList us ++ [last]).map Token.word := by
    rw [List.map_map]
    exact hrest.trans (by simp)
  obtain ⟨modules', us', last', hm', hus', hl', htrees, hsame⟩ :=
    Derivation.exists_joined hm .nil hus (by simp) hwords
  rw [List.append_nil, ← List.filterMap_append, hitems] at hsame
  obtain ⟨hgrammar, hwalk⟩ := walk?_of_derivation hm' hus' (hl'.trans hl) htrees s c
  refine ⟨hgrammar, _, (walk?_of_derivation hm hts hl hleaves.symm s c).2, fun hok => ?_⟩
  have hrun := items_unwarned s ((modules ++ ts).filterMap Item.ofTree?) c
  have hmoved := items_of_unplaced hsame (by rw [hrun]; exact hok)
  refine ⟨?_, _, hwalk, ?_⟩
  · rw [items_warnings hok, ← hcount, hleaves]
  · rw [hmoved, hrun]
    exact ⟨hok, rfl, by simp [Progress.unwarned], rfl⟩

/-- A definition with a comment in front of its own and another one at the end. -/
def commentedPart : String :=
  "#[[[ a\n#]]\n#[[[ b\n#]]\nfunction(f x)\nendfunction()\n#[[[ c\n#]]\n"

/-- The same with the comment on the definition alone. -/
def attachedPart : String := "#[[[ b\n#]]\nfunction(f x)\nendfunction()\n"

theorem commentedPart_undangled : ∃ p q,
    walk? default (Cell.ofText commentedPart) empty = some p ∧ p.error = none ∧
      p.logs.count strayWarning = 2 ∧ p.collector.entries.length = 1 ∧
      walk? default (Cell.ofText attachedPart) empty = some q ∧ q.error = none ∧
      q.collector = p.collector ∧ strayWarning ∉ q.logs := by
  have hfile : Grammar.File ((Cell.ofText commentedPart).map fun cell => cell.token.kind) := by
    have hkinds : (Cell.ofText commentedPart).map (fun cell => cell.token.kind) =
        [.docComment, .docComment, .identifier, .leftParen, .identifier, .identifier, .rightParen,
          .identifier, .leftParen, .rightParen, .docComment, .endOfText] := by
      decide
    rw [hkinds]
    exact .plain (.comment (.documented (.mk (.single rfl (.single rfl .nil)))
      (.command (.mk .nil) (.comment .nil))))
  have hrun : (walk? default (Cell.ofText commentedPart) empty).map (fun p =>
      (p.error.isNone, p.collector.entries.length)) = some (true, 1) := by
    decide
  obtain ⟨-, p, hp, hundangled⟩ := walk_undangled default empty (Cell.ofText commentedPart)
    (Cell.ofText attachedPart) hfile (by decide)
  rw [hp, Option.map_some, Option.some.injEq, Prod.mk.injEq, Option.isNone_iff_eq_none] at hrun
  obtain ⟨hwarnings, q, hq, hqok, hsame, hquiet, -⟩ := hundangled hrun.1
  have hdangling : (Token.dangling ((Cell.ofText commentedPart).map Cell.token)).length = 2 := by
    decide
  exact ⟨p, q, hp, hrun.1, hwarnings.trans hdangling, hrun.2, hq, hqok, hsame, hquiet⟩

end Collector

end CMakeDocs
