import CMakeDocs.Proofs.Reading.Comments
import CMakeDocs.Proofs.Reading.Front

/-!
# Every syntax error is reported

A calm reader that enters a rule has two ways to leave it: with a derivation of what it has passed,
or with a report more than before. Inside a rule there is a third one, a fault that nobody has
reported yet, and the end of the rule reports it. So a file outside the language always costs a
report, whether or not the reading ends as if all were well.
-/
namespace CMakeDocs

open CMakeDocs.Tree

namespace Step

/-- A step has made a report of its own. -/
structure Reports (step : Step) (r : Reader) : Prop where
  follows : step.Follows r
  longer : r.account.length < step.reader.account.length

/-- How a rule ends that a calm reader has entered. -/
inductive Ends (P : List Tree → Prop) (step : Step) (r : Reader) : Prop where
  | reads {trees : List Tree} (h : step.Reads r trees) (hp : P trees)
  | reports (h : step.Reports r)

/-- How a part of a rule ends: as rules do, or with a fault that is still to be reported. -/
inductive Stops (P : List Tree → Prop) (step : Step) (r : Reader) : Prop where
  | reads {trees : List Tree} (h : step.Reads r trees) (hp : P trees)
  | fails {fault : Fault} {place : Place} (hf : step.fault = some (fault, place))
      (hh : fault.halts = false) (hr : step.reader.recovering = false) (h : step.Follows r)
  | reports (h : step.Reports r)

variable {P Q R : List Tree → Prop} {step : Step} {r : Reader} {trees : List Tree}

theorem Reads.follows (h : step.Reads r trees) : step.Follows r :=
  ⟨h.calm.toReady, h.account_eq ▸ .refl _, by rw [h.tokens_eq, h.trees_eq, written_append]⟩

theorem Reports.andThen (h : step.Reports r) {next : Reader → Step}
    (hn : ∀ r' : Reader, r'.Ready → (next r').Follows r') : (step.andThen next).Reports r := by
  refine ⟨h.follows.andThen hn, ?_⟩
  cases hf : step.fault with
  | none =>
    rw [andThen_of_none hf]
    exact Nat.lt_of_lt_of_le h.longer (hn _ h.follows.ready).account_sub.length_le
  | some fault =>
    rw [andThen_of_some hf]
    exact h.longer

/-- Whatever comes after a part that has been read. -/
theorem Reads.andThen_stops {next : Reader → Step} (h : step.Reads r trees)
    (hf : ∀ r' : Reader, r'.Ready → (next r').Follows r')
    (hn : (next step.reader).Stops Q step.reader) (hR : ∀ us, Q us → R (trees ++ us)) :
    (step.andThen next).Stops R r := by
  have hfollows := h.follows.andThen hf
  cases hn with
  | reads hmore hq => exact .reads (h.trans hmore) (hR _ hq)
  | fails hfault hh hr _ =>
    rw [andThen_of_none h.fault_eq] at hfollows ⊢
    exact .fails hfault hh hr hfollows
  | reports hmore =>
    refine .reports ⟨hfollows, ?_⟩
    rw [andThen_of_none h.fault_eq, ← h.account_eq]
    exact hmore.longer

namespace Stops

/-- One part of a rule after another. A fault of either is a fault of both. -/
theorem andThen {next : Reader → Step} (h : step.Stops P r)
    (hf : ∀ r' : Reader, r'.Ready → (next r').Follows r')
    (hn : ∀ r' : Reader, r'.Calm → (next r').Stops Q r')
    (hR : ∀ ts us, P ts → Q us → R (ts ++ us)) : (step.andThen next).Stops R r := by
  cases h with
  | reads hread hp =>
    exact hread.andThen_stops hf (hn _ hread.calm) fun us hq => hR _ us hp hq
  | fails hfault hh hr hfollows =>
    rw [andThen_of_some hfault]
    exact .fails hfault hh hr hfollows
  | reports hreport => exact .reports (hreport.andThen hf)

/-- A check reads nothing. -/
theorem andThen_check {next : Reader → Step} (h : step.Stops P r)
    (hf : ∀ r' : Reader, r'.Ready → (next r').Follows r')
    (hn : ∀ r' : Reader, r'.Calm → (next r').Stops (· = []) r') :
    (step.andThen next).Stops P r := by
  refine h.andThen hf hn ?_
  rintro ts us hts rfl
  rwa [List.append_nil]

/-- The end of a rule reports what is still to be reported. -/
theorem close (h : step.Stops P r) (rule : Rule) (p : Position) (calls : List Place)
    (hQ : ∀ ts, P ts → Q [.node rule p ts]) : (Reader.close rule p calls step).Ends Q r := by
  cases h with
  | reads hread hp => exact .reads (hread.close rule p calls) (hQ _ hp)
  | @fails fault place hfault hh hr hfollows =>
    refine .reports ⟨hfollows.close rule p calls, ?_⟩
    rw [Reader.close_of_calm rule p calls hfault hh hr, (step.reader.reportFault_account fault).2]
    exact Nat.lt_succ_of_le hfollows.account_sub.length_le
  | reports hreport =>
    obtain ⟨-, haccount, -⟩ := Reader.close_conserves hreport.follows.ready rule p calls
    exact .reports ⟨hreport.follows.close rule p calls,
      Nat.lt_of_lt_of_le hreport.longer haccount.length_le⟩

theorem mono (h : step.Stops P r) (hPQ : ∀ ts, P ts → Q ts) : step.Stops Q r := by
  cases h with
  | reads hread hp => exact .reads hread (hPQ _ hp)
  | fails hfault hh hr hfollows => exact .fails hfault hh hr hfollows
  | reports hreport => exact .reports hreport

/-- A step that only looks ahead first. -/
theorem of_look {n : Nat} (h : step.Stops P (r.look n)) : step.Stops P r := by
  cases h with
  | reads hread hp => exact .reads hread.of_look hp
  | fails hfault hh hr hfollows =>
    exact .fails hfault hh hr (hfollows.of_same (by simp) (by simp))
  | reports hreport =>
    exact .reports ⟨hreport.follows.of_same (by simp) (by simp), by simpa using hreport.longer⟩

end Stops

theorem Ends.calledAt (h : step.Ends P r) (place : Place) : (step.calledAt place).Ends P r := by
  cases h with
  | reads hread hp => exact .reads (hread.calledAt place) hp
  | reports hreport => exact .reports ⟨hreport.follows.calledAt place, hreport.longer⟩

theorem Ends.stops (h : step.Ends P r) : step.Stops P r := by
  cases h with
  | reads hread hp => exact .reads hread hp
  | reports hreport => exact .reports hreport

end Step

namespace Reader

variable {r : Reader}

theorem unwanted_reports (h : r.Ready) (place : Place) : (r.unwanted place).Reports r :=
  ⟨unwanted_follows h place,
    Nat.lt_of_lt_of_eq (Nat.lt_succ_self _) (r.print_account _).2.symm⟩

theorem lacking_reports (h : r.Ready) (place : Place) : (r.lacking place).Reports r :=
  ⟨lacking_follows h place,
    Nat.lt_of_lt_of_eq (Nat.lt_succ_self _) (r.print_account _).2.symm⟩

theorem mismatched_stops {P : List Tree → Prop} (h : r.Calm) (place : Place) :
    (r.mismatched place).Stops P r :=
  .fails rfl rfl h.recovering (mismatched_follows h.toReady place)

theorem checkEntry_stops (h : r.Calm) (place : Place) : (r.checkEntry place).Stops (· = []) r := by
  by_cases hk : r.kind ∈ place.expected
  · rw [checkEntry, if_pos (.inr hk)]
    exact .reads (.done h) rfl
  · rw [checkEntry, if_neg (by simp [h.recovering, hk])]
    dsimp only
    refine Step.Stops.of_look (n := 2) ?_
    split
    · exact .reports (unwanted_reports (h.look 2).toReady place)
    · exact mismatched_stops (h.look 2) place

theorem checkNext_stops (h : r.Calm) (place : Place) : (r.checkNext place).Stops (· = []) r := by
  by_cases hk : r.kind ∈ place.expected
  · rw [checkNext, if_pos (.inr hk)]
    exact .reads (.done h) rfl
  · rw [checkNext, if_neg (by simp [h.recovering, hk])]
    exact .reports (unwanted_reports h.toReady place)

/-- What a reader has read when it expects a token: the current one, of a kind that may come. -/
def IsExpected (r : Reader) (place : Place) (ts : List Tree) : Prop :=
  ts = [.token r.current] ∧ r.kind ∈ place.expected

theorem expect_stops_of_not_mem {P : List Tree → Prop} (h : r.Calm) (calls : List Place)
    (place : Place) (hk : r.kind ∉ place.expected) : (r.expect calls place).Stops P r := by
  have hlook := h.look 2
  rw [expect, if_neg hk]
  dsimp only
  refine Step.Stops.of_look (n := 2) ?_
  simp only [hlook.recovering, Bool.false_eq_true, if_false]
  split_ifs
  · exact .reports (unwanted_reports hlook.toReady place)
  · exact .reports (lacking_reports hlook.toReady place)
  · exact mismatched_stops hlook place

theorem expect_stops (h : r.Calm) (calls : List Place) (place : Place)
    (hplace : .endOfText ∉ place.expected) :
    (r.expect calls place).Stops (r.IsExpected place) r := by
  by_cases hk : r.kind ∈ place.expected
  · obtain ⟨rest, ht⟩ := h.toReady.tokens_eq
    exact .reads (expect_reads calls place h ht hk fun he => hplace (he ▸ hk)) ⟨rfl, hk⟩
  · exact expect_stops_of_not_mem h calls place hk

theorem expect_token_stops (h : r.Calm) (calls : List Place) (place : Place)
    (hplace : .endOfText ∉ place.expected) :
    (r.expect calls place).Stops
      (fun ts => ∃ t : Token, ts = [.token t] ∧ t.kind ∈ place.expected) r :=
  (expect_stops h calls place hplace).mono fun _ hts => ⟨r.current, hts.1, hts.2⟩

theorem comment_ends (h : r.Calm) (calls : List Place) :
    (comment calls r).Ends
      (fun ts => ts = [Derivation.comment r.current] ∧ r.kind = .docComment) r := by
  refine (expect_stops h calls .commentToken (by decide)).close _ _ _ ?_
  rintro ts ⟨rfl, hk⟩
  exact ⟨rfl, List.mem_singleton.mp hk⟩

theorem moduleComment_ends (h : r.Calm) (calls : List Place) :
    (moduleComment calls r).Ends Derivation.IsModulePart r := by
  refine (expect_stops h calls .moduleToken (by decide)).close _ _ _ ?_
  rintro ts ⟨rfl, hk⟩
  exact .one (List.mem_singleton.mp hk)

theorem argument_ends (h : r.Calm) (calls : List Place) :
    (argument calls r).Ends Derivation.Arguments r := by
  refine (expect_stops h calls .argumentToken (by decide)).close _ _ _ ?_
  rintro ts ⟨rfl, hk⟩
  exact .single (mem_argumentKinds_iff.mp hk) .nil

/-- The rest of a list, after what has been read up to its opening parenthesis. -/
theorem listRest_stops {P : List Tree → Prop} {step : Step} {args : Reader → Step}
    (owner : ListOwner) (calls : List Place) (h : step.Stops P r)
    (hfollows : ∀ r' : Reader, r'.Ready → (args r').Follows r')
    (hargs : ∀ r' : Reader, r'.Calm → (args r').Stops Derivation.Arguments r') :
    (((step.andThen fun r' => r'.checkEntry (.listItems owner)).andThen args).andThen
      fun r' => r'.expect calls (.listClose owner)).Stops
      (fun ts => ∃ first inner closing, P first ∧ Derivation.Arguments inner ∧
        closing.kind = .rightParen ∧ ts = first ++ (inner ++ [.token closing])) r := by
  have hentry := h.andThen_check (fun r' h' => checkEntry_follows h' (.listItems owner))
    (fun r' h' => checkEntry_stops h' (.listItems owner))
  have hinner := hentry.andThen hfollows hargs
    (R := fun ts => ∃ first inner, P first ∧ Derivation.Arguments inner ∧ ts = first ++ inner)
    fun first inner hfirst hi => ⟨first, inner, hfirst, hi, rfl⟩
  refine hinner.andThen (fun r' h' => expect_follows h' calls (.listClose owner))
    (fun r' h' => expect_token_stops h' calls (.listClose owner) (by cases owner <;> decide)) ?_
  rintro ts us ⟨first, inner, hfirst, hi, rfl⟩ ⟨closing, rfl, hc⟩
  exact ⟨first, inner, closing, hfirst, hi, by cases owner <;> exact List.mem_singleton.mp hc,
    List.append_assoc _ _ _⟩

/-- Lists and their arguments, by the number of rounds that are left. -/
theorem lists_end (fuel : Nat) :
    (∀ (owner : ListOwner) (calls : List Place) (r : Reader), r.Calm →
      (arguments fuel owner calls r).Stops Derivation.Arguments r) ∧
    ∀ (calls : List Place) (r : Reader), r.Calm →
      (group fuel calls r).Ends Derivation.Arguments r := by
  induction fuel with
  | zero =>
    constructor
    · intro owner calls r h
      rw [arguments]
      exact .reads (.done h) .nil
    · intro calls r h
      rw [group]
      exact .reads (.done h) .nil
  | succ fuel ih =>
    constructor
    · intro owner calls r h
      have hrest {step : Step} (hs : step.Ends Derivation.Arguments r) :
          ((step.andThen fun r => r.checkNext (.listNext owner)).andThen
            (arguments fuel owner calls)).Stops Derivation.Arguments r := by
        have hnext := hs.stops.andThen_check
          (fun r' h' => checkNext_follows h' (.listNext owner))
          (fun r' h' => checkNext_stops h' (.listNext owner))
        exact hnext.andThen (fun r' h' => (lists_follow fuel).1 owner calls r' h')
          (fun r' h' => ih.1 owner calls r' h') fun ts us hts hus => hts.append hus
      rw [arguments]
      by_cases ha : r.kind.isArgument = true
      · simp only [ha, if_true]
        exact hrest ((argument_ends h _).calledAt _)
      by_cases hl : r.kind = .leftParen
      · simp only [hl, TokenKind.isArgument]
        exact hrest ((ih.2 _ r h).calledAt _)
      · simp only [ha, hl, if_false]
        exact .reads (.done h) .nil
    · intro calls r h
      rw [group]
      refine (listRest_stops .group calls (expect_stops h calls (.listOpen .group) (by decide))
        ((lists_follow fuel).1 .group calls) (ih.1 .group calls)).close _ _ _ ?_
      rintro ts ⟨first, inner, closing, ⟨rfl, ho⟩, hi, hc, rfl⟩
      exact .group (List.mem_singleton.mp ho) hi hc .nil

theorem command_ends (h : r.Calm) (calls : List Place) :
    (command calls r).Ends (fun ts => ∃ t, ts = [t] ∧ Derivation.Command t) r := by
  have hname := (expect_stops h calls .commandName (by decide)).andThen
    (R := fun ts => ∃ opening, r.kind = .identifier ∧ opening.kind = .leftParen ∧
      ts = [.token r.current, .token opening])
    (fun r' h' => expect_follows h' calls (.listOpen .command))
    (fun r' h' => expect_token_stops h' calls (.listOpen .command) (by decide)) (by
      rintro ts us ⟨rfl, hn⟩ ⟨opening, rfl, ho⟩
      exact ⟨opening, List.mem_singleton.mp hn, List.mem_singleton.mp ho, rfl⟩)
  refine (listRest_stops .command calls hname (fun r' h' => (lists_follow _).1 .command calls r' h')
    (fun r' h' => (lists_end _).1 .command calls r' h')).close _ _ _ ?_
  rintro ts ⟨first, inner, closing, ⟨opening, hn, ho, rfl⟩, hi, hc, rfl⟩
  exact ⟨_, rfl, .mk hn ho hi hc⟩

theorem documentedCommand_ends (h : r.Calm) (calls : List Place) :
    (documentedCommand calls r).Ends (fun ts => ∀ t ∈ ts, Derivation.Item t) r := by
  refine (((comment_ends h _).calledAt _).stops.andThen
    (fun r' h' => (command_follows h' _).calledAt _)
    (fun r' h' => ((command_ends h' _).calledAt _).stops)
    (R := fun ts => ∃ c, r.kind = .docComment ∧ Derivation.Command c ∧
      ts = [Derivation.comment r.current, c]) ?_).close _ _ _ ?_
  · rintro ts us ⟨rfl, hk⟩ ⟨c, rfl, hc⟩
    exact ⟨c, hk, hc, rfl⟩
  · rintro ts ⟨c, hk, hc, rfl⟩
    exact List.forall_mem_singleton.mpr (.documented hk hc)

theorem item_stops (h : r.Calm) : (item r).Stops (fun ts => ∀ t ∈ ts, Derivation.Item t) r := by
  unfold item
  dsimp only
  split
  · refine Step.Stops.of_look
      (n := (outlook ((r.cells.map Cell.token).tail.map Token.kind)).2 + 1) ?_
    have hlook := h.look ((outlook ((r.cells.map Cell.token).tail.map Token.kind)).2 + 1)
    split
    · exact ((documentedCommand_ends hlook _).calledAt _).stops
    · refine ((comment_ends hlook _).calledAt _).stops.mono ?_
      rintro ts ⟨rfl, hk⟩
      exact List.forall_mem_singleton.mpr (.comment hk)
    · exact .fails rfl rfl hlook.recovering ⟨hlook.toReady, .refl _, by simp⟩
  · refine ((command_ends h _).calledAt _).stops.mono ?_
    rintro ts ⟨c, rfl, hc⟩
    exact List.forall_mem_singleton.mpr (.command hc)

theorem items_stops (fuel : Nat) (h : r.Calm) :
    (items fuel r).Stops (fun ts => ∀ t ∈ ts, Derivation.Item t) r := by
  induction fuel generalizing r with
  | zero => exact .reads (.done h) (by simp)
  | succ fuel ih =>
    rw [items]
    split
    · have hnext := (item_stops h).andThen_check (fun r' h' => checkNext_follows h' .fileNext)
        (fun r' h' => checkNext_stops h' .fileNext)
      exact hnext.andThen (fun r' h' => items_follows fuel h') (fun r' h' => ih h')
        fun ts us hts hus => List.forall_mem_append.mpr ⟨hts, hus⟩
    · exact .reads (.done h) (by simp)

theorem untilEnd_stops (h : r.Calm) :
    r.untilEnd.Stops (fun ts => ∃ modules items, Derivation.IsModulePart modules ∧
      (∀ t ∈ items, Derivation.Item t) ∧ ts = modules ++ items) r := by
  have hmodule : ((r.checkEntry .fileStart).andThen fun r =>
      if r.kind = .moduleComment then (moduleComment [.callModule] r).calledAt .callModule
      else .done r).Stops Derivation.IsModulePart r := by
    refine (checkEntry_stops h .fileStart).andThen (Q := Derivation.IsModulePart)
      (fun r' h' => ?_) (fun r' h' => ?_) ?_
    · split
      · exact (moduleComment_follows h' _).calledAt _
      · exact .done h'
    · split
      · exact ((moduleComment_ends h' _).calledAt _).stops
      · exact .reads (.done h') .none
    · rintro ts us rfl hus
      exact hus
  have hentry := hmodule.andThen_check (fun r' h' => checkEntry_follows h' .fileItems)
    (fun r' h' => checkEntry_stops h' .fileItems)
  exact hentry.andThen (fun r' h' => items_follows _ h') (fun r' h' => items_stops _ h')
    fun ts us hts hus => ⟨ts, us, hts, hus, rfl⟩

/-- A file outside the language costs a report. -/
theorem file_reports (h : r.Calm) (hn : ¬ Grammar.File (r.tokens.map Token.kind)) :
    (file r).Reports r := by
  have hstops : (r.untilEnd.andThen fun r => r.expect [] .fileEnd).Stops (fun _ => False) r := by
    have hend (r' : Reader) (h' : r'.Ready) := expect_follows h' [] .fileEnd
    cases untilEnd_stops h with
    | @reads ts hread hp =>
      refine hread.andThen_stops hend (expect_stops_of_not_mem hread.calm [] .fileEnd ?_)
        fun us hus => hus
      intro hk
      obtain ⟨modules, items, hm, hi, rfl⟩ := hp
      have hl : r.untilEnd.reader.current.kind = .endOfText := List.mem_singleton.mp hk
      have hkinds := (Derivation.File.mk (p := r.current.position) hm hi hl).kinds
      have htokens := hread.tokens_eq
      rw [hread.calm.toReady.tokens_eq_of_endOfText hl] at htokens
      rw [htokens] at hn
      exact hn (by simpa using hkinds)
    | fails hf hh hr hfollows =>
      rw [Step.andThen_of_some hf]
      exact .fails hf hh hr hfollows
    | reports hreport => exact .reports (hreport.andThen hend)
  rw [file_eq]
  cases hstops.close .file r.current.position [] (Q := fun _ => False) fun _ hts => hts with
  | reads _ hp => exact hp.elim
  | reports hreport => exact hreport

theorem start_account (text : String) : (start text).account = Token.reportsOfText text :=
  ofCells_account _

theorem start_kinds (text : String) :
    (start text).tokens.map Token.kind = (Token.ofText text).map Token.kind ++ [.endOfText] := by
  obtain ⟨last, ht, hl⟩ := Cell.ofText_tokens text
  rw [start_eq_ofCells, ofCells_tokens, ht]
  simp [hl]

/-- A file that returns has seen the whole text, so all there is to report is printed. -/
theorem reports_eq_account_of_returns (h : r.Ready) (hf : (file r).fault = none) :
    (file r).reader.reports = (file r).reader.account :=
  (file_follows h).ready.reports_eq_account
    ((file_follows h).ready.tokens_eq_of_endOfText (file_kind h hf))

theorem file_unreported_of_grammar (h : r.Calm) (hg : Grammar.File (r.tokens.map Token.kind)) :
    (file r).fault = none ∧ (file r).reader.reports = r.account := by
  obtain ⟨modules, items, last, hm, hi, hl, ht⟩ := Derivation.File.exists_of_kinds hg
  obtain ⟨hf, -, -, -, ha⟩ := file_reads hm hi hl h (by simpa using ht.symm)
  exact ⟨hf, (reports_eq_account_of_returns h.toReady hf).trans ha⟩

theorem grammar_of_unreported (h : r.Calm) (hf : (file r).fault = none)
    (hr : (file r).reader.reports = r.account) : Grammar.File (r.tokens.map Token.kind) := by
  refine Classical.byContradiction fun hn => ?_
  have hlonger := (file_reports h hn).longer
  rw [← reports_eq_account_of_returns h.toReady hf, hr] at hlonger
  exact Nat.lt_irrefl _ hlonger

theorem start_written (text : String) : written (start text).tokens = Token.ofText text := by
  rw [start_eq_ofCells, ofCells_tokens]
  rfl

/-- A reading that ends with the text has put all of its tokens into the tree. -/
theorem file_written (h : r.Ready) (hf : (file r).fault = none) :
    written (leavesOfList (file r).trees) = written r.tokens := by
  have hfollows := file_follows h
  have hk := file_kind h hf
  rw [hfollows.written_eq, hfollows.ready.tokens_eq_of_endOfText hk, written_cons_end hk]
  simp [written]

/-- A text is in the language exactly if its reading returns and reports nothing but characters
that are no lexeme. A reading that only returns has put each token into its tree, but it may have
reported some of them. -/
theorem returns_unreported_iff_grammar (text : String) :
    ((file (start text)).fault = none ∧
        (file (start text)).reader.reports = Token.reportsOfText text ↔
      Grammar.File ((Token.ofText text).map Token.kind ++ [.endOfText])) ∧
    ((file (start text)).fault = none →
      written (leavesOfList (file (start text)).trees) = Token.ofText text) := by
  have hcalm := start_calm text
  rw [← start_kinds, ← start_account]
  refine ⟨⟨?_, file_unreported_of_grammar hcalm⟩, ?_⟩
  · rintro ⟨hf, hr⟩
    exact grammar_of_unreported hcalm hf hr
  · intro hf
    rw [file_written hcalm.toReady hf, start_written]

/-- A name with nothing after it is no file, and yet its reading returns. -/
theorem lone_name_returns :
    (file (start "foo")).fault = none ∧
      ¬ Grammar.File ((Token.ofText "foo").map Token.kind ++ [.endOfText]) := by
  refine ⟨by decide, fun hg => ?_⟩
  rw [← start_kinds] at hg
  have hreports := (file_unreported_of_grammar (start_calm "foo") hg).2
  rw [start_account] at hreports
  exact absurd hreports (by decide)

theorem start_tokens (text : String) :
    ∃ last : Token, last.kind = .endOfText ∧ (start text).tokens = Token.ofText text ++ [last] := by
  obtain ⟨last, htokens, hlast⟩ := Cell.ofText_tokens text
  exact ⟨last, hlast, by rw [start_eq_ofCells, ofCells_tokens, htokens]⟩

/-- The tree of a valid file has no mark of a fault, and all tokens at its leaves. -/
theorem file_clean (h : r.Calm) (hg : Grammar.File (r.tokens.map Token.kind)) {tree : Tree}
    (ht : (file r).trees = [tree]) : tree.isClean = true ∧ tree.leaves = r.tokens := by
  obtain ⟨modules, items, last, hm, hi, hl, htokens⟩ := Derivation.File.exists_of_kinds hg
  obtain ⟨-, htrees, -⟩ := file_reads hm hi hl h (by rw [← htokens, List.append_assoc])
  rw [htrees] at ht
  cases ht
  refine ⟨?_, by simpa using htokens⟩
  cases hm with
  | none => simp [hi.areClean]
  | one _ => simp [Derivation.moduleComment, hi.areClean]

/-- Whatever a reading has skipped or made up, if it returns then each token of the text is at one
leaf of its tree, and they stand there in order. If it has reported no syntax error, the tree has no
mark of one and ends with the end of the text. -/
theorem file_keeps_tokens (text : String) (hf : (file (start text)).fault = none) :
    ∃ tree, (file (start text)).trees = [tree] ∧ written tree.leaves = Token.ofText text ∧
      ((file (start text)).reader.reports = Token.reportsOfText text →
        tree.isClean = true ∧
          ∃ last, last.kind = .endOfText ∧ tree.leaves = Token.ofText text ++ [last]) := by
  have hcalm := start_calm text
  obtain ⟨last, hlast, htokens⟩ := start_tokens text
  obtain ⟨children, htrees, -⟩ := file_leads (start text)
  refine ⟨_, htrees, ?_, fun hr => ?_⟩
  · have hwritten := file_written hcalm.toReady hf
    rwa [htrees, leavesOfList_cons, leavesOfList_nil, List.append_nil, start_written] at hwritten
  · rw [← start_account] at hr
    obtain ⟨hclean, hleaves⟩ := file_clean hcalm (grammar_of_unreported hcalm hf hr) htrees
    exact ⟨hclean, last, hlast, hleaves.trans htokens⟩

/-- The parentheses of the first name are missing, and what comes after it is skipped. -/
theorem skipped_comment_keeps_tokens :
    (file (start "foo #[[[ x #]] bar(x)")).fault = none ∧
      ∃ tree, (file (start "foo #[[[ x #]] bar(x)")).trees = [tree] ∧
        written tree.leaves = Token.ofText "foo #[[[ x #]] bar(x)" ∧
        ((file (start "foo #[[[ x #]] bar(x)")).reader.reports =
            Token.reportsOfText "foo #[[[ x #]] bar(x)" →
          tree.isClean = true ∧ ∃ last, last.kind = .endOfText ∧
            tree.leaves = Token.ofText "foo #[[[ x #]] bar(x)" ++ [last]) := by
  have hf : (file (start "foo #[[[ x #]] bar(x)")).fault = none := by decide
  exact ⟨hf, file_keeps_tokens _ hf⟩

end Reader

end CMakeDocs
