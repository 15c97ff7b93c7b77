import CMakeDocs.Proofs.Reading.Stream

/-!
# Reading what the grammar derives

Every rule of the reader, put in front of the leaves of a derivation, gives back exactly that
derivation, without a report and ready for what comes next. A comment that a command follows is
read with it: the look ahead over the command finds its last parenthesis, because the
parentheses of arguments are balanced.
-/
namespace CMakeDocs

open CMakeDocs.Tree

/-- A calm reader gets the given trees without a fault or a report, and their leaves are the tokens
that it has passed. -/
structure Step.Reads (step : Step) (r : Reader) (trees : List Tree) : Prop where
  fault_eq : step.fault = none
  trees_eq : step.trees = trees
  calm : step.reader.Calm
  tokens_eq : r.tokens = leavesOfList trees ++ step.reader.tokens
  account_eq : step.reader.account = r.account

namespace Step.Reads

variable {step : Step} {r : Reader} {trees more : List Tree}

theorem done (h : r.Calm) : (Step.done r).Reads r [] := ⟨rfl, rfl, h, by simp [Step.done], rfl⟩

theorem trans {next : Reader → Step} (h : step.Reads r trees)
    (hn : (next step.reader).Reads step.reader more) :
    (step.andThen next).Reads r (trees ++ more) := by
  rw [Step.andThen_of_none h.fault_eq]
  refine ⟨hn.fault_eq, by simp [h.trees_eq, hn.trees_eq], hn.calm, ?_,
    hn.account_eq.trans h.account_eq⟩
  rw [h.tokens_eq, hn.tokens_eq]
  simp

/-- What remains after a step is known, so the next one can be stated for it alone. -/
theorem andThen {rest : List Token} (h : step.Reads r trees) (next : Reader → Step)
    (hr : r.tokens = leavesOfList trees ++ rest)
    (hn : ∀ r' : Reader, r'.Calm → r'.tokens = rest → (next r').Reads r' more) :
    (step.andThen next).Reads r (trees ++ more) :=
  h.trans (hn _ h.calm (List.append_cancel_left (h.tokens_eq.symm.trans hr)))

theorem calledAt (h : step.Reads r trees) (place : Place) : (step.calledAt place).Reads r trees :=
  ⟨by simp [Step.calledAt, h.fault_eq], h.trees_eq, h.calm, h.tokens_eq, h.account_eq⟩

theorem close (h : step.Reads r trees) (rule : Rule) (p : Position) (calls : List Place) :
    (Reader.close rule p calls step).Reads r [.node rule p trees] := by
  rw [Reader.close_of_none rule p calls h.fault_eq]
  exact ⟨h.fault_eq, by simp [h.trees_eq], h.calm, by simpa using h.tokens_eq, h.account_eq⟩

/-- A step that only looks ahead first. -/
theorem of_look {n : Nat} (h : step.Reads (r.look n) trees) : step.Reads r trees :=
  ⟨h.fault_eq, h.trees_eq, h.calm, by simpa using h.tokens_eq, by simpa using h.account_eq⟩

end Step.Reads

namespace Reader

variable {r : Reader} {t : Token} {rest : List Token} (calls : List Place) (place : Place)

theorem consume_reads (h : r.Calm) (ht : r.tokens = t :: rest) (hk : t.kind ≠ .endOfText) :
    r.consume.Reads r [.token t] := by
  have hcons : r.consume = ⟨r.advance, [.token t], none⟩ := by
    simp [consume, h.recovering, current_eq ht]
  obtain ⟨u, us, rfl⟩ := (Ended.tail (ht ▸ h.ended) hk).exists_cons
  rw [hcons]
  refine ⟨rfl, rfl, h.advance, ?_, advance_account h.toReady⟩
  simp [advance_tokens ht, ht]

theorem expect_reads (h : r.Calm) (ht : r.tokens = t :: rest) (hm : t.kind ∈ place.expected)
    (hk : t.kind ≠ .endOfText) : (r.expect calls place).Reads r [.token t] := by
  rw [expect, if_pos (by rwa [kind_eq ht]), h.settled]
  exact consume_reads h ht hk

theorem checkEntry_reads (h : r.Calm) (ht : r.tokens = t :: rest) (hm : t.kind ∈ place.expected) :
    (r.checkEntry place).Reads r [] := by
  rw [checkEntry, if_pos (.inr (by rwa [kind_eq ht]))]
  exact .done h

theorem checkNext_reads (h : r.Calm) (ht : r.tokens = t :: rest) (hm : t.kind ∈ place.expected) :
    (r.checkNext place).Reads r [] := by
  rw [checkNext, if_pos (.inr (by rwa [kind_eq ht]))]
  exact .done h

theorem mem_argumentKinds_iff {k : TokenKind} :
    k ∈ Place.argumentKinds ↔ k.isArgument = true := by
  cases k <;> decide

theorem comment_reads (h : r.Calm) (ht : r.tokens = t :: rest) (hk : t.kind = .docComment) :
    (comment calls r).Reads r [Derivation.comment t] := by
  rw [comment, current_eq ht]
  exact (expect_reads _ _ h ht (by simp [Place.expected, hk]) (by simp [hk])).close _ _ _

theorem moduleComment_reads (h : r.Calm) (ht : r.tokens = t :: rest)
    (hk : t.kind = .moduleComment) :
    (moduleComment calls r).Reads r [Derivation.moduleComment t] := by
  rw [moduleComment, current_eq ht]
  exact (expect_reads _ _ h ht (by simp [Place.expected, hk]) (by simp [hk])).close _ _ _

theorem argument_reads (h : r.Calm) (ht : r.tokens = t :: rest) (hk : t.kind.isArgument = true) :
    (argument calls r).Reads r [.node .argument t.position [.token t]] := by
  rw [argument, current_eq ht]
  have hm : t.kind ∈ Place.argumentToken.expected := mem_argumentKinds_iff.mpr hk
  have hne : t.kind ≠ .endOfText := by
    intro he
    simp [he, TokenKind.isArgument] at hk
  exact (expect_reads _ _ h ht hm hne).close _ _ _

/-- Before a closing parenthesis, arguments begin with something that may stand in a list. -/
theorem first_of_arguments {ts : List Tree} (h : Derivation.Arguments ts) {closing : Token}
    (hc : closing.kind = .rightParen) (rest : List Token) :
    ∃ t us, leavesOfList ts ++ closing :: rest = t :: us ∧ t.kind ∈ Place.listKinds := by
  cases h with
  | nil => exact ⟨closing, rest, by simp, by simp [hc, Place.listKinds]⟩
  | @single t us hk hr =>
    exact ⟨t, leavesOfList us ++ closing :: rest, by simp,
      List.mem_cons_of_mem _ (List.mem_cons_of_mem _ (mem_argumentKinds_iff.mpr hk))⟩
  | @group o c inner us ho hi hcl hr =>
    exact ⟨o, leavesOfList inner ++ c :: (leavesOfList us ++ closing :: rest), by simp,
      by simp [ho, Place.listKinds]⟩

/-- A list in parentheses, given that its arguments are read. -/
theorem group_reads {fuel : Nat} {opening closing : Token} {inner : List Tree} (h : r.Calm)
    (ho : opening.kind = .leftParen) (hi : Derivation.Arguments inner)
    (hc : closing.kind = .rightParen)
    (ht : r.tokens = opening :: (leavesOfList inner ++ closing :: rest))
    (hinner : ∀ r' : Reader, r'.Calm → r'.tokens = leavesOfList inner ++ closing :: rest →
      (arguments fuel .group calls r').Reads r' inner) :
    (group (fuel + 1) calls r).Reads r
      [.node .group opening.position (.token opening :: (inner ++ [.token closing]))] := by
  obtain ⟨t, us, htu, hm⟩ := first_of_arguments hi hc rest
  have hopen := expect_reads calls (.listOpen .group) h ht (by simp [Place.expected, ho])
    (by simp [ho])
  have hentry := hopen.andThen (fun r => r.checkEntry (.listItems .group)) (by simpa using ht)
    fun r' h' ht' => checkEntry_reads _ h' (ht'.trans htu) hm
  have hargs := hentry.andThen (arguments fuel .group calls) (by simpa using ht) hinner
  have hclose := hargs.andThen (fun r => r.expect calls (.listClose .group)) (by simpa using ht)
    fun r' h' ht' => expect_reads _ _ h' ht' (by simp [Place.expected, hc]) (by simp [hc])
  rw [group, current_eq ht]
  simpa using hclose.close .group opening.position calls

/-- The rest of a list, after one of its arguments has been read. -/
theorem arguments_rest_reads {fuel : Nat} {owner : ListOwner} {step : Step} {tree : Tree}
    {ts : List Tree} {closing : Token} (hstep : step.Reads r [tree])
    (hts : Derivation.Arguments ts) (hc : closing.kind = .rightParen)
    (ht : r.tokens = tree.leaves ++ (leavesOfList ts ++ closing :: rest))
    (hrest : ∀ r' : Reader, r'.Calm → r'.tokens = leavesOfList ts ++ closing :: rest →
      (arguments fuel owner calls r').Reads r' ts) :
    ((step.andThen fun r => r.checkNext (.listNext owner)).andThen
      (arguments fuel owner calls)).Reads r (tree :: ts) := by
  obtain ⟨t, us, htu, hm⟩ := first_of_arguments hts hc rest
  have hnext := hstep.andThen (fun r => r.checkNext (.listNext owner)) (by simpa using ht)
    fun r' h' ht' => checkNext_reads _ h' (ht'.trans htu) hm
  simpa using hnext.andThen (arguments fuel owner calls) (by simpa using ht) hrest

theorem arguments_reads {ts : List Tree} (hts : Derivation.Arguments ts) (owner : ListOwner)
    {closing : Token} (hc : closing.kind = .rightParen) {fuel : Nat}
    (hf : (leavesOfList ts).length < fuel) (h : r.Calm)
    (ht : r.tokens = leavesOfList ts ++ closing :: rest) :
    (arguments fuel owner calls r).Reads r ts := by
  induction hts generalizing r rest fuel calls owner closing with
  | nil =>
    obtain ⟨fuel, rfl⟩ : ∃ n, fuel = n + 1 := ⟨fuel - 1, by omega⟩
    have hk : r.kind = .rightParen := by rw [kind_eq ht, hc]
    rw [arguments]
    simp only [hk, TokenKind.isArgument]
    exact .done h
  | @single t ts hk hts ih =>
    obtain ⟨fuel, rfl⟩ : ∃ n, fuel = n + 1 := ⟨fuel - 1, by omega⟩
    rw [leavesOfList_cons, leaves_node, List.append_assoc] at ht
    simp only [leavesOfList_cons, leaves_node, leaves_token, List.length_append,
      List.length_cons] at hf
    have hkind : r.kind.isArgument = true := by rw [kind_eq ht, hk]
    have harg := argument_reads (.callArgument owner :: calls) h ht hk
    rw [arguments]
    simp only [hkind, if_true]
    exact arguments_rest_reads calls (harg.calledAt _) hts hc ht fun r' h' ht' =>
      ih calls owner hc (by omega) h' ht'
  | @group o c inner ts ho hi hcl hts ihi ihr =>
    -- A list in parentheses takes two rounds: one for itself and one for what is inside.
    obtain ⟨fuel, rfl⟩ : ∃ n, fuel = n + 2 := ⟨fuel - 2, by simp at hf; omega⟩
    simp only [leavesOfList_cons, leaves_node, leaves_token, leavesOfList_append,
      List.length_append, List.length_cons] at hf
    have hlist : r.tokens =
        o :: (leavesOfList inner ++ c :: (leavesOfList ts ++ closing :: rest)) := by
      simpa using ht
    have hkind : r.kind = .leftParen := by rw [kind_eq hlist, ho]
    have hgroup := group_reads (.callGroup owner :: calls) h ho hi hcl hlist fun r' h' ht' =>
      ihi (.callGroup owner :: calls) .group hcl (show (leavesOfList inner).length < fuel by omega)
        h' ht'
    rw [arguments]
    simp only [hkind, TokenKind.isArgument]
    exact arguments_rest_reads calls (hgroup.calledAt _) hts hc (by simpa using hlist)
      fun r' h' ht' => ihr calls owner hc (by omega) h' ht'

theorem command_reads {c : Tree} (hcmd : Derivation.Command c) (h : r.Calm)
    (ht : r.tokens = c.leaves ++ rest) : (command calls r).Reads r [c] := by
  cases hcmd with
  | @mk name opening closing args hn ho ha hc =>
    have htokens : r.tokens =
        name :: opening :: (leavesOfList args ++ closing :: rest) := by simpa using ht
    obtain ⟨t, us, htu, hm⟩ := first_of_arguments ha hc rest
    have hname := expect_reads calls .commandName h htokens (by simp [Place.expected, hn])
      (by simp [hn])
    have hopen := hname.andThen (fun r => r.expect calls (.listOpen .command))
      (by simpa using htokens) fun r' h' ht' =>
        expect_reads _ _ h' ht' (by simp [Place.expected, ho]) (by simp [ho])
    have hentry := hopen.andThen (fun r => r.checkEntry (.listItems .command))
      (by simpa using htokens) fun r' h' ht' => checkEntry_reads _ h' (ht'.trans htu) hm
    have hargs := hentry.andThen
      (fun r => arguments (2 * r.cells.length) .command calls r) (by simpa using htokens)
      fun r' h' ht' => by
        have hlen : r'.cells.length = (leavesOfList args ++ closing :: rest).length := by
          rw [← ht', tokens, List.length_map]
        refine arguments_reads calls ha .command hc ?_ h' ht'
        simp only [hlen, List.length_append, List.length_cons]
        omega
    have hclose := hargs.andThen (fun r => r.expect calls (.listClose .command))
      (by simpa using htokens) fun r' h' ht' =>
        expect_reads _ _ h' ht' (by simp [Place.expected, hc]) (by simp [hc])
    rw [command, current_eq htokens]
    simpa using hclose.close .command name.position calls

theorem documentedCommand_reads {c : Tree} (hk : t.kind = .docComment)
    (hcmd : Derivation.Command c) (h : r.Calm) (ht : r.tokens = t :: (c.leaves ++ rest)) :
    (documentedCommand calls r).Reads r [Derivation.documented t c] := by
  have hcomment := (comment_reads (.documentedComment :: calls) h ht hk).calledAt .documentedComment
  have hboth := hcomment.andThen
    (fun r => (command (.documentedCommand :: calls) r).calledAt .documentedCommand)
    (by simpa using ht) fun r' h' ht' => (command_reads _ hcmd h' ht').calledAt _
  rw [documentedCommand, current_eq ht]
  exact hboth.close .documentedCommand t.position calls

/-- The answer of the look ahead with one token more in front. -/
def oneMore (answer : Nat × Bool) : Nat × Bool := (answer.1 + 1, answer.2)

theorem closesList_argument {kind : TokenKind} (hk : kind.isArgument = true) (depth : Nat)
    (kinds : List TokenKind) :
    closesList depth (kind :: kinds) = oneMore (closesList depth kinds) := by
  rw [closesList.eq_def]
  simp [hk, oneMore]

theorem closesList_leftParen (depth : Nat) (kinds : List TokenKind) :
    closesList depth (.leftParen :: kinds) = oneMore (closesList (depth + 1) kinds) := by
  rw [closesList.eq_def]
  simp [TokenKind.isArgument, oneMore]

theorem closesList_rightParen (depth : Nat) (kinds : List TokenKind) :
    closesList (depth + 1) (.rightParen :: kinds) = oneMore (closesList depth kinds) := by
  rw [closesList.eq_def]
  simp [TokenKind.isArgument, oneMore]

theorem closesList_last (kinds : List TokenKind) :
    closesList 0 (.rightParen :: kinds) = (1, true) := by
  rw [closesList.eq_def]
  simp [TokenKind.isArgument]

/-- Arguments close what they open, so the look ahead passes them at the depth it has. -/
theorem closesList_append {kinds : List TokenKind} (h : Grammar.Arguments kinds) (depth : Nat)
    (rest : List TokenKind) :
    closesList depth (kinds ++ rest) =
      ((closesList depth rest).1 + kinds.length, (closesList depth rest).2) := by
  induction h generalizing depth rest with
  | nil => simp
  | single hk _ ih => simp [closesList_argument hk, ih, oneMore, Nat.add_assoc]
  | group _ _ ihi ihr =>
    simp only [List.cons_append, List.append_assoc, closesList_leftParen, ihi,
      closesList_rightParen, ihr, oneMore, List.length_cons, List.length_append]
    congr 1
    omega

theorem outlook_command {kinds : List TokenKind} (h : Grammar.Command kinds)
    (rest : List TokenKind) : outlook (kinds ++ rest) = (.command, kinds.length) := by
  cases h with
  | mk ha =>
    simp only [List.cons_append, List.append_assoc, List.nil_append, outlook,
      closesList_append ha, closesList_last, List.length_cons, List.length_append, if_true]
    congr 1
    simp only [List.length_nil]
    omega

theorem item_documented_reads {c : Tree} (hk : t.kind = .docComment)
    (hcmd : Derivation.Command c) (h : r.Calm) (ht : r.tokens = t :: (c.leaves ++ rest)) :
    (item r).Reads r [Derivation.documented t c] := by
  have hout : outlook ((r.cells.map Cell.token).tail.map Token.kind) =
      (.command, (c.leaves.map Token.kind).length) := by
    rw [show r.cells.map Cell.token = t :: (c.leaves ++ rest) from ht, List.tail_cons,
      List.map_append]
    exact outlook_command hcmd.kinds _
  rw [item, if_pos (by rw [kind_eq ht, hk])]
  simp only [hout]
  exact ((documentedCommand_reads _ hk hcmd (h.look _) (by simpa using ht)).calledAt _).of_look

/-- A comment is read by itself if another comment or the end of the text comes next. -/
theorem item_comment_reads {u : Token} (hk : t.kind = .docComment)
    (hu : u.kind = .docComment ∨ u.kind = .endOfText) (h : r.Calm)
    (ht : r.tokens = t :: u :: rest) : (item r).Reads r [Derivation.comment t] := by
  have hout : outlook ((r.cells.map Cell.token).tail.map Token.kind) = (.other, 1) := by
    rw [show r.cells.map Cell.token = t :: u :: rest from ht, List.tail_cons, List.map_cons]
    rcases hu with hu | hu <;> rw [hu] <;> rfl
  rw [item, if_pos (by rw [kind_eq ht, hk])]
  simp only [hout]
  exact ((comment_reads _ (h.look _) (by simpa using ht) hk).calledAt _).of_look

theorem item_command_reads {c : Tree} (hcmd : Derivation.Command c) (h : r.Calm)
    (ht : r.tokens = c.leaves ++ rest) : (item r).Reads r [c] := by
  obtain ⟨n, us, hleaves, hn⟩ := hcmd.exists_leaves
  have hk : r.kind = .identifier := by rw [kind_eq (by rw [ht, hleaves]; rfl), hn]
  rw [item, if_neg (by simp [hk])]
  exact (command_reads _ hcmd h ht).calledAt _

/-- Before the end of the text, items begin with something that may stand between items. -/
theorem first_of_items {ts : List Tree} (h : Derivation.Attached ts) {last : Token}
    (hl : last.kind = .endOfText) :
    ∃ t us, leavesOfList ts ++ [last] = t :: us ∧ t.kind ∈ Place.itemKinds ∧
      (t.kind = .identifier → ∃ u ∈ (leavesOfList ts).head?, u.kind = .identifier) := by
  cases h with
  | nil => exact ⟨last, [], by simp, by simp [hl, Place.itemKinds], by simp [hl]⟩
  | @documented t c ts ht _ _ =>
    exact ⟨t, c.leaves ++ (leavesOfList ts ++ [last]), by simp, by simp [ht, Place.itemKinds],
      by simp [ht]⟩
  | @command c ts hc _ =>
    obtain ⟨n, us, hleaves, hn⟩ := hc.exists_leaves
    exact ⟨n, us ++ (leavesOfList ts ++ [last]), by simp [hleaves],
      by simp [hn, Place.itemKinds], by simp [hleaves, hn]⟩
  | @comment t ts ht _ _ =>
    exact ⟨t, leavesOfList ts ++ [last], by simp, by simp [ht, Place.itemKinds], by simp [ht]⟩

/-- After a comment without a command, the next is another comment or the end of the text. -/
theorem first_after_comment {ts : List Tree} (h : Derivation.Attached ts) {last : Token}
    (hl : last.kind = .endOfText) (hn : ∀ u ∈ (leavesOfList ts).head?, u.kind ≠ .identifier) :
    ∃ u us, leavesOfList ts ++ [last] = u :: us ∧
      (u.kind = .docComment ∨ u.kind = .endOfText) := by
  obtain ⟨u, us, htu, hm, hid⟩ := first_of_items h hl
  refine ⟨u, us, htu, ?_⟩
  simp only [Place.itemKinds, List.mem_cons, List.not_mem_nil, or_false] at hm
  rcases hm with hm | hm | hm
  · exact .inr hm
  · exact .inl hm
  · obtain ⟨v, hv, hvk⟩ := hid hm
    exact absurd hvk (hn v hv)

/-- The rest of the items, after one of them has been read. -/
theorem items_rest_reads {fuel : Nat} {tree : Tree} {ts : List Tree} {last : Token}
    (hitem : (item r).Reads r [tree]) (hk : r.kind = .docComment ∨ r.kind = .identifier)
    (hts : Derivation.Attached ts) (hl : last.kind = .endOfText)
    (ht : r.tokens = tree.leaves ++ (leavesOfList ts ++ [last]))
    (hrest : ∀ r' : Reader, r'.Calm → r'.tokens = leavesOfList ts ++ [last] →
      (items fuel r').Reads r' ts) : (items (fuel + 1) r).Reads r (tree :: ts) := by
  obtain ⟨t, us, htu, hm, -⟩ := first_of_items hts hl
  have hnext := hitem.andThen (fun r => r.checkNext .fileNext) (by simpa using ht)
    fun r' h' ht' => checkNext_reads _ h' (ht'.trans htu) hm
  rw [items, if_pos hk]
  simpa using hnext.andThen (items fuel) (by simpa using ht) hrest

theorem items_reads {ts : List Tree} (hts : Derivation.Attached ts) {last : Token}
    (hl : last.kind = .endOfText) {fuel : Nat} (hf : (leavesOfList ts).length < fuel) (h : r.Calm)
    (ht : r.tokens = leavesOfList ts ++ [last]) : (items fuel r).Reads r ts := by
  induction hts generalizing r fuel with
  | nil =>
    obtain ⟨fuel, rfl⟩ : ∃ n, fuel = n + 1 := ⟨fuel - 1, by omega⟩
    have hk : r.kind = .endOfText := by rw [kind_eq ht, hl]
    rw [items, if_neg (by simp [hk])]
    exact .done h
  | @documented t c ts hd hc hts ih =>
    obtain ⟨fuel, rfl⟩ : ∃ n, fuel = n + 1 := ⟨fuel - 1, by omega⟩
    rw [leavesOfList_cons, Derivation.leaves_documented, List.append_assoc] at ht
    simp only [leavesOfList_cons, Derivation.leaves_documented, List.length_append,
      List.length_cons] at hf
    exact items_rest_reads (item_documented_reads hd hc h ht) (.inl (by rw [kind_eq ht, hd]))
      hts hl (by simpa using ht) fun r' h' ht' => ih (by omega) h' ht'
  | @command c ts hc hts ih =>
    obtain ⟨fuel, rfl⟩ : ∃ n, fuel = n + 1 := ⟨fuel - 1, by omega⟩
    rw [leavesOfList_cons, List.append_assoc] at ht
    obtain ⟨n, us, hleaves, hn⟩ := hc.exists_leaves
    have hk : r.kind = .identifier := by rw [kind_eq (by rw [ht, hleaves]; rfl), hn]
    simp only [leavesOfList_cons, hleaves, List.length_append, List.length_cons] at hf
    exact items_rest_reads (item_command_reads hc h ht) (.inr hk) hts hl ht
      fun r' h' ht' => ih (by omega) h' ht'
  | @comment t ts hd hn hts ih =>
    obtain ⟨fuel, rfl⟩ : ∃ n, fuel = n + 1 := ⟨fuel - 1, by omega⟩
    rw [leavesOfList_cons, Derivation.leaves_comment, List.append_assoc] at ht
    simp only [leavesOfList_cons, Derivation.leaves_comment, List.length_append,
      List.length_cons] at hf
    obtain ⟨u, us, htu, hu⟩ := first_after_comment hts hl hn
    have htok : r.tokens = t :: u :: us := by rw [ht, htu]; rfl
    exact items_rest_reads (item_comment_reads hd hu h htok) (.inl (by rw [kind_eq htok, hd]))
      hts hl (by simpa using ht) fun r' h' ht' => ih (by omega) h' ht'

theorem moduleComments_reads {modules : List Tree} (hm : Derivation.IsModulePart modules)
    (h : r.Calm) (ht : r.tokens = leavesOfList modules ++ rest)
    (hrest : ∀ u ∈ rest.head?, u.kind ≠ .moduleComment) :
    (if r.kind = .moduleComment then (moduleComment [.callModule] r).calledAt .callModule
      else Step.done r).Reads r modules := by
  cases hm with
  | none =>
    obtain ⟨us, hus⟩ := h.toReady.tokens_eq
    have hk : r.kind ≠ .moduleComment := by
      refine hrest r.current ?_
      rw [← List.nil_append rest, ← leavesOfList_nil, ← ht, hus]
      simp
    rw [if_neg hk]
    exact .done h
  | @one t hk =>
    have ht' : r.tokens = t :: rest := by simpa using ht
    rw [if_pos (by rw [kind_eq ht', hk])]
    exact (moduleComment_reads _ h ht' hk).calledAt _

/-- What a file begins with is expected there. -/
theorem first_of_file {modules ts : List Tree} {last : Token} (hm : Derivation.IsModulePart modules)
    (hts : Derivation.Attached ts) (hl : last.kind = .endOfText) :
    ∃ t rest, leavesOfList modules ++ (leavesOfList ts ++ [last]) = t :: rest ∧
      t.kind ∈ Place.fileStart.expected := by
  obtain ⟨u, us, htu, hmem, -⟩ := first_of_items hts hl
  rw [htu]
  cases hm with
  | none =>
    refine ⟨u, us, by simp, ?_⟩
    simp only [Place.itemKinds, List.mem_cons, List.not_mem_nil, or_false] at hmem
    rcases hmem with hmem | hmem | hmem <;> simp [hmem, Place.expected]
  | @one t hk => exact ⟨t, u :: us, by simp, by simp [hk, Place.expected]⟩

/-- The end of the text is read and stays. -/
theorem expect_fileEnd (h : r.Calm) (ht : r.tokens = [t]) (hk : t.kind = .endOfText) :
    r.expect calls .fileEnd = ⟨r, [.token t], none⟩ := by
  rw [expect, if_pos (by simp [kind_eq ht, hk, Place.expected]), h.settled]
  simp [consume, h.recovering, current_eq ht, advance_eq_self ht]

/-- A file is read as its derivation with attached comments, up to the end of the text. -/
theorem file_reads {modules ts : List Tree} {last : Token} (hm : Derivation.IsModulePart modules)
    (hts : Derivation.Attached ts) (hl : last.kind = .endOfText) (h : r.Calm)
    (ht : r.tokens = leavesOfList modules ++ (leavesOfList ts ++ [last])) :
    (file r).fault = none ∧
      (file r).trees = [.node .file r.current.position (modules ++ ts ++ [.token last])] ∧
      (file r).reader.Calm ∧ (file r).reader.tokens = [last] ∧
      (file r).reader.account = r.account := by
  obtain ⟨u, us, htu, hmem, -⟩ := first_of_items hts hl
  obtain ⟨t, rest, hfirst, hstart⟩ := first_of_file hm hts hl
  have hnot : ∀ v ∈ (leavesOfList ts ++ [last]).head?, v.kind ≠ .moduleComment := by
    intro v hv hk
    rw [htu, List.head?_cons, Option.mem_some_iff] at hv
    rw [← hv] at hk
    simp [hk, Place.itemKinds] at hmem
  have hentry := checkEntry_reads .fileStart h (ht.trans hfirst) hstart
  have hmodules := hentry.andThen
    (fun r => if r.kind = .moduleComment then
      (moduleComment [.callModule] r).calledAt .callModule else Step.done r)
    (by simpa using ht) fun r' h' ht' => moduleComments_reads hm h' ht' hnot
  have hbetween := hmodules.andThen (fun r => r.checkEntry .fileItems) (by simpa using ht)
    fun r' h' ht' => checkEntry_reads _ h' (ht'.trans htu) hmem
  have hitems := hbetween.andThen (fun r => items r.cells.length r) (by simpa using ht)
    fun r' h' ht' => by
      have hlen : r'.cells.length = (leavesOfList ts ++ [last]).length := by
        rw [← ht', tokens, List.length_map]
      exact items_reads hts hl (by simp [hlen]) h' ht'
  rw [file]
  generalize hstep : Step.andThen _ (fun r => items r.cells.length r) = step at hitems ⊢
  have hlast : step.reader.tokens = [last] := by
    have htokens := hitems.tokens_eq
    simp only [ht, List.nil_append, List.append_nil, leavesOfList_append,
      List.append_assoc] at htokens
    exact (List.append_cancel_left (List.append_cancel_left htokens)).symm
  have hend := expect_fileEnd [] hitems.calm hlast hl
  simp only [close, Step.andThen, hitems.fault_eq, hend]
  exact ⟨trivial, by simp [hitems.trees_eq], hitems.calm, hlast, hitems.account_eq⟩

end Reader

end CMakeDocs
