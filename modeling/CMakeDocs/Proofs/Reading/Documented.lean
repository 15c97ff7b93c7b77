import CMakeDocs.Proofs.Reading.Reported

/-!
# Comments with a command

A comment is read together with the command behind it only after a look ahead to the parenthesis
that closes the command. So whatever faults a text has, a command that is documented is complete:
its tree is one that the grammar derives, and its tokens stand in the text one behind the other.
-/
namespace CMakeDocs

open CMakeDocs.Tree

/-- A comment and the complete command behind it, token by token. -/
structure CommentedCommand where
  comment : Token
  name : Token
  opening : Token
  arguments : List Tree
  closing : Token
  comment_kind : comment.kind = .docComment
  name_kind : name.kind = .identifier
  opening_kind : opening.kind = .leftParen
  derived : Derivation.Arguments arguments
  closing_kind : closing.kind = .rightParen

namespace CommentedCommand

def commandTree (call : CommentedCommand) : Tree :=
  .node .command call.name.position
    (.token call.name :: .token call.opening :: (call.arguments ++ [.token call.closing]))

def tree (call : CommentedCommand) : Tree := Derivation.documented call.comment call.commandTree

/-- The tokens of the comment and the command. -/
def tokens (call : CommentedCommand) : List Token :=
  call.comment :: call.name :: call.opening :: (leavesOfList call.arguments ++ [call.closing])

/-- What the command is read as. -/
def command (call : CommentedCommand) : Command :=
  ⟨Text.toSmall call.name.text, call.arguments.filterMap Command.argumentOf?,
    call.name.text ++ (call.opening.text ++ (textOfList call.arguments ++ call.closing.text)),
    call.name.position.line⟩

theorem derived_commandTree (call : CommentedCommand) : Derivation.Command call.commandTree :=
  .mk call.name_kind call.opening_kind call.derived call.closing_kind

theorem leaves_tree (call : CommentedCommand) : call.tree.leaves = call.tokens := by
  simp [tree, commandTree, tokens]

theorem item_tree (call : CommentedCommand) :
    Item.ofTree? call.tree = some (.documented call.comment.text call.command) :=
  ofTree?_documented call.derived_commandTree
    (ofTree?_commandNode call.name_kind call.opening call.closing call.arguments)

theorem exists_of_derived {t : Token} (ht : t.kind = .docComment) {command : Tree}
    (hc : Derivation.Command command) :
    ∃ call : CommentedCommand, call.tree = Derivation.documented t command := by
  cases hc with
  | @mk name opening closing arguments hn ho ha hc =>
    exact ⟨⟨t, name, opening, arguments, closing, ht, hn, ho, ha, hc⟩, rfl⟩

theorem written_tokens (call : CommentedCommand) : written call.tokens = call.tokens := by
  refine List.filter_eq_self.mpr fun t ht => decide_eq_true fun hend => ?_
  have hitem : ∀ t ∈ [call.tree], Derivation.Item t := by
    simpa using .documented call.comment_kind call.derived_commandTree
  have hkinds := Derivation.items_kinds hitem
  rw [leavesOfList_cons, leavesOfList_nil, List.append_nil, leaves_tree] at hkinds
  exact hkinds.ne_endOfText t.kind (List.mem_map_of_mem ht) hend

end CommentedCommand

namespace Reader

variable {r : Reader}

theorem closesList_other {kind : TokenKind} (ha : kind.isArgument = false) (hl : kind ≠ .leftParen)
    (hr : kind ≠ .rightParen) (depth : Nat) (kinds : List TokenKind) :
    closesList depth (kind :: kinds) = (1, false) := by
  rw [closesList.eq_def]
  simp [ha, hl, hr]

/-- Where the look ahead finds the end of a list, there are arguments in front of the next closing
parenthesis, and behind it the lists around this one are closed as well. -/
theorem exists_arguments_of_closesList {kinds : List TokenKind} {depth : Nat}
    (h : (closesList depth kinds).2 = true) :
    ∃ arguments rest, Grammar.Arguments arguments ∧ kinds = arguments ++ .rightParen :: rest ∧
      (depth = 0 ∨ (closesList (depth - 1) rest).2 = true) := by
  -- A group takes two rounds: one to its own end and one from there on, so the length decreases.
  induction hn : kinds.length using Nat.strongRecOn generalizing kinds depth with
  | _ n ih =>
  subst hn
  cases kinds with
  | nil => cases h
  | cons kind kinds =>
    by_cases ha : kind.isArgument = true
    · rw [closesList_argument ha] at h
      obtain ⟨arguments, rest, harguments, rfl, hrest⟩ := ih kinds.length (by simp) h rfl
      exact ⟨kind :: arguments, rest, .single ha harguments, rfl, hrest⟩
    by_cases hl : kind = .leftParen
    · subst hl
      rw [closesList_leftParen] at h
      obtain ⟨inner, after, hinner, rfl, hafter⟩ := ih kinds.length (by simp) h rfl
      have hafter : (closesList depth after).2 = true := hafter.resolve_left (by simp)
      obtain ⟨arguments, rest, harguments, rfl, hrest⟩ :=
        ih after.length (by simp; omega) hafter rfl
      exact ⟨_, rest, .group hinner harguments, by simp, hrest⟩
    by_cases hr : kind = .rightParen
    · subst hr
      refine ⟨[], kinds, .nil, rfl, ?_⟩
      cases depth with
      | zero => exact .inl rfl
      | succ depth =>
        rw [closesList_rightParen] at h
        exact .inr h
    · rw [closesList_other (by simpa using ha) hl hr] at h
      cases h

theorem exists_command_of_outlook {kinds : List TokenKind} (h : (outlook kinds).1 = .command) :
    ∃ command rest, Grammar.Command command ∧ kinds = command ++ rest := by
  unfold outlook at h
  split at h
  · next kinds =>
    dsimp only at h
    split at h
    · next hclosed =>
      obtain ⟨arguments, rest, harguments, rfl, -⟩ := exists_arguments_of_closesList hclosed
      exact ⟨_, rest, .mk harguments, by simp⟩
    · cases h
  all_goals cases h

/-- A comment is read as such whatever the reader recovers from. -/
theorem documentedCommand_settle (hk : r.kind = .docComment) (calls : List Place) :
    documentedCommand calls r = documentedCommand calls r.settle := by
  have hcomment (calls : List Place) : comment calls r = comment calls r.settle := by
    have hexpected : r.kind ∈ Place.commentToken.expected := by simp [hk, Place.expected]
    have hexpect : r.expect calls .commentToken = r.settle.expect calls .commentToken := by
      rw [expect, if_pos hexpected, expect, if_pos (show r.settle.kind ∈ _ from hexpected)]
      rfl
    rw [comment, hexpect]
    rfl
  rw [documentedCommand, hcomment]
  rfl

/-- After the look ahead a comment and its command are read to the end. -/
theorem documentedCommand_trees (h : r.Ready) (hk : r.kind = .docComment)
    (hout : (outlook (r.tokens.tail.map Token.kind)).1 = .command) (calls : List Place) :
    ∃ call : CommentedCommand, (documentedCommand calls r).trees = [call.tree] := by
  obtain ⟨following, htokens⟩ := h.tokens_eq
  rw [htokens, List.tail_cons] at hout
  obtain ⟨kinds, others, hcommand, hkinds⟩ := exists_command_of_outlook hout
  obtain ⟨tokens, rest, rfl, htokens', -⟩ := List.map_eq_append_iff.mp hkinds
  obtain ⟨command, hderived, rfl⟩ := Derivation.Command.exists_of_kinds hcommand tokens htokens'
  obtain ⟨call, hcall⟩ := CommentedCommand.exists_of_derived hk hderived
  refine ⟨call, ?_⟩
  rw [documentedCommand_settle hk, hcall]
  exact (documentedCommand_reads calls hk hderived h.settle htokens).trees_eq

end Reader

/-- A tree of a documented command is that of a complete one. -/
def Tree.IsWhole (t : Tree) : Prop :=
  t.rule? = some .documentedCommand → ∃ call : CommentedCommand, t = call.tree

theorem Step.All.isWhole {step : Step} {rule? : Option Rule}
    (h : step.All fun t => t.rule? = rule?) (hne : rule? ≠ some .documentedCommand) :
    step.All IsWhole :=
  h.mono fun _ ht hrule => absurd (ht.symm.trans hrule) hne

/-- A step that starts from a reader reads no documented command that is not complete. -/
structure Step.Finishes (step : Step) (r : Reader) : Prop extends step.Follows r where
  isWhole : step.All IsWhole

namespace Step.Finishes

variable {step : Step} {r : Reader}

theorem of_leafy (h : step.Follows r) (hleafy : step.Leafy) : step.Finishes r :=
  ⟨h, All.isWhole hleafy (by simp)⟩

theorem done (h : r.Ready) : (Step.done r).Finishes r := of_leafy (.done h) (.done r)

theorem andThen (h : step.Finishes r) {next : Reader → Step}
    (hn : ∀ r' : Reader, r'.Ready → (next r').Finishes r') : (step.andThen next).Finishes r :=
  ⟨h.toFollows.andThen fun r' h' => (hn r' h').toFollows,
    .andThen h.isWhole (hn _ h.ready).isWhole⟩

end Step.Finishes

namespace Reader

variable {r : Reader}

theorem checkEntry_finishes (h : r.Ready) (place : Place) : (r.checkEntry place).Finishes r :=
  .of_leafy (checkEntry_follows h place) (checkEntry_leafy r place)

theorem checkNext_finishes (h : r.Ready) (place : Place) : (r.checkNext place).Finishes r :=
  .of_leafy (checkNext_follows h place) (checkNext_leafy r place)

theorem expect_finishes (h : r.Ready) (calls : List Place) (place : Place) :
    (r.expect calls place).Finishes r :=
  .of_leafy (expect_follows h calls place) (expect_leafy r calls place)

theorem item_finishes (h : r.Ready) : (item r).Finishes r := by
  refine ⟨item_follows h, ?_⟩
  unfold item
  split
  · next hk =>
    dsimp only
    split
    · next hout =>
      generalize (outlook _).2 + 1 = n
      obtain ⟨following, htokens⟩ := h.tokens_eq
      have hkind : (r.look n).kind = .docComment := by
        rw [kind_eq ((look_tokens r n).trans htokens)]
        exact hk
      obtain ⟨call, htrees⟩ := documentedCommand_trees (h.look n) hkind
        (by rw [look_tokens]; exact hout) [.callDocumented]
      intro t ht _
      rw [Step.calledAt, htrees] at ht
      exact ⟨call, List.mem_singleton.mp ht⟩
    · exact (close_rule _ _ _ _).isWhole (by simp)
    · exact .of_nil rfl
  · exact (close_rule _ _ _ _).isWhole (by simp)

theorem items_finishes (fuel : Nat) (h : r.Ready) : (items fuel r).Finishes r := by
  induction fuel generalizing r with
  | zero => exact .done h
  | succ fuel ih =>
    unfold items
    split
    · exact ((item_finishes h).andThen fun _ h' => checkNext_finishes h' _).andThen
        fun _ h' => ih h'
    · exact .done h

theorem untilEnd_finishes (h : r.Ready) : r.untilEnd.Finishes r := by
  refine (((checkEntry_finishes h _).andThen fun r' h' => ?_).andThen fun _ h' =>
    checkEntry_finishes h' _).andThen fun _ h' => items_finishes _ h'
  split
  · exact ⟨(moduleComment_follows h' _).calledAt _, (close_rule _ _ _ _).isWhole (by simp)⟩
  · exact .done h'

theorem file_children_isWhole (h : r.Ready) {tree : Tree} (htree : (file r).tree? = some tree) :
    ∀ t ∈ tree.children, t.IsWhole := by
  obtain ⟨skipped, hskipped, htrees⟩ := close_trees .file r.current.position []
    (r.untilEnd.andThen fun r => r.expect [] .fileEnd)
  have hread := (untilEnd_finishes h).andThen fun _ h' => expect_finishes h' [] .fileEnd
  rw [Step.tree?, file_eq, htrees, List.head?_cons, Option.some.injEq] at htree
  subst htree
  exact List.forall_mem_append.mpr ⟨hread.isWhole, Step.All.isWhole hskipped (by simp)⟩

/-- The leaves of a file are tokens from the front of its text. -/
theorem written_leaves_file (h : r.Ready) {tree : Tree} (htree : (file r).tree? = some tree) :
    written tree.leaves <+: written r.tokens := by
  have hwritten := (file_follows h).written_eq
  obtain ⟨children, htrees, -⟩ := file_leads r
  rw [Step.tree?, htrees, List.head?_cons, Option.some.injEq] at htree
  subst htree
  rw [htrees, leavesOfList_cons, leavesOfList_nil, List.append_nil] at hwritten
  exact ⟨_, hwritten.symm⟩

end Reader

theorem Tree.leaves_infix_of_mem {t : Tree} {ts : List Tree} (h : t ∈ ts) :
    t.leaves <:+: leavesOfList ts := by
  obtain ⟨before, after, rfl⟩ := List.append_of_mem h
  exact ⟨leavesOfList before, leavesOfList after, by simp⟩

theorem Tree.leaves_children (tree : Tree) : leavesOfList tree.children <:+: tree.leaves := by
  cases tree with
  | node rule p ts => simp [children]
  | _ => exact List.nil_infix

theorem Item.rule?_of_documented {t : Tree} {comment : String} {command : Command}
    (h : ofTree? t = some (documented comment command)) : t.rule? = some .documentedCommand := by
  unfold ofTree? at h
  split at h
  · obtain ⟨_, -, heq⟩ := Option.map_eq_some_iff.mp h
    cases heq
  · rfl
  · cases h
  · obtain ⟨_, -, heq⟩ := Option.map_eq_some_iff.mp h
    cases heq

/-- What is read as a documented command stands in the text as a comment and a complete command. -/
theorem Item.exists_commentedCommand {text : String} {tree : Tree}
    (htree : (Reader.file (Reader.start text)).tree? = some tree) {comment : String}
    {command : Command} (h : documented comment command ∈ ofFile tree) :
    ∃ call : CommentedCommand, call.tokens <:+: Token.ofText text ∧
      call.comment.text = comment ∧ call.command = command := by
  have hready := (Reader.start_calm text).toReady
  obtain ⟨t, ht, hitem⟩ := List.mem_filterMap.mp h
  obtain ⟨call, rfl⟩ :=
    Reader.file_children_isWhole hready htree t ht (rule?_of_documented hitem)
  rw [call.item_tree, Option.some.injEq, documented.injEq] at hitem
  refine ⟨call, ?_, hitem.1, hitem.2⟩
  have hleaves : call.tokens <:+: tree.leaves := by
    rw [← call.leaves_tree]
    exact (Tree.leaves_infix_of_mem ht).trans tree.leaves_children
  have hwritten : written call.tokens <:+: written tree.leaves := hleaves.filter _
  rw [call.written_tokens] at hwritten
  rw [← Reader.start_written]
  exact hwritten.trans (Reader.written_leaves_file hready htree).isInfix

end CMakeDocs
