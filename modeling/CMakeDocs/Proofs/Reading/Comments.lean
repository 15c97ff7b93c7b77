import CMakeDocs.Proofs.Reading.Accepted

/-!
# Where comments end up

In the tree of a valid file, a documentation comment is read with the command after it if a name
comes next, and by itself otherwise. With `Reader.file_reads` this settles what the reader makes of
every token sequence of the language: it reports nothing, leaves no mark of a fault in the tree,
and keeps all tokens in order.
-/
namespace CMakeDocs

open CMakeDocs.Tree

namespace Tree

mutual

/-- No leaf was skipped or is missing. -/
def isClean : Tree → Bool
  | token _ => true
  | skipped _ => false
  | missing _ => false
  | node _ _ children => areClean children

def areClean : List Tree → Bool
  | [] => true
  | t :: ts => t.isClean && areClean ts

end

@[simp] theorem isClean_token (t : Token) : (token t).isClean = true := by simp [isClean]

@[simp] theorem isClean_node (rule : Rule) (p : Position) (ts : List Tree) :
    (node rule p ts).isClean = areClean ts := by simp [isClean]

@[simp] theorem areClean_nil : areClean [] = true := by simp [areClean]

@[simp] theorem areClean_cons (t : Tree) (ts : List Tree) :
    areClean (t :: ts) = (t.isClean && areClean ts) := by simp [areClean]

@[simp] theorem areClean_append (ts us : List Tree) :
    areClean (ts ++ us) = (areClean ts && areClean us) := by
  induction ts with
  | nil => simp
  | cons t ts ih => simp [ih, Bool.and_assoc]

end Tree

namespace Derivation

theorem Arguments.areClean {ts : List Tree} (h : Arguments ts) : areClean ts = true := by
  induction h with
  | nil => simp
  | single _ _ ih => simp [ih]
  | group _ _ _ _ ihi ihr => simp [ihi, ihr]

theorem Command.isClean {c : Tree} (h : Command c) : c.isClean = true := by
  cases h with
  | mk _ _ ha _ => simp [ha.areClean]

theorem Attached.areClean {ts : List Tree} (h : Attached ts) : areClean ts = true := by
  induction h with
  | nil => simp
  | documented _ hc _ ih => simp [Derivation.documented, Derivation.comment, hc.isClean, ih]
  | command hc _ ih => simp [hc.isClean, ih]
  | comment _ _ _ ih => simp [Derivation.comment, ih]

/-- The tree that begins with a comment, after trees with the given leaves: the comment with a
command if a name comes next, and otherwise the comment by itself. -/
def ReadsComment (ts : List Tree) (before after : List Token) (c : Token) : Prop :=
  (after.head?.map Token.kind = some .identifier ∧
    ∃ us command vs, ts = us ++ documented c command :: vs ∧ leavesOfList us = before) ∨
  (after.head?.map Token.kind ≠ some .identifier ∧
    ∃ us vs, ts = us ++ comment c :: vs ∧ leavesOfList us = before)

theorem ReadsComment.append_left {ts : List Tree} {before after : List Token} {c : Token}
    (h : ReadsComment ts before after c) (us : List Tree) :
    ReadsComment (us ++ ts) (leavesOfList us ++ before) after c := by
  rcases h with ⟨hn, vs, command, ws, rfl, rfl⟩ | ⟨hn, vs, ws, rfl, rfl⟩
  · exact .inl ⟨hn, us ++ vs, command, ws, by simp, by simp⟩
  · exact .inr ⟨hn, us ++ vs, ws, by simp, by simp⟩

theorem ReadsComment.append_right {ts : List Tree} {before after : List Token} {c : Token}
    (h : ReadsComment ts before after c) (us : List Tree) :
    ReadsComment (ts ++ us) before after c := by
  rcases h with ⟨hn, vs, command, ws, rfl, rfl⟩ | ⟨hn, vs, ws, rfl, rfl⟩
  · exact .inl ⟨hn, vs, command, ws ++ us, by simp, rfl⟩
  · exact .inr ⟨hn, vs, ws ++ us, by simp, rfl⟩

/-- A comment after a command is none of the command's tokens. -/
theorem Command.split_leaves {c : Tree} (h : Command c) {others before after : List Token}
    {t : Token} (ht : c.leaves ++ others = before ++ t :: after) (hk : t.kind = .docComment) :
    ∃ between, before = c.leaves ++ between ∧ others = between ++ t :: after := by
  rcases List.append_eq_append_iff.mp ht with ⟨between, hb, ho⟩ | ⟨inside, hc, hi⟩
  · exact ⟨between, hb, ho⟩
  · cases inside with
    | nil => exact ⟨[], by simpa using hc.symm, by simpa using hi.symm⟩
    | cons u us =>
      have hu : t = u := by simpa using congrArg List.head? hi
      have hmem : t.kind ∈ c.leaves.map Token.kind :=
        List.mem_map_of_mem (by rw [hc, hu]; simp)
      have hinner := h.kinds.isInner _ hmem
      simp [Grammar.IsInner, hk, TokenKind.isArgument] at hinner

theorem Attached.readsComment {ts : List Tree} (h : Attached ts) {last : Token}
    (hl : last.kind = .endOfText) {before after : List Token} {c : Token}
    (ht : leavesOfList ts ++ [last] = before ++ c :: after) (hc : c.kind = .docComment) :
    ReadsComment ts before after c := by
  induction h generalizing before with
  | nil =>
    have hmem : c ∈ [last] := by
      rw [leavesOfList_nil, List.nil_append] at ht
      simp [ht]
    rw [List.mem_singleton.mp hmem, hl] at hc
    cases hc
  | @documented t cmd rest _ hcmd _ ih =>
    rw [leavesOfList_cons, leaves_documented, List.append_assoc, List.cons_append] at ht
    cases before with
    | nil =>
      obtain ⟨rfl, hafter⟩ := List.cons.inj ht
      obtain ⟨n, us, hn, hnk⟩ := hcmd.exists_leaves
      exact .inl ⟨by simp [← hafter, hn, hnk], [], cmd, rest, rfl, rfl⟩
    | cons b bs =>
      obtain ⟨rfl, hrest⟩ := List.cons.inj ht
      obtain ⟨between, rfl, hothers⟩ := hcmd.split_leaves hrest hc
      simpa using (ih hothers).append_left [Derivation.documented t cmd]
  | @command cmd rest hcmd _ ih =>
    rw [leavesOfList_cons, List.append_assoc] at ht
    obtain ⟨between, rfl, hothers⟩ := hcmd.split_leaves ht hc
    simpa using (ih hothers).append_left [cmd]
  | @comment t rest _ hnext _ ih =>
    rw [leavesOfList_cons, leaves_comment, List.append_assoc, List.cons_append,
      List.nil_append] at ht
    cases before with
    | nil =>
      obtain ⟨rfl, hafter⟩ := List.cons.inj ht
      refine .inr ⟨?_, [], rest, rfl, rfl⟩
      rw [← hafter]
      cases hrest : leavesOfList rest with
      | nil => simp [hl]
      | cons u us => simpa using hnext u (by simp [hrest])
    | cons b bs =>
      obtain ⟨rfl, hrest⟩ := List.cons.inj ht
      simpa using (ih hrest).append_left [Derivation.comment t]

/-- Trees with leaves are told apart by the leaves in front of them. -/
theorem eq_of_leaves_before {ts us ts' us' : List Tree} {x y : Tree}
    (hne : ∀ t ∈ ts ++ x :: us, t.leaves ≠ []) (h : ts ++ x :: us = ts' ++ y :: us')
    (hl : leavesOfList ts = leavesOfList ts') : x = y := by
  induction ts generalizing ts' with
  | nil =>
    cases ts' with
    | nil => exact (List.cons.inj h).1
    | cons t' ts' =>
      obtain ⟨rfl, -⟩ := List.cons.inj h
      have hx := hne x (by simp)
      rw [leavesOfList_nil, leavesOfList_cons] at hl
      exact absurd (List.append_eq_nil_iff.mp hl.symm).1 hx
  | cons t ts ih =>
    cases ts' with
    | nil =>
      obtain ⟨rfl, -⟩ := List.cons.inj h
      have ht := hne t (by simp)
      rw [leavesOfList_nil, leavesOfList_cons] at hl
      exact absurd (List.append_eq_nil_iff.mp hl).1 ht
    | cons t' ts' =>
      obtain ⟨rfl, hrest⟩ := List.cons.inj h
      rw [leavesOfList_cons, leavesOfList_cons] at hl
      exact ih (fun u hu => hne u (List.mem_cons_of_mem t hu)) hrest (List.append_cancel_left hl)

/-- Every comment among the tokens of a file is read with the command after it if and only if a
name comes next, and otherwise by itself. The leaves in front tell which comment is meant. -/
def CommentsAttached (file : Tree) : Prop :=
  ∀ (before after : List Token) (c : Token), file.leaves = before ++ c :: after →
    c.kind = .docComment →
    ((∃ ts command us, file.children = ts ++ documented c command :: us ∧
        leavesOfList ts = before) ↔ after.head?.map Token.kind = some .identifier) ∧
      ((∃ ts us, file.children = ts ++ comment c :: us ∧ leavesOfList ts = before) ↔
        after.head?.map Token.kind ≠ some .identifier)

theorem Item.leaves_ne_nil {t : Tree} (h : Item t) : t.leaves ≠ [] := by
  cases h with
  | documented _ _ => simp
  | command hc =>
    obtain ⟨n, us, hn, -⟩ := hc.exists_leaves
    simp [hn]
  | comment _ => simp

/-- A module comment in front of the items is none of their comments. -/
theorem readsComment_file {modules items : List Tree} {last : Token} (hm : IsModulePart modules)
    (hi : Attached items) (hl : last.kind = .endOfText) {before after : List Token} {c : Token}
    (ht : leavesOfList modules ++ leavesOfList items ++ [last] = before ++ c :: after)
    (hc : c.kind = .docComment) :
    ReadsComment (modules ++ items ++ [.token last]) before after c := by
  cases hm with
  | none => exact (hi.readsComment hl (by simpa using ht) hc).append_right _
  | @one t hk =>
    cases before with
    | nil =>
      obtain ⟨rfl, -⟩ : t = c ∧ _ := List.cons.inj (by simpa using ht)
      rw [hk] at hc
      cases hc
    | cons b bs =>
      obtain ⟨rfl, hrest⟩ : t = b ∧ leavesOfList items ++ [last] = bs ++ c :: after := by
        simpa using ht
      exact ((hi.readsComment hl hrest hc).append_left [moduleComment t]).append_right _

theorem leaves_ne_nil_of_file {modules items : List Tree} {last : Token}
    (hm : IsModulePart modules) (hi : Attached items) :
    ∀ t ∈ modules ++ items ++ [Tree.token last], t.leaves ≠ [] := by
  intro t ht
  simp only [List.mem_append, List.mem_singleton] at ht
  rcases ht with (ht | ht) | rfl
  · cases hm with
    | none => cases ht
    | one _ => simp [List.mem_singleton.mp ht]
  · exact (hi.items t ht).leaves_ne_nil
  · simp

theorem commentsAttached_file {modules items : List Tree} {last : Token} (p : Position)
    (hm : IsModulePart modules) (hi : Attached items) (hl : last.kind = .endOfText) :
    CommentsAttached (.node .file p (modules ++ items ++ [.token last])) := by
  intro before after c hleaves hc
  simp only [leaves_node, leavesOfList_append, leavesOfList_cons, leaves_token, leavesOfList_nil,
    List.append_nil] at hleaves
  -- The other way of reading the comment would stand at the same place of the same list.
  have hother {ts us vs ws : List Tree} {command : Tree}
      (hd : modules ++ items ++ [.token last] = ts ++ documented c command :: us)
      (ho : modules ++ items ++ [.token last] = vs ++ comment c :: ws)
      (hts : leavesOfList ts = leavesOfList vs) : False := by
    have heq := eq_of_leaves_before (hd ▸ leaves_ne_nil_of_file hm hi) (hd.symm.trans ho) hts
    simp [documented, comment] at heq
  rcases readsComment_file hm hi hl hleaves hc with
    ⟨hn, ts, command, us, hd, hts⟩ | ⟨hn, vs, ws, ho, hvs⟩
  · refine ⟨⟨fun _ => hn, fun _ => ⟨ts, command, us, hd, hts⟩⟩, ⟨?_, fun hn' => absurd hn hn'⟩⟩
    rintro ⟨vs, ws, ho, hvs⟩
    exact (hother hd ho (hts.trans hvs.symm)).elim
  · refine ⟨⟨?_, fun hn' => absurd hn' hn⟩, ⟨fun _ => hn, fun _ => ⟨vs, ws, ho, hvs⟩⟩⟩
    rintro ⟨ts, command, us, hd, hts⟩
    exact (hother hd ho (hts.trans hvs.symm)).elim

end Derivation

namespace Reader

/-- What a valid file comes to: the reading ends without a fault, prints no report but those of the
cells, and gives one tree. The tree is a derivation with exactly the given tokens at its leaves, no
mark of a fault, and each comment where it belongs. -/
structure ReadsWhole (cells : List Cell) (tree : Tree) : Prop where
  returns : (file (ofCells cells)).fault = none
  tree_eq : (file (ofCells cells)).trees = [tree]
  reports_eq : (file (ofCells cells)).reader.reports = cells.flatMap Cell.reports
  derives : Derivation.File tree
  leaves_eq : tree.leaves = cells.map Cell.token
  clean : tree.isClean = true
  attached : Derivation.CommentsAttached tree

/-- Every token sequence of the language is read whole. -/
theorem file_reads_whole_of_grammar (cells : List Cell)
    (h : Grammar.File (cells.map fun cell => cell.token.kind)) :
    ∃ tree, ReadsWhole cells tree := by
  have hkinds : Grammar.File ((cells.map Cell.token).map Token.kind) := by
    rw [List.map_map]
    exact h
  obtain ⟨modules, items, last, hm, hi, hl, htokens⟩ := Derivation.File.exists_of_kinds hkinds
  have hcalm := ofCells_calm hkinds.ended
  have hread := file_reads hm hi hl hcalm (by rw [ofCells_tokens, ← htokens, List.append_assoc])
  obtain ⟨hfault, htrees, hend, hlast, haccount⟩ := hread
  refine ⟨_, hfault, htrees, ?_, .mk hm hi.items hl, ?_, ?_,
    Derivation.commentsAttached_file _ hm hi hl⟩
  · rw [hend.toReady.reports_eq_account hlast, haccount, ofCells_account]
  · simpa using htokens
  · cases hm with
    | none => simp [hi.areClean]
    | one _ => simp [Derivation.moduleComment, hi.areClean]

/-- A cell with a token of a kind, about which nothing else matters. -/
def bareCell (kind : TokenKind) : Cell := ⟨[], ⟨kind, kind.name, 0, .origin⟩⟩

/-- The kinds of a documented command with a list inside a list, and of a comment after it. -/
def nestedKinds : List TokenKind :=
  [.docComment, .identifier, .leftParen, .leftParen, .leftParen, .quoted, .rightParen,
    .rightParen, .rightParen, .docComment, .endOfText]

theorem nestedKinds_reads_whole :
    Grammar.File ((nestedKinds.map bareCell).map fun cell => cell.token.kind) ∧
      ∃ tree, ReadsWhole (nestedKinds.map bareCell) tree := by
  have harguments : Grammar.Arguments
      [.leftParen, .leftParen, .quoted, .rightParen, .rightParen] :=
    .group (.group (.single rfl .nil) .nil) .nil
  have hfile : Grammar.File ((nestedKinds.map bareCell).map fun cell => cell.token.kind) :=
    .plain (.documented (.mk harguments) (.comment .nil))
  exact ⟨hfile, file_reads_whole_of_grammar _ hfile⟩

end Reader

end CMakeDocs
