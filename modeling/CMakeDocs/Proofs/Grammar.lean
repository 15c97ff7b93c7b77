import CMakeDocs.Tree

/-!
# The grammar of a file

The language of a file is stated twice: as lists of token kinds, rule by rule, and as the trees
that derive such lists. `Derivation.File.kinds` and `Derivation.File.exists_of_kinds` say that
both describe the same token sequences. A comment in front of a command may be read as belonging
to it or as standing alone, so a list of kinds can have several derivations; in one of them every
comment that a command follows is attached to that command.
-/
namespace CMakeDocs

namespace Grammar

/-- Any number of arguments, each one token or a list in parentheses. -/
inductive Arguments : List TokenKind → Prop where
  | nil : Arguments []
  | single {kind : TokenKind} {rest : List TokenKind} (hk : kind.isArgument = true)
      (hr : Arguments rest) : Arguments (kind :: rest)
  | group {inner rest : List TokenKind} (hi : Arguments inner) (hr : Arguments rest) :
      Arguments (.leftParen :: (inner ++ .rightParen :: rest))

/-- A name and a list of arguments in parentheses. -/
inductive Command : List TokenKind → Prop where
  | mk {arguments : List TokenKind} (ha : Arguments arguments) :
      Command (.identifier :: .leftParen :: (arguments ++ [.rightParen]))

/-- Any number of documented commands, commands and comments. -/
inductive Items : List TokenKind → Prop where
  | nil : Items []
  | documented {command rest : List TokenKind} (hc : Command command) (hr : Items rest) :
      Items (.docComment :: (command ++ rest))
  | command {command rest : List TokenKind} (hc : Command command) (hr : Items rest) :
      Items (command ++ rest)
  | comment {rest : List TokenKind} (hr : Items rest) : Items (.docComment :: rest)

/-- An optional module comment, items, and the end of the text. -/
inductive File : List TokenKind → Prop where
  | plain {items : List TokenKind} (hi : Items items) : File (items ++ [.endOfText])
  | withModule {items : List TokenKind} (hi : Items items) :
      File (.moduleComment :: (items ++ [.endOfText]))

/-- Inside a command there are only arguments and parentheses. -/
def IsInner (kind : TokenKind) : Prop :=
  kind.isArgument = true ∨ kind = .leftParen ∨ kind = .rightParen

theorem Arguments.isInner {kinds : List TokenKind} (h : Arguments kinds) :
    ∀ k ∈ kinds, IsInner k := by
  induction h with
  | nil => simp
  | single hk _ ih => exact List.forall_mem_cons.mpr ⟨.inl hk, ih⟩
  | group _ _ ihi ihr =>
    refine List.forall_mem_cons.mpr ⟨.inr (.inl rfl), List.forall_mem_append.mpr ⟨ihi, ?_⟩⟩
    exact List.forall_mem_cons.mpr ⟨.inr (.inr rfl), ihr⟩

theorem Command.isInner {kinds : List TokenKind} (h : Command kinds) : ∀ k ∈ kinds, IsInner k := by
  cases h with
  | mk ha =>
    intro k hk
    simp only [List.mem_cons, List.mem_append, List.not_mem_nil, or_false] at hk
    rcases hk with rfl | rfl | hk | rfl
    · exact .inl rfl
    · exact .inr (.inl rfl)
    · exact ha.isInner k hk
    · exact .inr (.inr rfl)

theorem Items.ne_endOfText {kinds : List TokenKind} (h : Items kinds) :
    ∀ k ∈ kinds, k ≠ .endOfText := by
  have hinner {k : TokenKind} (hk : IsInner k) : k ≠ .endOfText := by
    rintro rfl
    simp [IsInner, TokenKind.isArgument] at hk
  induction h with
  | nil => simp
  | documented hc _ ih =>
    refine List.forall_mem_cons.mpr ⟨by simp, List.forall_mem_append.mpr ⟨?_, ih⟩⟩
    exact fun k hk => hinner (hc.isInner k hk)
  | command hc _ ih =>
    exact List.forall_mem_append.mpr ⟨fun k hk => hinner (hc.isInner k hk), ih⟩
  | comment _ ih => exact List.forall_mem_cons.mpr ⟨by simp, ih⟩

end Grammar

namespace Tree

@[simp] theorem leaves_token (t : Token) : (token t).leaves = [t] := by simp [leaves]

@[simp] theorem leaves_node (rule : Rule) (p : Position) (ts : List Tree) :
    (node rule p ts).leaves = leavesOfList ts := by simp [leaves]

@[simp] theorem leavesOfList_nil : leavesOfList [] = [] := by simp [leavesOfList]

@[simp] theorem leavesOfList_cons (t : Tree) (ts : List Tree) :
    leavesOfList (t :: ts) = t.leaves ++ leavesOfList ts := by simp [leavesOfList]

@[simp] theorem leavesOfList_append (ts us : List Tree) :
    leavesOfList (ts ++ us) = leavesOfList ts ++ leavesOfList us := by
  induction ts with
  | nil => simp
  | cons t ts ih => simp [ih]

end Tree

namespace Derivation

open CMakeDocs.Tree

/-- The trees of any number of arguments. A node stands where its first token stands. -/
inductive Arguments : List Tree → Prop where
  | nil : Arguments []
  | single {t : Token} {rest : List Tree} (hk : t.kind.isArgument = true) (hr : Arguments rest) :
      Arguments (.node .argument t.position [.token t] :: rest)
  | group {opening closing : Token} {inner rest : List Tree} (ho : opening.kind = .leftParen)
      (hi : Arguments inner) (hc : closing.kind = .rightParen) (hr : Arguments rest) :
      Arguments (.node .group opening.position (.token opening :: (inner ++ [.token closing])) ::
        rest)

theorem Arguments.append {ts us : List Tree} (ht : Arguments ts) (hu : Arguments us) :
    Arguments (ts ++ us) := by
  induction ht with
  | nil => exact hu
  | single hk _ ih => exact .single hk ih
  | group ho hi hc _ _ ih => exact .group ho hi hc ih

inductive Command : Tree → Prop where
  | mk {name opening closing : Token} {arguments : List Tree} (hn : name.kind = .identifier)
      (ho : opening.kind = .leftParen) (ha : Arguments arguments)
      (hc : closing.kind = .rightParen) :
      Command (.node .command name.position
        (.token name :: .token opening :: (arguments ++ [.token closing])))

/-- The tree of a comment that is read by itself. -/
def comment (t : Token) : Tree := .node .comment t.position [.token t]

/-- The tree of a command with the comment in front of it. -/
def documented (t : Token) (command : Tree) : Tree :=
  .node .documentedCommand t.position [comment t, command]

inductive Item : Tree → Prop where
  | documented {t : Token} {command : Tree} (ht : t.kind = .docComment) (hc : Command command) :
      Item (Derivation.documented t command)
  | command {command : Tree} (hc : Command command) : Item command
  | comment {t : Token} (ht : t.kind = .docComment) : Item (Derivation.comment t)

/-- The tree of the comment on a whole file. -/
def moduleComment (t : Token) : Tree := .node .documentedModule t.position [.token t]

/-- What may stand before the items of a file. -/
inductive IsModulePart : List Tree → Prop where
  | none : IsModulePart []
  | one {t : Token} (ht : t.kind = .moduleComment) : IsModulePart [moduleComment t]

inductive File : Tree → Prop where
  | mk {p : Position} {modules items : List Tree} {last : Token} (hm : IsModulePart modules)
      (hi : ∀ t ∈ items, Item t) (hl : last.kind = .endOfText) :
      File (.node .file p (modules ++ items ++ [.token last]))

/-- Items among which no comment is left alone in front of a command. -/
inductive Attached : List Tree → Prop where
  | nil : Attached []
  | documented {t : Token} {command : Tree} {rest : List Tree} (ht : t.kind = .docComment)
      (hc : Command command) (hr : Attached rest) :
      Attached (Derivation.documented t command :: rest)
  | command {command : Tree} {rest : List Tree} (hc : Command command) (hr : Attached rest) :
      Attached (command :: rest)
  | comment {t : Token} {rest : List Tree} (ht : t.kind = .docComment)
      (hn : ∀ u ∈ (leavesOfList rest).head?, u.kind ≠ .identifier) (hr : Attached rest) :
      Attached (Derivation.comment t :: rest)

@[simp] theorem leaves_comment (t : Token) : (comment t).leaves = [t] := by simp [comment]

@[simp] theorem leaves_documented (t : Token) (command : Tree) :
    (documented t command).leaves = t :: command.leaves := by simp [documented]

@[simp] theorem leaves_moduleComment (t : Token) : (moduleComment t).leaves = [t] := by
  simp [moduleComment]

/-- A command begins with its name. -/
theorem Command.exists_leaves {c : Tree} (h : Command c) :
    ∃ name rest, c.leaves = name :: rest ∧ name.kind = .identifier := by
  cases h with
  | @mk name opening closing arguments hn _ _ _ =>
    exact ⟨name, opening :: (leavesOfList arguments ++ [closing]), by simp, hn⟩

theorem Arguments.kinds {ts : List Tree} (h : Arguments ts) :
    Grammar.Arguments ((leavesOfList ts).map Token.kind) := by
  induction h with
  | nil => simpa using Grammar.Arguments.nil
  | single hk _ ih => simpa using Grammar.Arguments.single hk ih
  | group ho _ hc _ ihi ihr => simpa [ho, hc] using Grammar.Arguments.group ihi ihr

theorem Command.kinds {t : Tree} (h : Command t) : Grammar.Command (t.leaves.map Token.kind) := by
  cases h with
  | mk hn ho ha hc => simpa [hn, ho, hc] using Grammar.Command.mk ha.kinds

theorem items_kinds {ts : List Tree} (h : ∀ t ∈ ts, Item t) :
    Grammar.Items ((leavesOfList ts).map Token.kind) := by
  induction ts with
  | nil => simpa using Grammar.Items.nil
  | cons t ts ih =>
    have hrest := ih fun u hu => h u (List.mem_cons_of_mem t hu)
    cases h t List.mem_cons_self with
    | documented ht hc => simpa [ht] using Grammar.Items.documented hc.kinds hrest
    | command hc => simpa using Grammar.Items.command hc.kinds hrest
    | comment ht => simpa [ht] using Grammar.Items.comment hrest

theorem File.kinds {t : Tree} (h : File t) : Grammar.File (t.leaves.map Token.kind) := by
  cases h with
  | mk hm hi hl =>
    cases hm with
    | none => simpa [hl] using Grammar.File.plain (items_kinds hi)
    | one ht => simpa [ht, hl] using Grammar.File.withModule (items_kinds hi)

theorem Attached.items {ts : List Tree} (h : Attached ts) : ∀ t ∈ ts, Item t := by
  induction h with
  | nil => simp
  | documented ht hc _ ih => exact List.forall_mem_cons.mpr ⟨.documented ht hc, ih⟩
  | command hc _ ih => exact List.forall_mem_cons.mpr ⟨.command hc, ih⟩
  | comment ht _ _ ih => exact List.forall_mem_cons.mpr ⟨.comment ht, ih⟩

theorem Arguments.exists_of_kinds {kinds : List TokenKind} (h : Grammar.Arguments kinds)
    (tokens : List Token) (ht : tokens.map Token.kind = kinds) :
    ∃ ts, Arguments ts ∧ leavesOfList ts = tokens := by
  induction h generalizing tokens with
  | nil =>
    have hnil : tokens = [] := List.map_eq_nil_iff.mp ht
    exact ⟨[], .nil, by simp [hnil]⟩
  | single hk _ ih =>
    obtain ⟨t, rest, rfl, rfl, hr⟩ := List.map_eq_cons_iff.mp ht
    obtain ⟨ts, hts, rfl⟩ := ih rest hr
    exact ⟨_, .single hk hts, by simp⟩
  | group _ _ ihi ihr =>
    obtain ⟨o, tail, rfl, ho, htail⟩ := List.map_eq_cons_iff.mp ht
    obtain ⟨inner, tail', rfl, hi, htail'⟩ := List.map_eq_append_iff.mp htail
    obtain ⟨c, rest, rfl, hc, hr⟩ := List.map_eq_cons_iff.mp htail'
    obtain ⟨ts, hts, rfl⟩ := ihi inner hi
    obtain ⟨us, hus, rfl⟩ := ihr rest hr
    exact ⟨_, .group ho hts hc hus, by simp⟩

theorem Command.exists_of_kinds {kinds : List TokenKind} (h : Grammar.Command kinds)
    (tokens : List Token) (ht : tokens.map Token.kind = kinds) :
    ∃ t, Command t ∧ t.leaves = tokens := by
  cases h with
  | mk ha =>
    obtain ⟨n, tail, rfl, hn, htail⟩ := List.map_eq_cons_iff.mp ht
    obtain ⟨o, tail', rfl, ho, htail'⟩ := List.map_eq_cons_iff.mp htail
    obtain ⟨inner, last, rfl, hi, hlast⟩ := List.map_eq_append_iff.mp htail'
    obtain ⟨c, rest, rfl, hc, hr⟩ := List.map_eq_cons_iff.mp hlast
    have hnil : rest = [] := List.map_eq_nil_iff.mp hr
    obtain ⟨ts, hts, rfl⟩ := Arguments.exists_of_kinds ha inner hi
    exact ⟨_, .mk hn ho hts hc, by simp [hnil]⟩

/-- A list of items can be read so that its comments are attached to the commands after them. -/
theorem Attached.exists_of_kinds {kinds : List TokenKind} (h : Grammar.Items kinds)
    (tokens : List Token) (ht : tokens.map Token.kind = kinds) :
    ∃ ts, Attached ts ∧ leavesOfList ts = tokens := by
  induction h generalizing tokens with
  | nil =>
    have hnil : tokens = [] := List.map_eq_nil_iff.mp ht
    exact ⟨[], .nil, by simp [hnil]⟩
  | documented hc _ ih =>
    obtain ⟨d, tail, rfl, hd, htail⟩ := List.map_eq_cons_iff.mp ht
    obtain ⟨cs, rest, rfl, hcs, hr⟩ := List.map_eq_append_iff.mp htail
    obtain ⟨c, hct, rfl⟩ := Command.exists_of_kinds hc cs hcs
    obtain ⟨ts, hts, rfl⟩ := ih rest hr
    exact ⟨_, .documented hd hct hts, by simp⟩
  | command hc _ ih =>
    obtain ⟨cs, rest, rfl, hcs, hr⟩ := List.map_eq_append_iff.mp ht
    obtain ⟨c, hct, rfl⟩ := Command.exists_of_kinds hc cs hcs
    obtain ⟨ts, hts, rfl⟩ := ih rest hr
    exact ⟨_, .command hct hts, by simp⟩
  | comment _ ih =>
    obtain ⟨d, rest, rfl, hd, hr⟩ := List.map_eq_cons_iff.mp ht
    obtain ⟨ts, hts, rfl⟩ := ih rest hr
    -- Only a command that comes next changes how the comment is read.
    cases hts with
    | nil => exact ⟨_, .comment hd (by simp) .nil, by simp⟩
    | documented hd' hc hs =>
      exact ⟨_, .comment hd (by simp [hd']) (.documented hd' hc hs), by simp⟩
    | command hc hs => exact ⟨_, .documented hd hc hs, by simp⟩
    | comment hd' hn hs => exact ⟨_, .comment hd (by simp [hd']) (.comment hd' hn hs), by simp⟩

/-- Every token sequence whose kinds are those of a file has a derivation with attached comments. -/
theorem File.exists_of_kinds {tokens : List Token} (h : Grammar.File (tokens.map Token.kind)) :
    ∃ modules items last, IsModulePart modules ∧ Attached items ∧ last.kind = .endOfText ∧
      leavesOfList modules ++ leavesOfList items ++ [last] = tokens := by
  generalize hk : tokens.map Token.kind = kinds at h
  cases h with
  | plain hi =>
    obtain ⟨body, tail, rfl, hb, htail⟩ := List.map_eq_append_iff.mp hk
    obtain ⟨last, rest, rfl, hl, hr⟩ := List.map_eq_cons_iff.mp htail
    have hnil : rest = [] := List.map_eq_nil_iff.mp hr
    obtain ⟨ts, hts, rfl⟩ := Attached.exists_of_kinds hi body hb
    exact ⟨[], ts, last, .none, hts, hl, by simp [hnil]⟩
  | withModule hi =>
    obtain ⟨m, body', rfl, hm, hbody⟩ := List.map_eq_cons_iff.mp hk
    obtain ⟨body, tail, rfl, hb, htail⟩ := List.map_eq_append_iff.mp hbody
    obtain ⟨last, rest, rfl, hl, hr⟩ := List.map_eq_cons_iff.mp htail
    have hnil : rest = [] := List.map_eq_nil_iff.mp hr
    obtain ⟨ts, hts, rfl⟩ := Attached.exists_of_kinds hi body hb
    exact ⟨[moduleComment m], ts, last, .one hm, hts, hl, by simp [hnil]⟩

end Derivation

end CMakeDocs
