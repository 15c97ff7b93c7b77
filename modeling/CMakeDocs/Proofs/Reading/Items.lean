import CMakeDocs.Command
import CMakeDocs.Proofs.Scanning

/-!
# The items of a derivation

Which items the trees of a file are read as depends on the kinds and the texts of its tokens, and
not on where they stand: tokens that say the same have trees that say the same, apart from the lines
of their commands. Trees can stand one behind the other, unless a comment at the end of the first
would belong to a command at the start of the others.
-/
namespace CMakeDocs

open CMakeDocs.Tree

/-- A command without the line that it stands in. -/
def Command.unplaced (c : Command) : Command := { c with line := 0 }

/-- An item without the line that it stands in. -/
def Item.unplaced : Item → Item
  | documented comment command => documented comment command.unplaced
  | plain command => plain command.unplaced
  | it => it

theorem Token.kind_eq {t u : Token} (h : u.word = t.word) : u.kind = t.kind := congrArg Prod.fst h

theorem Token.text_eq {t u : Token} (h : u.word = t.word) : u.text = t.text := congrArg Prod.snd h

theorem Tree.textOfList_append (ts us : List Tree) :
    textOfList (ts ++ us) = textOfList ts ++ textOfList us := by
  induction ts with
  | nil => simp [textOfList]
  | cons t ts ih => simp [textOfList, ih, String.append_assoc]

theorem mem_getLast?_append {t : Token} {after : List Token} (h : t ∈ after.getLast?)
    (before : List Token) : t ∈ (before ++ after).getLast? := by
  rw [List.getLast?_append, Option.mem_def.mp h]
  rfl

theorem ofTree?_documented {t : Token} {tree : Tree} {command : Command}
    (hc : Derivation.Command tree) (h : Command.ofTree? tree = some command) :
    Item.ofTree? (Derivation.documented t tree) = some (.documented t.text command) := by
  cases hc with
  | mk _ _ _ _ =>
    simp [Derivation.documented, Derivation.comment, Item.ofTree?, Tree.childrenOf,
      Tree.children, Tree.rule?, Tree.text, Tree.textOfList, h]

theorem ofTree?_command {tree : Tree} {command : Command} (hc : Derivation.Command tree)
    (h : Command.ofTree? tree = some command) : Item.ofTree? tree = some (.plain command) := by
  cases hc with
  | mk _ _ _ _ =>
    rw [Item.ofTree?, h]
    · rfl
    all_goals simp

theorem ofTree?_moduleComment {t : Token} (ht : t.kind = .moduleComment) :
    Item.ofTree? (Derivation.moduleComment t) = some (.moduleComment t.text) := by
  have hleaf : (Derivation.moduleComment t).leafOf? .moduleComment = some (.token t) := by
    simp [Derivation.moduleComment, Tree.leafOf?, Tree.children, Tree.kind?, ht]
  rw [Derivation.moduleComment] at hleaf ⊢
  rw [Item.ofTree?, hleaf]
  rfl

/-- What a command is read as. -/
theorem ofTree?_commandNode {name : Token} (hn : name.kind = .identifier) (opening closing : Token)
    (arguments : List Tree) :
    Command.ofTree? (.node .command name.position
        (.token name :: .token opening :: (arguments ++ [.token closing]))) =
      some ⟨Text.toSmall name.text, arguments.filterMap Command.argumentOf?,
        name.text ++ (opening.text ++ (textOfList arguments ++ closing.text)),
        name.position.line⟩ := by
  have hleaf : (Tree.node .command name.position
      (.token name :: .token opening :: (arguments ++ [.token closing]))).leafOf?
        .identifier = some (.token name) := by
    simp [Tree.leafOf?, Tree.children, Tree.kind?, hn]
  have htoken (t : Token) : Command.argumentOf? (.token t) = none := rfl
  rw [Command.ofTree?, hleaf]
  simp [htoken, Tree.text, textOfList, textOfList_append]

namespace Derivation

theorem Arguments.exists_moved {ts : List Tree} (h : Arguments ts) {us : List Token}
    (hu : us.map Token.word = (leavesOfList ts).map Token.word) :
    ∃ ts', Arguments ts' ∧ leavesOfList ts' = us ∧ textOfList ts' = textOfList ts ∧
      ts'.filterMap Command.argumentOf? = ts.filterMap Command.argumentOf? := by
  induction h generalizing us with
  | nil =>
    obtain rfl := List.map_eq_nil_iff.mp hu
    exact ⟨[], .nil, by simp, rfl, rfl⟩
  | @single t rest hk _ ih =>
    simp only [leavesOfList_cons, leaves_node, leaves_token, leavesOfList_nil, List.append_nil,
      List.cons_append, List.nil_append, List.map_cons] at hu
    obtain ⟨u, us, rfl, hword, hus⟩ := List.map_eq_cons_iff.mp hu
    obtain ⟨ts', hts', rfl, htext, harguments⟩ := ih hus
    have hkind : u.kind = t.kind := Token.kind_eq hword
    have hsame : u.text = t.text := Token.text_eq hword
    refine ⟨.node .argument u.position [.token u] :: ts', .single (hkind ▸ hk) hts', by simp,
      ?_, ?_⟩
    · simp [textOfList, Tree.text, hsame, htext]
    · simp [Command.argumentOf?, Tree.rule?, Command.argumentKind, Tree.text, textOfList, hkind,
        hsame, harguments]
  | @group opening closing inner rest ho _ hc _ ihi ihr =>
    simp only [leavesOfList_cons, leaves_node, leaves_token, leavesOfList_append, leavesOfList_nil,
      List.append_nil, List.cons_append, List.nil_append, List.append_assoc, List.map_cons,
      List.map_append] at hu
    obtain ⟨o, us, rfl, hopening, hu⟩ := List.map_eq_cons_iff.mp hu
    obtain ⟨vs, us, rfl, hvs, hu⟩ := List.map_eq_append_iff.mp hu
    obtain ⟨c, us, rfl, hclosing, hus⟩ := List.map_eq_cons_iff.mp hu
    obtain ⟨inner', hinner, rfl, htext, -⟩ := ihi hvs
    obtain ⟨rest', hrest, rfl, htext', harguments⟩ := ihr hus
    have hgroup : (Tree.node .group o.position (.token o :: (inner' ++ [.token c]))).text =
        (Tree.node .group opening.position
          (.token opening :: (inner ++ [.token closing]))).text := by
      have ho' : o.text = opening.text := Token.text_eq hopening
      have hc' : c.text = closing.text := Token.text_eq hclosing
      simp [Tree.text, textOfList, textOfList_append, htext, ho', hc']
    refine ⟨.node .group o.position (.token o :: (inner' ++ [.token c])) :: rest',
      .group ((Token.kind_eq hopening).trans ho) hinner
        ((Token.kind_eq hclosing).trans hc) hrest, by simp, ?_, ?_⟩
    · rw [textOfList, textOfList, hgroup, htext']
    · rw [List.filterMap_cons, List.filterMap_cons, harguments, Command.argumentOf?, Tree.rule?,
        Command.argumentOf?, Tree.rule?, hgroup]

theorem Command.exists_moved {tree : Tree} (h : Command tree) {us : List Token}
    (hu : us.map Token.word = tree.leaves.map Token.word) :
    ∃ tree' command command', Command tree' ∧ tree'.leaves = us ∧
      CMakeDocs.Command.ofTree? tree = some command ∧
      CMakeDocs.Command.ofTree? tree' = some command' ∧ command'.unplaced = command.unplaced := by
  cases h with
  | @mk name opening closing arguments hn ho ha hc =>
    simp only [leaves_node, leavesOfList_cons, leaves_token, leavesOfList_append, leavesOfList_nil,
      List.append_nil, List.cons_append, List.nil_append, List.map_cons, List.map_append,
      List.map_nil] at hu
    obtain ⟨n, us, rfl, hname, hu⟩ := List.map_eq_cons_iff.mp hu
    obtain ⟨o, us, rfl, hopening, hu⟩ := List.map_eq_cons_iff.mp hu
    obtain ⟨vs, us, rfl, hvs, hu⟩ := List.map_eq_append_iff.mp hu
    obtain ⟨c, us, rfl, hclosing, hu⟩ := List.map_eq_cons_iff.mp hu
    obtain rfl := List.map_eq_nil_iff.mp hu
    obtain ⟨arguments', ha', rfl, htext, harguments⟩ := ha.exists_moved hvs
    have hn' : n.kind = .identifier := (Token.kind_eq hname).trans hn
    refine ⟨_, _, _, .mk hn' ((Token.kind_eq hopening).trans ho) ha'
      ((Token.kind_eq hclosing).trans hc), by simp, ofTree?_commandNode hn _ _ _,
      ofTree?_commandNode hn' _ _ _, ?_⟩
    have hn' : n.text = name.text := Token.text_eq hname
    have ho' : o.text = opening.text := Token.text_eq hopening
    have hc' : c.text = closing.text := Token.text_eq hclosing
    rw [CMakeDocs.Command.unplaced, CMakeDocs.Command.unplaced, hn', ho', hc', htext, harguments]

/-- Tokens that say the same as those of some trees have trees with the same items. -/
theorem Attached.exists_moved {ts : List Tree} (h : Attached ts) {us : List Token}
    (hu : us.map Token.word = (leavesOfList ts).map Token.word) :
    ∃ ts', Attached ts' ∧ leavesOfList ts' = us ∧
      (ts'.filterMap CMakeDocs.Item.ofTree?).map CMakeDocs.Item.unplaced =
        (ts.filterMap CMakeDocs.Item.ofTree?).map CMakeDocs.Item.unplaced := by
  induction h generalizing us with
  | nil =>
    obtain rfl := List.map_eq_nil_iff.mp hu
    exact ⟨[], .nil, by simp, rfl⟩
  | @documented t tree rest ht hc _ ih =>
    simp only [leavesOfList_cons, leaves_documented, List.cons_append, List.map_cons,
      List.map_append] at hu
    obtain ⟨u, us, rfl, hword, hu⟩ := List.map_eq_cons_iff.mp hu
    obtain ⟨vs, us, rfl, hvs, hus⟩ := List.map_eq_append_iff.mp hu
    obtain ⟨tree', command, command', hc', rfl, hcommand, hcommand', hsame⟩ := hc.exists_moved hvs
    obtain ⟨rest', hrest, rfl, hitems⟩ := ih hus
    have htext : u.text = t.text := Token.text_eq hword
    refine ⟨Derivation.documented u tree' :: rest',
      .documented ((Token.kind_eq hword).trans ht) hc' hrest, by simp, ?_⟩
    rw [List.filterMap_cons_some (ofTree?_documented hc hcommand),
      List.filterMap_cons_some (ofTree?_documented hc' hcommand'), List.map_cons, List.map_cons,
      hitems, CMakeDocs.Item.unplaced, CMakeDocs.Item.unplaced, hsame, htext]
  | @command tree rest hc _ ih =>
    simp only [leavesOfList_cons, List.map_append] at hu
    obtain ⟨vs, us, rfl, hvs, hus⟩ := List.map_eq_append_iff.mp hu
    obtain ⟨tree', command, command', hc', rfl, hcommand, hcommand', hsame⟩ := hc.exists_moved hvs
    obtain ⟨rest', hrest, rfl, hitems⟩ := ih hus
    refine ⟨tree' :: rest', .command hc' hrest, by simp, ?_⟩
    rw [List.filterMap_cons_some (ofTree?_command hc hcommand),
      List.filterMap_cons_some (ofTree?_command hc' hcommand'), List.map_cons, List.map_cons,
      hitems, CMakeDocs.Item.unplaced, CMakeDocs.Item.unplaced, hsame]
  | @comment t rest ht hn _ ih =>
    simp only [leavesOfList_cons, leaves_comment, List.cons_append, List.nil_append,
      List.map_cons] at hu
    obtain ⟨u, us, rfl, hword, hus⟩ := List.map_eq_cons_iff.mp hu
    obtain ⟨rest', hrest, rfl, hitems⟩ := ih hus
    -- The comment still stands alone, as what comes next is of the same kind.
    have hnext : ∀ v ∈ (leavesOfList rest').head?, v.kind ≠ .identifier := by
      intro v hv
      have hhead := congrArg List.head? hus
      rw [List.head?_map, List.head?_map, Option.mem_def.mp hv] at hhead
      obtain ⟨w, hw, hword⟩ := Option.map_eq_some_iff.mp hhead.symm
      have hkind : v.kind = w.kind := (Token.kind_eq hword).symm
      exact hkind ▸ hn w hw
    refine ⟨Derivation.comment u :: rest',
      .comment ((Token.kind_eq hword).trans ht) hnext hrest, by simp, ?_⟩
    have hstray (t : Token) :
        CMakeDocs.Item.ofTree? (Derivation.comment t) = some .strayComment := rfl
    rw [List.filterMap_cons_some (hstray t), List.filterMap_cons_some (hstray u), List.map_cons,
      List.map_cons, hitems]

theorem IsModulePart.exists_moved {ts : List Tree} (h : IsModulePart ts) {us : List Token}
    (hu : us.map Token.word = (leavesOfList ts).map Token.word) :
    ∃ ts', IsModulePart ts' ∧ leavesOfList ts' = us ∧
      ts'.filterMap CMakeDocs.Item.ofTree? = ts.filterMap CMakeDocs.Item.ofTree? := by
  cases h with
  | none =>
    obtain rfl := List.map_eq_nil_iff.mp hu
    exact ⟨[], .none, by simp, rfl⟩
  | @one t ht =>
    simp only [leavesOfList_cons, leaves_moduleComment, leavesOfList_nil, List.append_nil,
      List.map_cons, List.map_nil] at hu
    obtain ⟨u, us, rfl, hword, hu⟩ := List.map_eq_cons_iff.mp hu
    obtain rfl := List.map_eq_nil_iff.mp hu
    have hu : u.kind = .moduleComment := (Token.kind_eq hword).trans ht
    have htext : u.text = t.text := Token.text_eq hword
    refine ⟨[moduleComment u], .one hu, by simp, ?_⟩
    rw [List.filterMap_cons_some (ofTree?_moduleComment hu),
      List.filterMap_cons_some (ofTree?_moduleComment ht), htext]

/-- Trees can stand behind others that do not end with a comment. -/
theorem Attached.append {ts us : List Tree} (ht : Attached ts) (hu : Attached us)
    (hlast : ∀ t ∈ (leavesOfList ts).getLast?, t.kind ≠ .docComment) : Attached (ts ++ us) := by
  induction ht with
  | nil => exact hu
  | documented hd hc _ ih =>
    rw [leavesOfList_cons] at hlast
    exact .documented hd hc (ih fun t ht => hlast t (mem_getLast?_append ht _))
  | command hc _ ih =>
    rw [leavesOfList_cons] at hlast
    exact .command hc (ih fun t ht => hlast t (mem_getLast?_append ht _))
  | @comment t rest hd hn _ ih =>
    rw [leavesOfList_cons, leaves_comment] at hlast
    have hnext : ∀ u ∈ (leavesOfList (rest ++ us)).head?, u.kind ≠ .identifier := by
      rw [leavesOfList_append]
      cases hleaves : leavesOfList rest with
      | nil =>
        -- Here the comment is what the first trees end with.
        rw [hleaves] at hlast
        exact absurd hd (hlast t rfl)
      | cons v vs => simpa [hleaves] using hn
    exact .comment hd hnext (ih fun t ht => hlast t (mem_getLast?_append ht _))

/-- Tokens that say the same as two files one behind the other have a derivation with the items of
both files. -/
theorem exists_joined {modules ts us : List Tree} {last : Token} {tokens : List Token}
    (hm : IsModulePart modules) (hts : Attached ts) (hus : Attached us)
    (hlast : ∀ t ∈ (leavesOfList ts).getLast?, t.kind ≠ .docComment)
    (h : tokens.map Token.word = (leavesOfList modules ++ leavesOfList ts).map Token.word ++
      (leavesOfList us ++ [last]).map Token.word) :
    ∃ modules' ts' last', IsModulePart modules' ∧ Attached ts' ∧ last'.kind = last.kind ∧
      tokens = leavesOfList modules' ++ leavesOfList ts' ++ [last'] ∧
      ((modules' ++ ts').filterMap CMakeDocs.Item.ofTree?).map CMakeDocs.Item.unplaced =
        ((modules ++ ts).filterMap CMakeDocs.Item.ofTree? ++
          us.filterMap CMakeDocs.Item.ofTree?).map CMakeDocs.Item.unplaced := by
  have hparts : tokens.map Token.word = (leavesOfList modules).map Token.word ++
      ((leavesOfList (ts ++ us)).map Token.word ++ [last.word]) := by
    simpa using h
  obtain ⟨ms, rest, rfl, hms, hrest⟩ := List.map_eq_append_iff.mp hparts
  obtain ⟨vs, rest, rfl, hvs, hend⟩ := List.map_eq_append_iff.mp hrest
  obtain ⟨last', rest, rfl, hword, hnil⟩ := List.map_eq_cons_iff.mp hend
  obtain rfl := List.map_eq_nil_iff.mp hnil
  obtain ⟨modules', hm', rfl, hmodules⟩ := hm.exists_moved hms
  obtain ⟨ts', hts', rfl, hitems⟩ := (hts.append hus hlast).exists_moved hvs
  refine ⟨modules', ts', last', hm', hts', Token.kind_eq hword, by simp, ?_⟩
  rw [List.filterMap_append, List.map_append, hmodules, hitems]
  simp

end Derivation

end CMakeDocs
