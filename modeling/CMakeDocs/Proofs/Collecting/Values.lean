import CMakeDocs.Proofs.Collecting.Entering
import CMakeDocs.Proofs.Collecting.Returning
import CMakeDocs.Proofs.Reading.Documented

/-!
# Values and their quotes

The value of a variable is freed from its quotes by a look at its first and at its last character,
whatever kind of argument it is. Of all arguments just the quoted ones begin with a quote, and these
end with one as well. No identifier and no bracket ends with a quote. An unquoted argument does so
if the quote has a backslash in front of it, and then it loses the quote and keeps the backslash.
-/
namespace CMakeDocs

namespace Extent

theorem Closing.eq_closed_of_shift {k n : Nat} {r : Closing} (h : r.shift k = .closed (n + k)) :
    r = .closed n := by
  cases r with
  | closed m =>
    rw [shift, closed.injEq] at h
    rw [closed.injEq]
    omega
  | stuck m => cases h

theorem quoted_getLast {cs : List Char} (h : quoted cs = .closed cs.length) :
    cs.getLast? = some '"' := by
  induction cs using quote_induction with
  | escape c cs hc ih =>
    rw [quoted_escape hc] at h
    rw [List.getLast?_cons, List.getLast?_cons, ih (Closing.eq_closed_of_shift h)]
    rfl
  | plain c cs hslash hquote ih =>
    rw [quoted_plain hslash hquote] at h
    rw [List.getLast?_cons, ih (Closing.eq_closed_of_shift h)]
    rfl
  | close cs =>
    have hnil : cs = [] := by simpa [quoted] using h
    rw [hnil]
    rfl
  | stuck c cs hc => simp [quoted, hc] at h
  | slash => cases h
  | nil => cases h

/-- A word that ends with a quote ends with an escaped one. -/
theorem suffix_of_getLast {cs : List Char} (h : unquoted cs = cs.length)
    (hlast : cs.getLast? = some '"') : ['\\', '"'] <:+ cs := by
  induction cs using word_induction with
  | escape c cs hc ih =>
    rw [unquoted_escape hc, List.length_cons, List.length_cons] at h
    cases cs with
    | nil =>
      obtain rfl : c = '"' := by simpa using hlast
      exact List.suffix_rfl
    | cons d cs =>
      rw [List.getLast?_cons_cons, List.getLast?_cons_cons] at hlast
      have hrest := ih (by omega) hlast
      exact hrest.trans (List.suffix_append ['\\', c] (d :: cs))
  | plain c cs hc ih =>
    rw [unquoted_plain hc, List.length_cons] at h
    cases cs with
    | nil =>
      obtain rfl : c = '"' := by simpa using hlast
      exact absurd hc (by decide)
    | cons d cs =>
      rw [List.getLast?_cons_cons] at hlast
      exact (ih (by omega) hlast).trans (List.suffix_cons c (d :: cs))
  | stop cs hstop =>
    rw [hstop] at h
    rw [List.length_eq_zero_iff.mp h.symm] at hlast
    cases hlast

end Extent

theorem Scan.IsIdentifier.quote_not_mem {cs : List Char} (h : IsIdentifier cs) : '"' ∉ cs := by
  obtain ⟨c, cs, rfl, hc, hcs⟩ := h
  intro hmem
  have hrest : Extent.isIdentifierRest '"' = true := by
    rcases List.mem_cons.mp hmem with hfirst | hmore
    · rw [hfirst]
      exact Scan.isIdentifierRest_of_start hc
    · exact hcs _ hmore
  exact absurd hrest (by decide)

namespace Collector

theorem unquote?_enclosed (inner : List Char) :
    unquote? ('"' :: (inner ++ ['"'])) = some inner := by
  simp [unquote?]

/-- Behind another character only the last one matters. -/
theorem unquote?_of_head {c : Char} (hc : c ≠ '"') (cs : List Char) :
    unquote? (c :: cs) =
      some (if (c :: cs).getLast? = some '"' then (c :: cs).dropLast else c :: cs) := by
  simp only [unquote?, if_neg hc, List.getLast?_cons]
  simp

end Collector

open Collector (unquote? unquote?_enclosed unquote?_of_head)

/-- What is left of an argument of each kind. -/
theorem Scan.Reads.unquote?_eq {kind : TokenKind} {piece rest : List Char}
    (h : Reads (.token kind) piece rest) (hk : kind.isArgument = true) :
    unquote? piece = some (if kind = .quoted then piece.tail.dropLast
      else if kind = .unquoted ∧ ['\\', '"'] <:+ piece then piece.dropLast else piece) := by
  cases h with
  | leftParen | rightParen | moduleComment | docComment | openComment => cases hk
  | @quoted cs rest h =>
    have hclosed : Extent.quoted cs = .closed cs.length := by
      have happend := Extent.quoted_append (p := cs) (q := rest)
        (by rw [h]; exact Nat.le_refl _) (by simp [h]) []
      rwa [List.append_nil, h] at happend
    obtain ⟨inner, rfl⟩ := List.getLast?_eq_some_iff.mp (Extent.quoted_getLast hclosed)
    rw [unquote?_enclosed, if_pos rfl, List.tail_cons, List.dropLast_concat]
  | @identifier c cs rest h =>
    have hno := h.quote_not_mem
    have hlast : (c :: cs).getLast? ≠ some '"' := fun heq => hno (List.mem_of_getLast? heq)
    rw [unquote?_of_head (List.ne_of_not_mem_cons hno).symm, if_neg hlast, if_neg (by simp),
      if_neg (by simp)]
  | @unquoted c cs rest h =>
    have hword : Extent.unquoted (c :: cs) ≠ 0 := by simp [h]
    have hc : c ≠ '"' := (ne_of_startsWord (startsWord_of_unquoted hword)).2.2.2.2.2
    have hlast : (c :: cs).getLast? = some '"' ↔ ['\\', '"'] <:+ c :: cs := by
      refine ⟨Extent.suffix_of_getLast h, ?_⟩
      rintro ⟨front, hfront⟩
      rw [← hfront]
      simp
    rw [unquote?_of_head hc]
    by_cases hsuffix : ['\\', '"'] <:+ c :: cs
    · rw [if_pos (hlast.mpr hsuffix), if_neg (by simp), if_pos ⟨rfl, hsuffix⟩]
    · rw [if_neg (mt hlast.mp hsuffix), if_neg (by simp), if_neg (mt And.right hsuffix)]
  | @bracket c cs rest h =>
    obtain ⟨level, -, hopen, -⟩ := Extent.bracketed?_eq_some_iff.mp h
    obtain rfl : '[' = c := (List.cons_prefix_cons.mp hopen).1
    rw [unquote?_of_head (by decide), Extent.bracketed?_getLast h, if_neg (by decide),
      if_neg (by simp), if_neg (by simp)]

/-- The text of an argument without the quotes that delimit it. -/
def TokenKind.content (kind : TokenKind) (text : String) : String :=
  if kind = .quoted then String.ofList text.toList.tail.dropLast else text

/-- An argument of a documented command is a lexeme of the text. -/
theorem Item.exists_reads {text : String} {tree : Tree} {comment : String} {command : Command}
    {kind : TokenKind} {value : String}
    (htree : (Reader.file (Reader.start text)).tree? = some tree)
    (hitem : documented comment command ∈ ofFile tree)
    (harg : .single kind value ∈ command.arguments) :
    kind.isArgument = true ∧ ∃ rest, Scan.Reads (.token kind) value.toList rest := by
  obtain ⟨call, htokens, -, rfl⟩ := exists_commentedCommand htree hitem
  obtain ⟨t, hleaf, rfl, rfl, hk⟩ := call.derived.exists_single harg
  have hmem : t ∈ Token.ofText text := htokens.subset (by simp [CommentedCommand.tokens, hleaf])
  exact ⟨hk, Token.exists_reads hmem⟩

/-- Unless it ends with an escaped quote, what is left of an argument is its content. -/
theorem exists_unquoted {kind : TokenKind} {value : String} {rest : List Char}
    (h : Scan.Reads (.token kind) value.toList rest) (hk : kind.isArgument = true) :
    ∃ stored : String, unquote? value.toList = some stored.toList ∧
      (stored = kind.content value ↔ ¬ (kind = .unquoted ∧ ['\\', '"'] <:+ value.toList)) ∧
      (kind = .unquoted ∧ ['\\', '"'] <:+ value.toList → stored ++ "\"" = value) := by
  rw [h.unquote?_eq hk]
  by_cases hescaped : kind = .unquoted ∧ ['\\', '"'] <:+ value.toList
  · obtain ⟨rfl, front, hfront⟩ := hescaped
    have hvalue : value = String.ofList (front ++ ['\\']) ++ "\"" := by
      refine String.toList_injective ?_
      simp [← hfront]
    have hdrop : value.toList.dropLast = front ++ ['\\'] := by
      rw [← hfront]
      simp
    refine ⟨String.ofList (front ++ ['\\']), ?_, ?_, fun _ => hvalue.symm⟩
    · rw [if_neg (by simp), if_pos ⟨rfl, front, hfront⟩, hdrop, String.toList_ofList]
    · refine iff_of_false (fun heq => ?_) (not_not_intro ⟨rfl, front, hfront⟩)
      have hlength := congrArg (List.length ∘ String.toList) (heq.trans hvalue)
      simp at hlength
  · refine ⟨kind.content value, ?_, iff_of_true rfl hescaped, fun h => absurd h hescaped⟩
    rw [if_neg hescaped, TokenKind.content]
    split
    · rw [String.toList_ofList]
    · rfl

namespace Collector

variable {command : Command} {name value : String}

theorem singles_of_filter {arguments : List Argument}
    (h : command.arguments.filter (fun a => a.single?.isSome) = arguments) :
    command.singles = arguments.filterMap Argument.single? := by
  have hsame : command.singles = command.arguments.filterMap
      fun a => if a.single?.isSome then a.single? else none := by
    refine List.filterMap_congr fun a _ => ?_
    cases a <;> rfl
  rw [hsame, ← List.filterMap_filter, h]

theorem record_set (s : Settings) (doc : String) (hk : command.kind = .setVariable)
    (hargs : command.singles = [name, value]) {stored : List Char}
    (hstored : unquote? value.toList = some stored) (c : Collector) :
    record s doc command c =
      .ok (c.append (.variableDoc ⟨name, doc, .string, some (String.ofList stored)⟩), []) := by
  simp only [record_setVariable hk, setVariable, hargs, hstored]

theorem pass_set {s : Settings} {comment : String} {c c' : Collector} {logs : List LogRecord}
    (hk : command.kind = .setVariable)
    (hr : record s (Comment.clean comment) command c = .ok (c', logs)) :
    pass s c (.documented comment command) = .ok c' := by
  exact pass_documented.mpr ⟨c', logs, [], hr, follow_inert (by simp [hk])⟩

/-- A documented command of a text that sets a variable to one value is passed without an error,
and its entry has what stands between the quotes of a quoted argument, or all of another argument.
Only an unquoted argument that ends with an escaped quote is different: it loses that quote. -/
theorem value_unquoted_iff (s : Settings) (text : String) (tree : Tree) (c : Collector)
    (before after : List Item) (comment : String) (command : Command) (name value : String)
    (nameKind kind : TokenKind) (htree : (Reader.file (Reader.start text)).tree? = some tree)
    (hitems : Item.ofFile tree = before ++ .documented comment command :: after)
    (hfree : (items s before c).error = none) (hkind : command.kind = .setVariable)
    (hargs : command.arguments.filter (fun a => a.single?.isSome) =
      [.single nameKind name, .single kind value]) :
    kind.isArgument = true ∧
      ∃ stored, Enters s c before (.documented comment command)
          [.variableDoc ⟨name, Comment.clean comment, .string, some stored⟩] ∧
        (stored = kind.content value ↔
          ¬ (kind = .unquoted ∧ ['\\', '"'] <:+ value.toList)) ∧
        (kind = .unquoted ∧ ['\\', '"'] <:+ value.toList → stored ++ "\"" = value) := by
  have hitem : .documented comment command ∈ Item.ofFile tree := by simp [hitems]
  have hvalue : .single kind value ∈ command.arguments := by
    have hmem : .single kind value ∈ command.arguments.filter fun a => a.single?.isSome := by
      simp [hargs]
    exact List.mem_of_mem_filter hmem
  obtain ⟨hk, rest, hreads⟩ := Item.exists_reads htree hitem hvalue
  obtain ⟨stored, hstored, hcontent⟩ := exists_unquoted hreads hk
  have hrecord := record_set s (Comment.clean comment) hkind (singles_of_filter hargs) hstored
    (items s before c).collector
  rw [String.ofList_toList] at hrecord
  exact ⟨hk, stored, enters_of_pass hfree (pass_set hkind hrecord) rfl, hcontent⟩

/-- A quoted value with an escaped quote at its end. -/
def quotedValue : String := "#[[[\n# Doc.\n#]]\nset(v (x) \"a b\\\"\")\n"

def quotedSet : Command :=
  ⟨"set", [.single .identifier "v", .group "(x)", .single .quoted "\"a b\\\"\""],
    "set(v(x)\"a b\\\"\")", 4⟩

theorem quotedValue_unquoted : ∃ tree,
    (Reader.file (Reader.start quotedValue)).tree? = some tree ∧
      Item.ofFile tree = [.documented "#[[[\n# Doc.\n#]]" quotedSet] ∧
      Enters default empty [] (.documented "#[[[\n# Doc.\n#]]" quotedSet)
        [.variableDoc ⟨"v", Comment.clean "#[[[\n# Doc.\n#]]", .string, some "a b\\\""⟩] := by
  have hrun : (Reader.file (Reader.start quotedValue)).tree?.map Item.ofFile =
      some [.documented "#[[[\n# Doc.\n#]]" quotedSet] := by
    decide
  obtain ⟨tree, htree, hitems⟩ := Option.map_eq_some_iff.mp hrun
  obtain ⟨-, stored, henters, hcontent, -⟩ := value_unquoted_iff default quotedValue tree empty []
    [] "#[[[\n# Doc.\n#]]" quotedSet "v" "\"a b\\\"\"" .identifier .quoted htree hitems rfl rfl rfl
  rw [hcontent.mpr (by simp)] at henters
  exact ⟨tree, htree, hitems, henters⟩

/-- An unquoted value with an escaped quote at its end. -/
def escapedQuote : String := "#[[[\n# Doc.\n#]]\nset(v a\\\")\n"

theorem escapedQuote_lost : ∃ tree,
    (Reader.file (Reader.start escapedQuote)).tree? = some tree ∧
      Item.ofFile tree = [.documented "#[[[\n# Doc.\n#]]" ⟨"set", [.single .identifier "v",
        .single .unquoted "a\\\""], "set(va\\\")", 4⟩] ∧
      (file default tree empty).error = none ∧
      (file default tree empty).collector.entries =
        [.variableDoc ⟨"v", "Doc.\n", .string, some "a\\"⟩] := by
  have hrun : (Reader.file (Reader.start escapedQuote)).tree?.map Item.ofFile =
      some [.documented "#[[[\n# Doc.\n#]]" ⟨"set", [.single .identifier "v",
        .single .unquoted "a\\\""], "set(va\\\")", 4⟩] := by
    decide
  obtain ⟨tree, htree, hitems⟩ := Option.map_eq_some_iff.mp hrun
  refine ⟨tree, htree, hitems, ?_, ?_⟩
  · rw [file, hitems]
    rfl
  · rw [file, hitems]
    rfl

end Collector

end CMakeDocs
