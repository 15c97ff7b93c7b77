import CMakeDocs.Proofs.Scanning

/-!
# Files of documented definitions

A file of functions and macros, each with a comment in front of it and nothing in its body. How
the comment is indented is free, and so is what it says, as long as it does not end itself. The
tokens of such a file are worked out here.
-/
namespace CMakeDocs

def IsAscii (text : String) : Prop := ∀ c ∈ text.toList, c.toNat < 0x80

instance : DecidablePred IsAscii := fun text =>
  List.decidableBAll (fun c : Char => c.toNat < 0x80) text.toList

/-- A function or a macro with its comment, as it can be written. -/
structure WrittenDefinition where
  isMacro : Bool
  /-- What stands in front of every line. -/
  indent : String
  name : String
  params : List String
  /-- The lines of the documentation. -/
  doc : List String
  indent_blank : ∀ c ∈ indent.toList, Extent.isBlank c = true
  identifiers : ∀ word ∈ name :: params, Scan.IsIdentifier word.toList
  doc_ascii : ∀ line ∈ doc, IsAscii line
  doc_lines : ∀ line ∈ doc, '\n' ∉ line.toList
  doc_open : ∀ line ∈ doc, Text.contains "#]]" line = false

/-- The tokens of a command whose arguments are identifiers. -/
def commandWords (name : String) (words : List String) : List (TokenKind × String) :=
  (.identifier, name) :: (.leftParen, "(") ::
    (words.map (fun word => (TokenKind.identifier, word)) ++ [(.rightParen, ")")])

namespace WrittenDefinition

variable (d : WrittenDefinition)

def keyword : String := if d.isMacro then "macro" else "function"

def docLines : List String := d.doc.map fun line => d.indent ++ "# " ++ line

/-- The lines of the file: the comment, the command and its end. -/
def sourceLines : List String :=
  (d.indent ++ "#[[[") :: (d.docLines ++ [d.indent ++ "#]]",
    d.indent ++ d.keyword ++ "(" ++ " ".intercalate (d.name :: d.params) ++ ")",
    d.indent ++ "end" ++ d.keyword ++ "()"])

/-- The comment as one token. -/
def comment : String := Text.unlines ("#[[[" :: (d.docLines ++ [d.indent ++ "#]]"]))

def words : List (TokenKind × String) :=
  (.docComment, d.comment) ::
    (commandWords d.keyword (d.name :: d.params) ++ commandWords ("end" ++ d.keyword) [])

end WrittenDefinition

/-- The text of a file with the given definitions. -/
def sourceText (ds : List WrittenDefinition) : String :=
  Text.endedLines (ds.flatMap WrittenDefinition.sourceLines)

open Extent Scan

theorem words_arguments {args : List String} (h : ∀ a ∈ args, IsIdentifier a.toList)
    (rest : List Char) :
    words ((" ".intercalate args).toList ++ ')' :: rest) =
      args.map (fun a => (TokenKind.identifier, a)) ++ (.rightParen, ")") :: words rest := by
  induction args with
  | nil => exact words_rightParen rest
  | cons a args ih =>
    obtain ⟨ha, hargs⟩ := List.forall_mem_cons.mp h
    cases args with
    | nil =>
      rw [String.intercalate_singleton, words_identifier ha (by decide), words_rightParen]
      simp
    | cons b args =>
      have hchars : (" ".intercalate (a :: b :: args)).toList ++ ')' :: rest =
          a.toList ++ ' ' :: ((" ".intercalate (b :: args)).toList ++ ')' :: rest) := by
        simp [String.intercalate_cons_cons]
      rw [hchars, words_identifier ha (by decide), words_blank (by decide), ih hargs]
      simp

theorem words_command {name : String} {args : List String} (hn : IsIdentifier name.toList)
    (h : ∀ a ∈ args, IsIdentifier a.toList) (rest : List Char) :
    words (name.toList ++ '(' :: ((" ".intercalate args).toList ++ ')' :: rest)) =
      commandWords name args ++ words rest := by
  rw [words_identifier hn (by decide), words_leftParen, words_arguments h]
  simp [commandWords]

namespace WrittenDefinition

variable (d : WrittenDefinition)

theorem keyword_identifier :
    IsIdentifier d.keyword.toList ∧ IsIdentifier ("end" ++ d.keyword).toList := by
  unfold keyword
  cases d.isMacro with
  | true =>
    exact ⟨⟨'m', _, rfl, rfl, List.all_eq_true.mp rfl⟩, ⟨'e', _, rfl, rfl, List.all_eq_true.mp rfl⟩⟩
  | false =>
    exact ⟨⟨'f', _, rfl, rfl, List.all_eq_true.mp rfl⟩, ⟨'e', _, rfl, rfl, List.all_eq_true.mp rfl⟩⟩

/-- No line of the documentation ends the comment, with its marks or without. -/
theorem docLines_open :
    ∀ line ∈ d.docLines.map String.toList, Text.occursIn docClosing line = false := by
  have hskip {c : Char} (hc : c ≠ '#') (cs : List Char) :
      Text.occursIn docClosing (c :: cs) = Text.occursIn docClosing cs := by
    simp [Text.occursIn, docClosing, List.isPrefixOf, hc.symm]
  have hindent {w : List Char} (hw : ∀ c ∈ w, isBlank c = true) (cs : List Char) :
      Text.occursIn docClosing (w ++ cs) = Text.occursIn docClosing cs := by
    induction w with
    | nil => rfl
    | cons c w ih =>
      obtain ⟨hc, hw⟩ := List.forall_mem_cons.mp hw
      rw [List.cons_append, hskip, ih hw]
      rintro rfl
      exact absurd hc (by decide)
  intro line hline
  simp only [docLines, List.mem_map] at hline
  obtain ⟨_, ⟨text, htext, rfl⟩, rfl⟩ := hline
  have hopen : Text.occursIn docClosing text.toList = false := d.doc_open text htext
  have hmarked : Text.occursIn docClosing ('#' :: ' ' :: text.toList) = false := by
    rw [Text.occursIn, hskip (by decide), hopen]
    rfl
  rw [String.toList_append, String.toList_append, List.append_assoc, hindent d.indent_blank]
  exact hmarked

/-- The characters of the file, cut where the tokens are. -/
theorem toList_source (rest : List Char) :
    (Text.endedLines d.sourceLines).toList ++ rest =
      d.indent.toList ++ (docOpening ++ '\n' ::
        ((d.docLines.map String.toList).flatMap (· ++ ['\n']) ++ d.indent.toList ++ (docClosing ++
        '\n' :: (d.indent.toList ++ (d.keyword.toList ++ '(' ::
        ((" ".intercalate (d.name :: d.params)).toList ++ ')' ::
        '\n' :: (d.indent.toList ++ (("end" ++ d.keyword).toList ++ '(' ::
        ((" ".intercalate []).toList ++ ')' :: '\n' :: rest))))))))) := by
  simp [Text.toList_endedLines, sourceLines, docOpening, docClosing]

theorem toList_comment :
    d.comment.toList = docOpening ++ '\n' ::
      ((d.docLines.map String.toList).flatMap (· ++ ['\n']) ++ d.indent.toList ++ docClosing) := by
  rw [comment, Text.toList_unlines, ← List.cons_append, List.map_append, List.map_singleton,
    Text.joinChars_concat]
  simp [docOpening, docClosing]

theorem words_source (rest : List Char) :
    Scan.words ((Text.endedLines d.sourceLines).toList ++ rest) = d.words ++ Scan.words rest := by
  obtain ⟨hkeyword, hend⟩ := d.keyword_identifier
  rw [d.toList_source, words_blanks d.indent_blank, words_docComment, ← d.toList_comment,
    String.ofList_toList, words_newline, words_blanks d.indent_blank,
    words_command hkeyword d.identifiers, words_newline, words_blanks d.indent_blank,
    words_command hend (by simp), words_newline]
  · simp [words]
  · have hlines : ∀ line ∈ [] :: d.docLines.map String.toList,
        Text.occursIn docClosing line = false :=
      List.forall_mem_cons.mpr ⟨rfl, d.docLines_open⟩
    have hfind := find?_docClosing hlines d.indent_blank
    simp only [List.flatMap_cons, List.nil_append, List.cons_append, List.append_assoc,
      List.length_append, List.length_cons] at hfind ⊢
    rw [hfind, Nat.add_right_comm]

end WrittenDefinition

/-- The tokens of a file of definitions. -/
theorem words_sourceText (ds : List WrittenDefinition) :
    Scan.words (sourceText ds).toList = ds.flatMap WrittenDefinition.words := by
  induction ds with
  | nil => rfl
  | cons d ds ih =>
    rw [sourceText, List.flatMap_cons, Text.endedLines_append, String.toList_append,
      d.words_source, ← sourceText, ih, List.flatMap_cons]

theorem IsAscii.append {a b : String} (ha : IsAscii a) (hb : IsAscii b) : IsAscii (a ++ b) := by
  intro c hc
  rw [String.toList_append] at hc
  exact (List.mem_append.mp hc).elim (ha c) (hb c)

theorem IsAscii.intercalate {sep : String} {parts : List String} (hs : IsAscii sep)
    (h : ∀ part ∈ parts, IsAscii part) : IsAscii (sep.intercalate parts) := by
  induction parts with
  | nil => simp [IsAscii]
  | cons part parts ih =>
    obtain ⟨hpart, hparts⟩ := List.forall_mem_cons.mp h
    cases parts with
    | nil => simpa using hpart
    | cons next parts =>
      rw [String.intercalate_cons_cons]
      exact (hpart.append hs).append (ih hparts)

theorem IsAscii.endedLines {ls : List String} (h : ∀ l ∈ ls, IsAscii l) :
    IsAscii (Text.endedLines ls) := by
  induction ls with
  | nil => simp [IsAscii, Text.endedLines]
  | cons l ls ih =>
    obtain ⟨hl, hls⟩ := List.forall_mem_cons.mp h
    rw [Text.endedLines_cons]
    exact (hl.append (by simp [IsAscii])).append (ih hls)

theorem lt_of_isIdentifierRest {c : Char} (h : isIdentifierRest c = true) : c.toNat < 0x80 := by
  have hbelow {last : Char} (hlast : last.toNat < 0x80) (hc : c.val ≤ last.val) : c.toNat < 0x80 :=
    Nat.lt_of_le_of_lt (UInt32.le_iff_toNat_le.mp hc) hlast
  rw [isIdentifierRest, Bool.or_eq_true, Char.isAlphanum, Bool.or_eq_true] at h
  rcases h with (hletter | hdigit) | hline
  · rcases Bool.or_eq_true_iff.mp hletter with hupper | hlower
    · exact hbelow (by decide) (of_decide_eq_true hupper).2
    · exact hbelow (by decide) (of_decide_eq_true (Bool.and_eq_true_iff.mp hlower).2)
  · exact hbelow (by decide) (of_decide_eq_true (Bool.and_eq_true_iff.mp hdigit).2)
  · rw [of_decide_eq_true hline]
    decide

theorem isAscii_of_isIdentifier {word : String} (h : IsIdentifier word.toList) : IsAscii word := by
  obtain ⟨c, rest, hword, hc, hrest⟩ := h
  intro d hd
  rw [hword] at hd
  rcases List.mem_cons.mp hd with rfl | hd
  · exact lt_of_isIdentifierRest (isIdentifierRest_of_start hc)
  · exact lt_of_isIdentifierRest (hrest d hd)

theorem isAscii_of_blank {w : String} (h : ∀ c ∈ w.toList, isBlank c = true) : IsAscii w := by
  intro c hc
  have hblank := h c hc
  simp only [isBlank, Bool.or_eq_true, decide_eq_true_eq] at hblank
  rcases hblank with rfl | rfl <;> decide

theorem WrittenDefinition.isAscii_of_mem_sourceLines (d : WrittenDefinition) :
    ∀ line ∈ d.sourceLines, IsAscii line := by
  have hliteral (word : String) (h : word.toList.all (·.toNat < 0x80) = true) : IsAscii word :=
    fun c hc => of_decide_eq_true (List.all_eq_true.mp h c hc)
  have hindent := isAscii_of_blank d.indent_blank
  have hkeyword := d.keyword_identifier.1
  have hargs : IsAscii (" ".intercalate (d.name :: d.params)) :=
    .intercalate (hliteral " " rfl) fun word hw => isAscii_of_isIdentifier (d.identifiers word hw)
  intro line hline
  simp only [sourceLines, docLines, List.mem_cons, List.mem_append, List.mem_map,
    List.not_mem_nil, or_false] at hline
  rcases hline with rfl | ⟨text, ht, rfl⟩ | rfl | rfl | rfl
  · exact hindent.append (hliteral "#[[[" rfl)
  · exact (hindent.append (hliteral "# " rfl)).append (d.doc_ascii text ht)
  · exact hindent.append (hliteral "#]]" rfl)
  · exact (((hindent.append (isAscii_of_isIdentifier hkeyword)).append
      (hliteral "(" rfl)).append hargs).append (hliteral ")" rfl)
  · exact ((hindent.append (hliteral "end" rfl)).append
      (isAscii_of_isIdentifier hkeyword)).append (hliteral "()" rfl)

theorem sourceText_isAscii (ds : List WrittenDefinition) : IsAscii (sourceText ds) := by
  refine .endedLines fun line hline => ?_
  obtain ⟨d, -, hd⟩ := List.mem_flatMap.mp hline
  exact d.isAscii_of_mem_sourceLines line hd

end CMakeDocs
