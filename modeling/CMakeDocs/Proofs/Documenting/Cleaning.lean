import CMakeDocs.Proofs.Documenting.Entries

/-!
# What cleaning a comment keeps

Cleaning takes the same number of characters off the front of every line: as many as stand before
the first hash of the last line. Whatever else it removes is a mark, a space or a line feed. So text
is lost exactly where it stands that far to the left, and line ends of two characters stay what they
are, but for the one behind the opening of the comment. Of a comment whose lines are all behind the
indentation of its end, exactly what the lines say is kept.
-/
namespace CMakeDocs

namespace Text

/-- The characters of a text with a carriage return in front of every line feed. -/
def addReturns (cs : List Char) : List Char :=
  cs.flatMap fun c => if c = '\n' then ['\r', '\n'] else [c]

/-- A text with a carriage return in front of every line feed. -/
def withReturns (s : String) : String := String.ofList (addReturns s.toList)

@[simp] theorem toList_withReturns (s : String) :
    (withReturns s).toList = addReturns s.toList := String.toList_ofList

theorem addReturns_append (cs ds : List Char) :
    addReturns (cs ++ ds) = addReturns cs ++ addReturns ds := List.flatMap_append

theorem addReturns_of_not_mem {cs : List Char} (h : '\n' ∉ cs) : addReturns cs = cs := by
  induction cs with
  | nil => rfl
  | cons c cs ih =>
    have hc : c ≠ '\n' := (List.ne_of_not_mem_cons h).symm
    have hcs := ih (List.not_mem_of_not_mem_cons h)
    rw [addReturns, List.flatMap_cons, if_neg hc]
    exact congrArg (c :: ·) hcs

/-- Lines that end with a line feed each end with two characters then. -/
theorem addReturns_ended {ls : List (List Char)} (h : ∀ l ∈ ls, '\n' ∉ l) :
    addReturns (ls.flatMap (· ++ ['\n'])) = (ls.map (· ++ ['\r'])).flatMap (· ++ ['\n']) := by
  induction ls with
  | nil => rfl
  | cons l ls ih =>
    obtain ⟨hl, hls⟩ := List.forall_mem_cons.mp h
    rw [List.flatMap_cons, addReturns_append, addReturns_append, addReturns_of_not_mem hl, ih hls,
      List.map_cons, List.flatMap_cons, List.append_assoc l ['\r'] ['\n']]
    rfl

theorem withReturns_unlines {ls : List String} {last : String}
    (h : ∀ l ∈ ls, '\n' ∉ l.toList) (hlast : '\n' ∉ last.toList) :
    withReturns (unlines (ls ++ [last])) = unlines (ls.map (· ++ "\r") ++ [last]) := by
  refine String.toList_injective ?_
  have hls : ∀ l ∈ ls.map String.toList, '\n' ∉ l := by simpa using h
  have hreturns : (ls.map (· ++ "\r")).map String.toList =
      (ls.map String.toList).map (· ++ ['\r']) := by
    rw [List.map_map, List.map_map]
    exact List.map_congr_left fun l _ => String.toList_append
  rw [toList_withReturns, toList_unlines, toList_unlines, List.map_append, List.map_append,
    List.map_singleton, joinChars_concat, joinChars_concat, addReturns_append,
    addReturns_ended hls, addReturns_of_not_mem hlast, hreturns]

end Text

namespace Comment

open Text

theorem dropOne_suffix (c : Char) (cs : List Char) : dropOne c cs <:+ cs := by
  cases cs with
  | nil => exact List.suffix_rfl
  | cons d ds =>
    rw [dropOne]
    split
    · exact List.suffix_cons d ds
    · exact List.suffix_rfl

theorem cleanLine_suffix (n : Nat) (line : List Char) : cleanLine n line <:+ line :=
  ((dropOne_suffix ' ' _).trans (List.dropWhile_suffix _)).trans (List.drop_suffix n line)

/-- What is made of lines one by one, with a last one that may be special. -/
theorem cleanLines?_concat (ls : List String) (last : String) :
    cleanLines? (ls ++ [last]) = some (String.ofList
      (dropOne '\n' ((ls.map fun l => cleanLine (indentation last.toList) l.toList).flatMap
        (· ++ ['\n']) ++ cleanLast (indentation last.toList) last.toList))) := by
  rw [cleanLines?, List.getLast?_concat, Option.map_some, List.dropLast_concat]
  dsimp only
  rw [joinChars_concat]

theorem toList_clean {ls : List String} {last : String} (h : ∀ l ∈ ls, '\n' ∉ l.toList)
    (hlast : '\n' ∉ last.toList) :
    (clean (unlines (ls ++ [last]))).toList =
      dropOne '\n' ((ls.map fun l => cleanLine (indentation last.toList) l.toList).flatMap
        (· ++ ['\n']) ++ cleanLast (indentation last.toList) last.toList) := by
  have hlines : lines (unlines (ls ++ [last])) = ls ++ [last] :=
    lines_unlines (by simp) (List.forall_mem_append.mpr ⟨h, by simpa using hlast⟩)
  rw [clean, hlines, cleanLines?_concat, Option.getD_some, String.toList_ofList]

theorem dropOne_append_return (c : Char) (hc : c ≠ '\r') (cs : List Char) :
    dropOne c (cs ++ ['\r']) = dropOne c cs ++ ['\r'] := by
  cases cs with
  | nil => simp [dropOne, hc.symm]
  | cons d ds =>
    simp only [List.cons_append, dropOne]
    split <;> rfl

theorem dropWhile_mark_append_return (cs : List Char) :
    (cs ++ ['\r']).dropWhile isOpeningMark = cs.dropWhile isOpeningMark ++ ['\r'] := by
  induction cs with
  | nil => rfl
  | cons c cs ih =>
    rw [List.cons_append, List.dropWhile_cons, List.dropWhile_cons, ih]
    split <;> rfl

/-- A line with a carriage return at its end keeps that, if the line is longer than the
indentation. -/
theorem cleanLine_append_return {n : Nat} {line : List Char} (h : n ≤ line.length) :
    cleanLine n (line ++ ['\r']) = cleanLine n line ++ ['\r'] := by
  rw [cleanLine, List.drop_append_of_le_length h, dropWhile_mark_append_return,
    dropOne_append_return ' ' (by decide), cleanLine]

theorem cleanLine_of_length_le {n : Nat} {line : List Char} (h : line.length ≤ n) :
    cleanLine n line = [] := by
  rw [cleanLine, List.drop_of_length_le h]
  rfl

/-- The lines of a comment of some lines, all of them behind the same indentation. -/
def writtenLines (indent : String) (ls : List String) : List String :=
  "#[[[" :: ls.map (indent ++ ·) ++ [indent ++ "#]]"]

/-- Such a comment. -/
def written (indent : String) (ls : List String) : String := unlines (writtenLines indent ls)

/-- The opening of a comment loses its carriage return only to a deep indentation. -/
theorem cleanLine_opening_return (n : Nat) :
    cleanLine n ("#[[[".toList ++ ['\r']) = if n ≤ 4 then ['\r'] else [] := by
  by_cases hn : n ≤ 4
  · rw [if_pos hn, cleanLine_append_return hn, cleanLine_opening]
    rfl
  · rw [if_neg hn]
    exact cleanLine_of_length_le (Nat.lt_of_not_le hn)

/-- The lines of such a comment between its opening and its end, cleaned, with a line feed each. -/
def cleanedBody (indent : String) (ls : List String) : List Char :=
  (ls.map fun l => cleanLine indent.length (indent ++ l).toList).flatMap (· ++ ['\n'])

theorem cleanLast_closing_line (indent : String) :
    cleanLast indent.length (indent ++ "#]]").toList = [] := by
  rw [String.toList_append, ← String.length_toList]
  exact cleanLast_closing _

section Written

variable {indent : String} {ls : List String}
  (hindent : ∀ c ∈ indent.toList, Extent.isBlank c = true) (hls : ∀ l ∈ ls, '\n' ∉ l.toList)

include hindent

theorem newline_not_mem_of_blank : '\n' ∉ indent.toList := by
  intro h
  exact absurd (hindent _ h) (by decide)

theorem indentation_closing : indentation (indent ++ "#]]").toList = indent.length := by
  rw [String.toList_append, ← String.length_toList]
  exact indentation_blank hindent _

theorem cleanLines?_written :
    cleanLines? (writtenLines indent ls) = some (String.ofList (cleanedBody indent ls)) := by
  rw [writtenLines, cleanLines?_concat, indentation_closing hindent, cleanLast_closing_line,
    List.map_cons, cleanLine_opening, List.map_map]
  simp [dropOne, cleanedBody, Function.comp_def]

include hls

theorem newline_not_mem_written :
    (∀ l ∈ "#[[[" :: ls.map (indent ++ ·), '\n' ∉ l.toList) ∧
      '\n' ∉ (indent ++ "#]]").toList := by
  have hnewline := newline_not_mem_of_blank hindent
  refine ⟨List.forall_mem_cons.mpr ⟨by decide, fun l hl => ?_⟩, by simp [hnewline]⟩
  obtain ⟨line, hline, rfl⟩ := List.mem_map.mp hl
  simp [hnewline, hls line hline]

theorem lines_written : lines (written indent ls) = writtenLines indent ls := by
  obtain ⟨hlines, hlast⟩ := newline_not_mem_written hindent hls
  rw [written]
  exact lines_unlines (by simp [writtenLines])
    (List.forall_mem_append.mpr ⟨hlines, by simpa using hlast⟩)

theorem toList_clean_written : (clean (written indent ls)).toList = cleanedBody indent ls := by
  rw [clean, lines_written hindent hls, cleanLines?_written hindent, Option.getD_some,
    String.toList_ofList]

theorem toList_clean_withReturns :
    (clean (withReturns (written indent ls))).toList =
      (if indent.length ≤ 4 then ['\r', '\n'] else []) ++ addReturns (cleanedBody indent ls) := by
  obtain ⟨hlines, hlast⟩ := newline_not_mem_written hindent hls
  have hreturns : ∀ l ∈ ("#[[[" :: ls.map (indent ++ ·)).map (· ++ "\r"), '\n' ∉ l.toList := by
    simpa using hlines
  have hbody : (ls.map fun l => cleanLine indent.length (indent ++ l ++ "\r").toList) =
      (ls.map fun l => cleanLine indent.length (indent ++ l).toList).map (· ++ ['\r']) := by
    rw [List.map_map]
    refine List.map_congr_left fun l _ => ?_
    rw [String.toList_append, Function.comp_apply]
    refine cleanLine_append_return ?_
    rw [String.length_toList, String.length_append]
    exact Nat.le_add_right _ _
  have hcleaned : ∀ cs ∈ ls.map fun l => cleanLine indent.length (indent ++ l).toList,
      '\n' ∉ cs := by
    intro cs hcs hmem
    obtain ⟨l, hl, rfl⟩ := List.mem_map.mp hcs
    exact hlines (indent ++ l) (List.mem_cons_of_mem _ (List.mem_map_of_mem hl))
      ((cleanLine_suffix _ _).subset hmem)
  have hopening : ("#[[[" ++ "\r").toList = "#[[[".toList ++ ['\r'] := rfl
  rw [written, writtenLines, withReturns_unlines hlines hlast, toList_clean hreturns hlast,
    indentation_closing hindent, cleanLast_closing_line, List.map_cons, List.map_cons,
    hopening, cleanLine_opening_return, List.map_map, List.map_map, cleanedBody,
    addReturns_ended hcleaned, ← hbody]
  split <;> simp [dropOne, Function.comp_def]

end Written

/-- With two characters at the end of each line of a comment, its documentation has two characters
at the end of each line as well, and besides an empty line in front, unless the indentation is
longer than the opening of the comment. -/
theorem clean_withReturns (indent : String) (ls : List String)
    (hindent : ∀ c ∈ indent.toList, Extent.isBlank c = true)
    (hls : ∀ l ∈ ls, '\n' ∉ l.toList) :
    clean (withReturns (written indent ls)) =
        (if indent.length ≤ 4 then "\r\n" else "") ++ withReturns (clean (written indent ls)) ∧
      (clean (withReturns (written indent ls)) = withReturns (clean (written indent ls)) ↔
        4 < indent.length) := by
  have heq : clean (withReturns (written indent ls)) =
      (if indent.length ≤ 4 then "\r\n" else "") ++ withReturns (clean (written indent ls)) := by
    refine String.toList_injective ?_
    rw [toList_clean_withReturns hindent hls, String.toList_append, toList_withReturns,
      toList_clean_written hindent hls]
    split <;> rfl
  refine ⟨heq, ?_⟩
  rw [heq]
  by_cases hn : indent.length ≤ 4
  · rw [if_pos hn]
    refine iff_of_false (fun hsame => ?_) (Nat.not_lt.mpr hn)
    have hlen := congrArg String.length hsame
    rw [String.length_append] at hlen
    exact absurd hlen (by simp)
  · rw [if_neg hn, String.empty_append]
    exact iff_of_true rfl (Nat.lt_of_not_le hn)

/-- Behind six blanks the line ends make no difference. -/
theorem deep_comment_withReturns :
    (∀ c ∈ "      ".toList, Extent.isBlank c = true) ∧
      (∀ l ∈ ["# Adds.", ""], '\n' ∉ l.toList) ∧
      clean (withReturns (written "      " ["# Adds.", ""])) =
        withReturns (clean (written "      " ["# Adds.", ""])) := by
  have hindent : ∀ c ∈ "      ".toList, Extent.isBlank c = true := List.all_eq_true.mp rfl
  have hls : ∀ l ∈ ["# Adds.", ""], '\n' ∉ l.toList := by simp
  exact ⟨hindent, hls, (clean_withReturns "      " ["# Adds.", ""] hindent hls).2.mpr (by decide)⟩

/-- At the margin there is an empty line too much. -/
theorem comment_withReturns_differs :
    clean (written "" ["# Adds."]) = "Adds.\n" ∧
      clean (withReturns (written "" ["# Adds."])) = "\r\nAdds.\r\n" ∧
      withReturns (clean (written "" ["# Adds."])) = "Adds.\r\n" := by
  decide

/-- What a line says: all that comes behind the marks in front of it and one space. -/
def saidIn : List Char → List Char
  | [] => []
  | '#' :: cs => saidIn cs
  | '[' :: cs => saidIn cs
  | ']' :: cs => saidIn cs
  | ' ' :: cs => cs
  | c :: cs => c :: cs

def said (line : String) : String := String.ofList (saidIn line.toList)

theorem dropOne_dropWhile_eq_saidIn (cs : List Char) :
    dropOne ' ' (cs.dropWhile isOpeningMark) = saidIn cs := by
  fun_induction saidIn cs with
  | case1 => rfl
  | case2 cs ih => exact ih
  | case3 cs ih => exact ih
  | case4 cs ih => exact ih
  | case5 cs => rfl
  | case6 c cs hhash hopen hclose hspace =>
    have hmark : isOpeningMark c = false := by simp_all [isOpeningMark]
    rw [List.dropWhile_cons_of_neg (by simp [hmark]), dropOne, if_neg (by simpa using hspace)]

/-- What is left of a line behind the indentation does not depend on that. -/
theorem cleanLine_indented (indent line : String) :
    cleanLine indent.length (indent ++ line).toList = (said line).toList := by
  rw [cleanLine, String.toList_append, ← String.length_toList, List.drop_left,
    dropOne_dropWhile_eq_saidIn, said, String.toList_ofList]

theorem cleanedBody_eq (indent : String) (ls : List String) :
    cleanedBody indent ls = (endedLines (ls.map said)).toList := by
  rw [cleanedBody, toList_endedLines, List.map_map]
  simp only [cleanLine_indented, Function.comp_def]

theorem said_marked (line : String) : said ("# " ++ line) = line := by
  refine String.toList_injective ?_
  rw [said, String.toList_ofList, String.toList_append]
  rfl

/-- The documentation in a comment is what its lines say, one by one and with a line feed behind
each, at whatever indentation they are written. Behind a hash and a space, that is all of the
line. -/
theorem clean_says_lines (indent : String) (ls : List String)
    (hindent : ∀ c ∈ indent.toList, Extent.isBlank c = true) :
    cleanLines? (writtenLines indent ls) = some (endedLines (ls.map said)) ∧
      cleanLines? (writtenLines indent (ls.map ("# " ++ ·))) = some (endedLines ls) ∧
      ((∀ l ∈ ls, '\n' ∉ l.toList) →
        clean (written indent ls) = endedLines (ls.map said) ∧
        clean (written indent (ls.map ("# " ++ ·))) = endedLines ls) := by
  have hlines (ls : List String) :
      cleanLines? (writtenLines indent ls) = some (endedLines (ls.map said)) := by
    rw [cleanLines?_written hindent, cleanedBody_eq, String.ofList_toList]
  have hmarked : (ls.map ("# " ++ ·)).map said = ls := by
    simp [List.map_map, Function.comp_def, said_marked]
  refine ⟨hlines ls, by rw [hlines, hmarked], fun hls => ?_⟩
  have hls' : ∀ l ∈ ls.map ("# " ++ ·), '\n' ∉ l.toList := by simpa using hls
  rw [clean, lines_written hindent hls, hlines, clean, lines_written hindent hls', hlines, hmarked]
  exact ⟨rfl, rfl⟩

/-- Behind a tab and more blanks than the opening of the comment has marks, with an empty line in
front and marks and blanks of its own in the last one. -/
theorem indented_comment_says_lines :
    (∀ c ∈ "\t    ".toList, Extent.isBlank c = true) ∧
      cleanLines? (writtenLines "\t    " ["", "#  [a] #", "[#]b "]) = some "\n [a] #\nb \n" := by
  have hindent : ∀ c ∈ "\t    ".toList, Extent.isBlank c = true := List.all_eq_true.mp rfl
  have hsaid : endedLines (["", "#  [a] #", "[#]b "].map said) = "\n [a] #\nb \n" := by decide
  refine ⟨hindent, ?_⟩
  rw [← hsaid]
  exact (clean_says_lines "\t    " ["", "#  [a] #", "[#]b "] hindent).1

/-- A character that is part of what a comment says, if it is in it: no blank and no mark. -/
def isText (c : Char) : Bool := !(Text.isBlank c || isOpeningMark c)

/-- What is said in some characters. -/
def textOf (cs : List Char) : List Char := cs.filter isText

theorem textOf_append (cs ds : List Char) : textOf (cs ++ ds) = textOf cs ++ textOf ds :=
  List.filter_append cs ds

theorem textOf_dropOne {c : Char} (hc : isText c = false) (cs : List Char) :
    textOf (dropOne c cs) = textOf cs := by
  cases cs with
  | nil => rfl
  | cons d ds =>
    rw [dropOne]
    split
    · next hd => rw [textOf, textOf, hd, List.filter_cons_of_neg (by simp [hc])]
    · rfl

section Classes

variable {p : Char → Bool} (hp : ∀ c, p c = true → isText c = false)

include hp

theorem textOf_dropWhile (cs : List Char) : textOf (cs.dropWhile p) = textOf cs := by
  induction cs with
  | nil => rfl
  | cons c cs ih =>
    rw [List.dropWhile_cons]
    split
    · next hc => rw [ih, textOf, textOf, List.filter_cons_of_neg (by simp [hp c hc])]
    · rfl

theorem textOf_dropEnd (cs : List Char) : textOf (dropEnd p cs) = textOf cs := by
  have hreverse := textOf_dropWhile hp cs.reverse
  rw [dropEnd, textOf, List.filter_reverse, ← textOf, hreverse, textOf, ← List.filter_reverse,
    List.reverse_reverse, textOf]

end Classes

theorem isText_of_isOpeningMark (c : Char) (hc : isOpeningMark c = true) : isText c = false := by
  simp [isText, hc]

theorem isText_of_isClosingMark (c : Char) (hc : isClosingMark c = true) : isText c = false := by
  refine isText_of_isOpeningMark c ?_
  simp only [isClosingMark, isOpeningMark, Bool.or_eq_true] at hc ⊢
  exact hc.imp_left .inl

/-- Of a line only its first characters can be lost. -/
theorem textOf_cleanLine (n : Nat) (line : List Char) :
    textOf (cleanLine n line) = textOf (line.drop n) := by
  rw [cleanLine, textOf_dropOne (by decide), textOf_dropWhile isText_of_isOpeningMark]

theorem textOf_cleanLast (n : Nat) (line : List Char) :
    textOf (cleanLast n line) = textOf (line.drop n) := by
  rw [cleanLast, textOf_dropEnd isText_of_isClosingMark, textOf_cleanLine]

theorem textOf_joinChars (ls : List (List Char)) :
    textOf (joinChars '\n' ls) = ls.flatMap textOf := by
  have hnewline : textOf ['\n'] = [] := by decide
  induction ls using joinChars.induct with
  | case1 => rfl
  | case2 l => simp [joinChars]
  | case3 l ls hls ih =>
    rw [joinChars, ← List.singleton_append, textOf_append, textOf_append, ih, hnewline,
      List.flatMap_cons, List.nil_append]
    exact hls

/-- How many characters are taken off the front of every line of a comment. -/
def margin (text : String) : Nat :=
  ((lines text).getLast?.map fun last => indentation last.toList).getD 0

theorem textOf_clean (text : String) :
    textOf (clean text).toList =
      (lines text).flatMap fun l => textOf (l.toList.drop (margin text)) := by
  have hne : lines text ≠ [] := by simp [lines, splitChars_ne_nil]
  obtain ⟨ls, last, hlines⟩ := (List.eq_nil_or_concat _).resolve_left hne
  rw [List.concat_eq_append] at hlines
  rw [clean, margin, hlines, cleanLines?, List.getLast?_concat]
  simp only [Option.map_some, Option.getD_some, List.dropLast_concat, String.toList_ofList]
  rw [textOf_dropOne (by decide), textOf_joinChars]
  simp [List.flatMap_map, textOf_cleanLine, textOf_cleanLast]

theorem textOf_eq_lines (text : String) :
    textOf text.toList = (lines text).flatMap fun l => textOf l.toList := by
  conv => lhs; rw [← unlines_lines text]
  rw [toList_unlines, textOf_joinChars, List.flatMap_map]

/-- Parts in front of others add nothing only if all of them are empty. -/
theorem flatMap_eq_flatMap_append_iff {α : Type} (f g : α → List Char) (xs : List α) :
    xs.flatMap g = xs.flatMap (fun x => f x ++ g x) ↔ ∀ x ∈ xs, f x = [] := by
  have hle (xs : List α) : (xs.flatMap g).length ≤ (xs.flatMap fun x => f x ++ g x).length := by
    induction xs with
    | nil => exact Nat.le_refl _
    | cons x xs ih =>
      simp only [List.flatMap_cons, List.length_append]
      omega
  induction xs with
  | nil => simp
  | cons x xs ih =>
    rw [List.flatMap_cons, List.flatMap_cons, List.forall_mem_cons]
    constructor
    · intro h
      have hlen := congrArg List.length h
      have hrest := hle xs
      simp only [List.length_append] at hlen
      have hx : f x = [] := List.eq_nil_of_length_eq_zero (by omega)
      rw [hx, List.nil_append] at h
      exact ⟨hx, ih.mp (List.append_cancel_left h)⟩
    · rintro ⟨hx, hxs⟩
      rw [hx, ih.mpr hxs, List.nil_append]

/-- What a comment says is kept from behind the margin on, in order and with nothing added. So all
of it is kept exactly if it says nothing in front of the margin, in any of its lines. -/
theorem clean_keeps_text_iff (text : String) :
    textOf (clean text).toList =
        ((lines text).flatMap fun l => textOf (l.toList.drop (margin text))) ∧
      (textOf (clean text).toList = textOf text.toList ↔
        ∀ l ∈ lines text, textOf (l.toList.take (margin text)) = []) := by
  refine ⟨textOf_clean text, ?_⟩
  have hsplit : (fun l : String => textOf l.toList) = fun l =>
      textOf (l.toList.take (margin text)) ++ textOf (l.toList.drop (margin text)) := by
    funext l
    rw [← textOf_append, List.take_append_drop]
  rw [textOf_clean, textOf_eq_lines, hsplit]
  exact flatMap_eq_flatMap_append_iff _ _ _

/-- A comment that ends behind its last word. -/
def closedBehindText : String := "#[[[\n  First\n  Second #]]"

/-- All that the comment says stands in front of the hash that closes it. -/
theorem closedBehindText_lost :
    Token.ofText closedBehindText = [⟨.docComment, closedBehindText, 0, .origin⟩] ∧
      textOf closedBehindText.toList = "FirstSecond".toList ∧
      textOf (clean closedBehindText).toList = [] := by
  refine ⟨by decide, by decide, by decide⟩

end Comment

end CMakeDocs
