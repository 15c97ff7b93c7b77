import CMakeDocs.Proofs.Documenting.Entries
import Mathlib.Data.List.TakeWhile

/-!
# The page of documented definitions

What stands on the page of a file of definitions is what stands in their comments: below the
title and the name of the module there is one directive for each definition, in their order, with
the lines of its comment indented by three spaces and otherwise as they are.
-/
namespace CMakeDocs

/-- What the page says about macros. -/
def macroNote : String :=
  "\n   .. note:: This is a macro, and so does not introduce a new scope.\n\n"

namespace WrittenDefinition

variable (d : WrittenDefinition)

/-- How the definition is called. -/
def signature : String :=
  d.name ++ "(" ++ " ".intercalate (d.params ++ if d.takesKeywords then ["**kwargs"] else []) ++ ")"

/-- The directive of a definition. -/
def pagePart : String :=
  "\n.. function:: " ++ d.signature ++ "\n\n" ++ (if d.isMacro then macroNote else "") ++
    Text.endedLines (d.doc.map ("   " ++ ·)) ++ "   \n\n"

end WrittenDefinition

/-- A title between two lines of the same length. -/
def headingLines (title : String) : String :=
  let line := String.ofList (List.replicate title.length '#')
  "\n" ++ line ++ "\n" ++ title ++ "\n" ++ line ++ "\n"

/-- The page of a module with the given definitions. -/
def definitionsPage (title moduleName : String) (ds : List WrittenDefinition) : String :=
  headingLines title ++ "\n.. module:: " ++ moduleName ++ "\n\n" ++
    String.join (ds.map WrittenDefinition.pagePart)

/-- A directive that stands by itself. -/
theorem text_directive (name argument : String) (blocks : List Rst.Block) :
    (directive name argument blocks).text 0 =
      "\n.. " ++ name ++ ":: " ++ argument ++ "\n" ++
        if Rst.Block.textOfAll 1 blocks = "" then "" else "\n" ++ Rst.Block.textOfAll 1 blocks := by
  have hindent : Rst.indentation (1 - 1) = "" := by decide
  have hstart : "\n" ++ "" ++ ".. " = "\n.. " := by decide
  rw [directive, Rst.Block.text, Int.zero_add, Rst.directiveText, Rst.directiveHeadingText, hindent,
    hstart, String.intercalate_singleton, Rst.optionsText, List.map_nil, String.join_nil,
    String.append_empty]

namespace WrittenDefinition

variable (d : WrittenDefinition)

/-- The lines of the documentation are indented, and so is the empty one behind them. -/
theorem paragraphText_docText :
    Rst.paragraphText "   " d.docText ++ "\n" =
      Text.endedLines (d.doc.map ("   " ++ ·)) ++ "   \n" := by
  have hlines : Text.lines d.docText = d.doc ++ [""] := by
    refine Text.lines_unlines (by simp) ?_
    intro line hline
    rcases List.mem_append.mp hline with hline | hline
    · exact d.doc_lines line hline
    · rw [List.mem_singleton.mp hline]
      decide
  rw [Rst.paragraphText, hlines, Text.unlines_newline (by simp), List.map_append,
    Text.endedLines_append]
  rfl

theorem signature_eq :
    callText d.name (" ".intercalate d.definition.shownParams) = d.signature := by
  unfold callText Definition.shownParams signature definition
  cases d.takesKeywords <;> simp

/-- The blocks below the heading of the directive. -/
def bodyBlocks : List Rst.Block :=
  (if d.isMacro then [hint "note" "This is a macro, and so does not introduce a new scope."]
    else []) ++ [.paragraph d.docText]

theorem text_bodyBlocks :
    Rst.Block.textOfAll 1 d.bodyBlocks =
      (if d.isMacro then macroNote else "") ++
        (Text.endedLines (d.doc.map ("   " ++ ·)) ++ "   \n") := by
  have hparagraph : Rst.Block.textOfAll 1 [.paragraph d.docText] =
      Text.endedLines (d.doc.map ("   " ++ ·)) ++ "   \n" := by
    rw [Rst.Block.textOfAll, Rst.Block.textOfAll, Rst.Block.text, String.append_empty]
    exact d.paragraphText_docText
  have hmacro : (hint "note" "This is a macro, and so does not introduce a new scope.").text 1 ++
      "\n" = macroNote := by
    decide
  unfold bodyBlocks
  cases d.isMacro with
  | true =>
    rw [if_pos rfl, if_pos rfl, List.singleton_append, Rst.Block.textOfAll]
    exact (congrArg (· ++ _) hmacro).trans (congrArg (macroNote ++ ·) hparagraph)
  | false =>
    rw [if_neg (by simp), if_neg (by simp), List.nil_append, hparagraph, String.empty_append]

/-- The pieces of a directive as they are written, and as they are read. -/
theorem directive_pieces (signature note lines : String) :
    "\n.. " ++ "function" ++ ":: " ++ signature ++ "\n" ++
        ("\n" ++ (note ++ (lines ++ "   \n"))) ++ "\n" =
      "\n.. function:: " ++ signature ++ "\n\n" ++ note ++ lines ++ "   \n\n" := by
  have hname : "\n.. function:: " = "\n.. " ++ ("function" ++ ":: ") := by decide
  have hspace : "\n\n" = "\n" ++ "\n" := by decide
  have hlast : "   \n\n" = "   \n" ++ "\n" := by decide
  simp only [hname, hspace, hlast, String.append_assoc]

def block : Rst.Block := d.definition.block d.isMacro

theorem text_block : d.block.text 0 ++ "\n" = d.pagePart := by
  have hbody : Rst.Block.textOfAll 1 d.bodyBlocks ≠ "" := by
    intro h
    have hlength := congrArg String.length h
    rw [text_bodyBlocks] at hlength
    simp at hlength
  have hblock : d.block =
      directive "function" (callText d.name (" ".intercalate d.definition.shownParams))
        d.bodyBlocks := rfl
  rw [hblock, text_directive, if_neg hbody, text_bodyBlocks, signature_eq]
  unfold pagePart
  exact directive_pieces _ _ _

end WrittenDefinition

/-- The blocks of definitions one below the other. -/
theorem textOfAll_definitions (ds : List WrittenDefinition) :
    Rst.Block.textOfAll 0 (ds.map WrittenDefinition.block) =
      String.join (ds.map WrittenDefinition.pagePart) := by
  induction ds with
  | nil => rw [List.map_nil, Rst.Block.textOfAll, List.map_nil, String.join_nil]
  | cons d ds ih =>
    rw [List.map_cons, Rst.Block.textOfAll, ih, d.text_block, List.map_cons, String.join_cons]

theorem text_module (moduleName : String) :
    (directive "module" moduleName []).text 0 ++ "\n" =
      "\n.. module:: " ++ moduleName ++ "\n\n" := by
  have hname : "\n.. module:: " = "\n.. " ++ "module" ++ ":: " := by decide
  have hspace : "\n\n" = "\n" ++ "\n" := by decide
  rw [text_directive, Rst.Block.textOfAll, if_pos rfl, String.append_empty, hname, hspace]
  simp only [String.append_assoc]

theorem underline_hash (n : Nat) :
    Rst.underline "#" n = String.ofList (List.replicate n '#') := by
  refine String.toList_injective ?_
  rw [Rst.underline, String.toList_ofList]
  induction n with
  | zero => rfl
  | succ n ih =>
    rw [List.replicate_succ, String.join_cons, String.toList_append, ih, List.replicate_succ]
    rfl

namespace Page

/-- A page with a title and nothing else. -/
def blank (title : String) : Page := ⟨.preset, title, Rst.headingText "#" title, []⟩

theorem new_preset (title : String) : Page.new .preset title = .ok (blank title) := by
  have hcount : (title.toList.map fun c => Value.text (String.singleton c)).length =
      title.length := by
    rw [List.length_map, String.length_toList]
  have hheading : Headers.preset.heading 0 (.text title) =
      .ok (Rst.linedText "#" (title.toList.map fun c => Value.text (String.singleton c)).length
        title) := rfl
  rw [Page.new, hheading, hcount]
  rfl

@[simp] theorem add_headers (p : Page) (b : Rst.Block) : (p.add b).headers = p.headers := rfl

@[simp] theorem add_title (p : Page) (b : Rst.Block) : (p.add b).title = p.title := rfl

@[simp] theorem add_heading (p : Page) (b : Rst.Block) : (p.add b).heading = p.heading := rfl

@[simp] theorem add_blocks (p : Page) (b : Rst.Block) : (p.add b).blocks = p.blocks ++ [b] := rfl

theorem add_blocks_append (p : Page) (b : Rst.Block) (blocks : List Rst.Block) :
    { p.add b with blocks := (p.add b).blocks ++ blocks } =
      { p with blocks := p.blocks ++ b :: blocks } := by
  simp

theorem foldlM_definitions (ds : List WrittenDefinition) (p : Page) :
    (ds.map WrittenDefinition.entry).foldlM addEntry p =
      .ok { p with blocks := p.blocks ++ ds.map WrittenDefinition.block } := by
  induction ds generalizing p with
  | nil =>
    rw [List.map_nil, List.foldlM_nil, List.map_nil, List.append_nil]
    rfl
  | cons d ds ih =>
    have hadd : addEntry p d.entry = .ok (p.add d.block) := rfl
    rw [List.map_cons, List.foldlM_cons, hadd]
    refine (ih _).trans ?_
    rw [add_blocks_append, List.map_cons]

/-- Definitions do not name the module, so it gets an entry of its own in front of them. -/
theorem withModule_definitions (ds : List WrittenDefinition) (moduleName : String) :
    withModule moduleName (ds.map WrittenDefinition.entry) =
      .moduleDoc moduleName (some "") :: ds.map WrittenDefinition.entry := by
  rw [withModule, if_neg]
  rw [List.any_map, Bool.not_eq_true, List.any_eq_false]
  intro d _
  simp [moduleName?, WrittenDefinition.entry]

theorem titleOf?_definitions (ds : List WrittenDefinition) :
    titleOf? (ds.map WrittenDefinition.entry) = none := by
  have hnames : (ds.map WrittenDefinition.entry).filterMap moduleName? = [] := by
    rw [List.filterMap_map, List.filterMap_eq_nil_iff]
    intro d _
    rfl
  rw [titleOf?, hnames]
  rfl

theorem addEntries_definitions (ds : List WrittenDefinition) (moduleName : String) (p : Page) :
    ∃ entries, p.addEntries moduleName (ds.map WrittenDefinition.entry) =
      .ok ({ p with blocks :=
        p.blocks ++ (directive "module" moduleName [] :: ds.map WrittenDefinition.block) },
          entries) := by
  have hadd : addEntry p (.moduleDoc moduleName (some "")) =
      .ok (p.add (directive "module" moduleName [])) := rfl
  have hfold : (withModule moduleName (ds.map WrittenDefinition.entry)).foldlM addEntry p =
      .ok { p with blocks :=
        p.blocks ++ (directive "module" moduleName [] :: ds.map WrittenDefinition.block) } := by
    rw [withModule_definitions, List.foldlM_cons, hadd]
    refine (foldlM_definitions ds _).trans ?_
    rw [add_blocks_append]
  refine ⟨(withModule moduleName (ds.map WrittenDefinition.entry)).map Entry.shown, ?_⟩
  rw [addEntries, titleOf?_definitions]
  dsimp only [retitle, bind, Except.bind]
  rw [hfold]

/-- A page with the entry of its module and the definitions below it. -/
theorem text_definitions (title moduleName : String) (ds : List WrittenDefinition) :
    text { blank title with
      blocks := directive "module" moduleName [] :: ds.map WrittenDefinition.block } =
        definitionsPage title moduleName ds := by
  have hheading : Rst.headingText "#" title ++ "\n" = headingLines title := by
    rw [Rst.headingText, Rst.linedText, underline_hash]
    rfl
  rw [text, Rst.partText, blank, hheading, Rst.Block.textOfAll, text_module, textOfAll_definitions]
  unfold definitionsPage
  simp only [String.append_assoc]

end Page

theorem firstForeign?_eq_none {text : String} (h : IsAscii text) : firstForeign? text = none := by
  have hbefore : text.toList.takeWhile (fun c => decide (c.toNat < 0x80)) = text.toList := by
    refine List.takeWhile_eq_self_iff.mpr ?_
    intro c hc
    exact decide_eq_true (h c hc)
  rw [firstForeign?]
  dsimp only
  rw [hbefore, List.drop_length, List.head?_nil, Option.map_none]

namespace Document

/-- A file is opened if it is ASCII. -/
theorem new_of_isAscii (file title moduleName : String) {text : String} (h : IsAscii text) :
    Document.new .preset file (some title) (some moduleName) text =
      .ok ⟨moduleName, .blank title, Reader.start text, .empty⟩ := by
  rw [Document.new, Option.getD_some, Page.new_preset]
  dsimp only
  rw [firstForeign?_eq_none h]
  rfl

/-- A file that is read and collected without an error has its entries on its page. -/
theorem process_of_addEntries {s : Settings} {d : Document} {tree : Tree} {page : Page}
    {entries : List Entry} (hfault : (Reader.file d.reader).fault = none)
    (htrees : (Reader.file d.reader).trees = [tree])
    (herror : (Collector.file s tree d.collector).error = none)
    (hadd : d.page.addEntries d.moduleName (Collector.file s tree d.collector).collector.entries =
      .ok (page, entries)) :
    (d.process s).error = none ∧ (d.process s).document.page = page := by
  have htree : (Reader.file d.reader).tree? = some tree := by
    rw [Step.tree?, htrees, List.head?_cons]
  rw [process]
  dsimp only
  rw [hfault, htree]
  dsimp only
  rw [herror]
  dsimp only
  rw [layOut, hadd]
  exact ⟨rfl, rfl⟩

/-- The page of a file of documented definitions has what stands in their comments, and nothing
else. -/
theorem process_definitions (file title moduleName : String) (ds : List WrittenDefinition) :
    ∃ d, Document.new presetSettings.headers file (some title) (some moduleName) (sourceText ds) =
        .ok d ∧
      (d.process presetSettings).error = none ∧
      (d.process presetSettings).document.page.text = definitionsPage title moduleName ds := by
  obtain ⟨tree, hfault, htrees, hitems⟩ := file_sourceText ds
  obtain ⟨herror, hentries⟩ := Collector.run_definitions hitems (p := .start .empty) rfl rfl
  obtain ⟨entries, hadd⟩ := Page.addEntries_definitions ds moduleName (.blank title)
  refine ⟨_, new_of_isAscii file title moduleName (sourceText_isAscii ds), ?_⟩
  have hcollected : (Collector.file presetSettings tree .empty).collector.entries =
      ds.map WrittenDefinition.entry := hentries
  rw [← hcollected] at hadd
  obtain ⟨hnone, hpage⟩ := process_of_addEntries
    (d := ⟨moduleName, .blank title, Reader.start (sourceText ds), .empty⟩)
    hfault htrees herror hadd
  refine ⟨hnone, ?_⟩
  rw [hpage]
  exact Page.text_definitions title moduleName ds

example :
    let d : WrittenDefinition :=
      ⟨true, "\t", "shout", ["words"], ["Says \"words\" [[loudly]].", ":param **kwargs: how"],
        List.all_eq_true.mp rfl, by decide, by decide, by decide, by decide⟩
    sourceText [d] =
        "\t#[[[\n\t# Says \"words\" [[loudly]].\n\t# :param **kwargs: how\n\t#]]\n" ++
        "\tmacro(shout words)\n\tendmacro()\n" ∧
      definitionsPage "Voice" "voice" [d] =
        "\n#####\nVoice\n#####\n\n.. module:: voice\n\n\n.. function:: shout(words **kwargs)\n\n" ++
        "\n   .. note:: This is a macro, and so does not introduce a new scope.\n\n" ++
        "   Says \"words\" [[loudly]].\n   :param **kwargs: how\n   \n\n" := by
  decide +kernel

end Document

end CMakeDocs
