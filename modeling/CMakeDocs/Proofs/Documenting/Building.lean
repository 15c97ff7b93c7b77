import CMakeDocs.Proofs.Documenting.Module
import CMakeDocs.Proofs.Documenting.Repeated
import CMakeDocs.Proofs.Documenting.Writers

/-!
# Pages built call by call

A page is told by the blocks of its entries. Here the same page is built by calls on writers: an
entry makes a directive in the writer that it is given, and fills that by further calls, some of
which make directives in the directive. Every call names the writer that it is for. However many
there are, each entry adds one element to the first writer, and leaves alone what stands there.
-/
namespace CMakeDocs

open Rst (Block Store Writer Element)

/-- Calls on the writers of a document, one after the other. -/
abbrev Script := StateT Store (Except PageError)

namespace Script

variable {α : Type}

/-- Does something to a writer, or stops with what is wrong. -/
def call (handle : Nat) (e : Store.Edit) : Script Unit := fun s =>
  match s.edit handle e with
  | (s', none) => .ok ((), s')
  | (_, some fault) => .error (.rst fault)

/-- Makes a directive in a writer, and gives its handle. -/
def directive (handle : Nat) (name : String) (arguments : List String) : Script Nat := do
  let s ← get
  call handle (.addDirective (.text name) (arguments.map .text))
  pure s.writers.length

def paragraph (handle : Nat) (text : String) : Script Unit :=
  call handle (.addParagraph (.text text))

def field (handle : Nat) (name value : String) : Script Unit :=
  call handle (.addField (.text name) (.text value))

def option (handle : Nat) (name value : String) : Script Unit :=
  call handle (.addOption (.text name) (.text value))

def bullets (handle : Nat) (items : List String) : Script Unit :=
  call handle (.addList .bulleted (items.map .text))

def setTitle (title : String) : Script Unit := call 0 (.setTitle (.text title))

def onlyIf (b : Bool) (x : Script Unit) : Script Unit := if b then x else pure ()

def skipIf (b : Bool) (x : Script Unit) : Script Unit := if b then pure () else x

/-- A directive that is left empty. -/
def hint (handle : Nat) (name text : String) : Script Unit := do
  let _ ← directive handle name [text]

/-- A call of something that has a warning in front of its documentation. -/
def warned (handle : Nat) (name arguments warning doc : String) : Script Unit := do
  let d ← directive handle "function" [callText name arguments]
  hint d "warning" warning
  paragraph d doc

def definitionDoc (handle : Nat) (isMacro : Bool) (d : Definition) : Script Unit := do
  let b ← directive handle "function" [callText d.name (" ".intercalate d.shownParams)]
  onlyIf isMacro (hint b "note" "This is a macro, and so does not introduce a new scope.")
  paragraph b d.doc

/-- The kind of a variable is looked at when the rest of it has been written. -/
def kindField (handle : Nat) : VariableKind → Script Unit
  | .string => field handle "type" "str"
  | .list => field handle "type" "list"
  | .unset => field handle "type" "UNSET"
  | .other v => throw (.unknownKind v)

def variableDoc (handle : Nat) (v : Variable) : Script Unit := do
  let d ← directive handle "data" [v.name]
  paragraph d v.doc
  field d "Default value" (v.value.getD "None")
  kindField d v.kind

/-- The note of an option has a body of its own. -/
def optionNote (handle : Nat) : Script Unit := do
  let note ← directive handle "note" []
  paragraph note Variable.optionNote

def optionDoc (handle : Nat) (v : Variable) (help : String) : Script Unit := do
  let d ← directive handle "data" [v.name]
  optionNote d
  paragraph d v.doc
  field d "Help text" help
  field d "Default value" (v.value.getD "OFF")
  field d "type" v.kind.shown

/-- The fields of a parameter that the documentation does not describe itself. -/
def paramFields (handle : Nat) (doc param type : String) : Script Unit := do
  skipIf (Text.contains (":param " ++ param ++ ":") doc) (field handle ("param " ++ param) "")
  skipIf (Text.contains (":type " ++ param ++ ":") doc) (field handle ("type " ++ param) type)

def methodDoc (handle : Nat) (m : Method) : Script Unit := do
  let d ← directive handle "py:method" [callText m.name m.shownParams]
  onlyIf m.isMacro (hint d "note" "This member is a macro and so does not introduce a new scope")
  paragraph d m.doc
  (m.params.zip m.paramTypes).forM fun p => paramFields d m.doc p.1 p.2

def valueOption (handle : Nat) : Option String → Script Unit
  | some v => option handle "value" v
  | none => pure ()

def attributeDoc (handle : Nat) (a : Attribute) : Script Unit := do
  let d ← directive handle "py:attribute" [a.name]
  valueOption d a.default
  paragraph d a.doc

/-- Parts of a class below a title, unless there are none. -/
def parts (handle : Nat) (title : String) (write : Nat → α → Script Unit) (xs : List α) :
    Script Unit :=
  skipIf xs.isEmpty do
    paragraph handle title
    xs.forM (write handle)

def innerClasses (handle : Nat) (names : List String) : Script Unit :=
  skipIf names.isEmpty do
    paragraph handle "**Inner classes**"
    bullets handle (names.map (Rst.roleText "class"))

def classDoc (handle : Nat) (k : Class) : Script Unit := do
  let d ← directive handle "py:class" [k.name]
  skipIf k.superclasses.isEmpty (paragraph d (Class.basesText k.superclasses))
  paragraph d k.doc
  parts d "**Additional Constructors**" methodDoc k.constructors
  parts d "**Methods**" methodDoc k.members
  parts d "**Attributes**" attributeDoc k.attributes
  innerClasses d k.innerClasses

def moduleDoc (handle : Nat) (name : String) (doc : Option String) : Script Unit := do
  let d ← directive handle "module" [name]
  skipIf (doc.getD "" = "") (paragraph d (doc.getD ""))

/-- What an entry calls to be written. -/
def entry (handle : Nat) : Entry → Script Unit
  | .definition isMacro d => definitionDoc handle isMacro d
  | .variableDoc v => variableDoc handle v
  | .option v help => optionDoc handle v help
  | .generic i =>
    warned handle i.name (" ".intercalate i.params)
      "This is a generic command invocation. It is not a function or macro definition." i.doc
  | .test i =>
    warned handle i.name (" ".intercalate i.params)
      ("This is a CTest test definition, do not call this manually. " ++
        "Use the \"ctest\" program to execute this test.") i.doc
  | .unitTest isSection t =>
    warned handle t.name (if t.expectFail then "EXPECTFAIL" else "")
      ("This is a CMakeTest " ++ (if isSection then "section" else "test") ++
        " definition, do not call this manually.") t.doc
  | .classDoc k => classDoc handle k
  | .methodDoc m => methodDoc handle m
  | .attributeDoc a => attributeDoc handle a
  | .moduleDoc name doc => moduleDoc handle name doc
  | .strayComment _ doc => paragraph handle doc

/-- Builds a page: first its title, by every module entry that has a name, and then the entries. -/
def layOut (moduleName : String) (entries : List Entry) : Script Unit := do
  ((entries.filterMap Page.moduleName?).filter (· ≠ "")).forM setTitle
  (Page.withModule moduleName entries).forM (entry 0)

/-- From any document in which there is the writer, the script comes to an end, and the writer has
grown by options and blocks. Only directives take options. -/
def Builds (x : Script Unit) (handle : Nat) (options : List (String × String))
    (blocks : List Block) : Prop :=
  ∀ (s : Store) (w : Writer), s.writers[handle]? = some w →
    (options ≠ [] → w.form.isDirective = true) → s.headers.checkDirective = .ok () →
    ∃ s', x s = .ok ((), s') ∧ Store.Grows handle options blocks s s'

variable {handle : Nat} {options options' : List (String × String)} {blocks blocks' : List Block}
  {x y : Script Unit} {s s' : Store} {w : Writer}

theorem bind_of_ok {β : Type} {x : Script α} {f : α → Script β} {a : α}
    (h : x s = .ok (a, s')) : (x >>= f) s = f a s' := by
  simp only [bind, StateT.bind, h, Except.bind]

theorem bind_of_error {β : Type} {x : Script α} {f : α → Script β} {e : PageError}
    (h : x s = .error e) : (x >>= f) s = .error e := by
  simp only [bind, StateT.bind, h, Except.bind]

theorem builds_pure (handle : Nat) : Builds (pure ()) handle [] [] :=
  fun s _ _ _ _ => ⟨s, rfl, .refl handle s⟩

theorem Builds.andThen (hx : Builds x handle options blocks)
    (hy : Builds y handle options' blocks') :
    Builds (x >>= fun _ => y) handle (options ++ options') (blocks ++ blocks') := by
  intro s w hw hoptions hheaders
  have hfirst (hne : options ≠ []) : w.form.isDirective = true :=
    hoptions (by simp [hne])
  have hsecond (hne : options' ≠ []) : w.form.isDirective = true :=
    hoptions (by simp [hne])
  obtain ⟨s₁, hs₁, hgrows₁⟩ := hx s w hw hfirst hheaders
  obtain ⟨w₁, hw₁, hform⟩ := hgrows₁.writer hw
  obtain ⟨s₂, hs₂, hgrows₂⟩ := hy s₁ w₁ hw₁ (fun hne => hform.trans (hsecond hne))
    (by rw [hgrows₁.headers, hheaders])
  have hlt := (List.getElem?_eq_some_iff.mp hw).1
  exact ⟨s₂, (bind_of_ok hs₁).trans hs₂, hgrows₁.trans hgrows₂ hlt⟩

theorem Builds.onlyIf (h : Builds x handle [] blocks) (b : Bool) :
    Builds (onlyIf b x) handle [] (if b then blocks else []) := by
  cases b with
  | true => exact h
  | false => exact builds_pure handle

theorem Builds.skipIf (h : Builds x handle [] blocks) (b : Bool) :
    Builds (skipIf b x) handle [] (if b then [] else blocks) := by
  cases b with
  | true => exact builds_pure handle
  | false => exact h

theorem builds_forM {f : α → Script Unit} {g : α → List Block} (xs : List α)
    (h : ∀ x ∈ xs, Builds (f x) handle [] (g x)) : Builds (xs.forM f) handle [] (xs.flatMap g) := by
  induction xs with
  | nil => exact builds_pure handle
  | cons x xs ih =>
    rw [List.flatMap_cons]
    exact (h x List.mem_cons_self).andThen (ih fun y hy => h y (List.mem_cons_of_mem _ hy))

theorem builds_paragraph (handle : Nat) (text : String) :
    Builds (paragraph handle text) handle [] [.paragraph text] := by
  intro s w hw _ _
  refine ⟨_, ?_, Store.grows_piece handle (.paragraph text) s⟩
  simp [paragraph, call, Store.edit, hw]

theorem builds_field (handle : Nat) (name value : String) :
    Builds (field handle name value) handle [] [.field name value] := by
  intro s w hw _ _
  refine ⟨_, ?_, Store.grows_piece handle (.field name value) s⟩
  simp [field, call, Store.edit, hw, Value.shown]

theorem builds_bullets (handle : Nat) (items : List String) :
    Builds (bullets handle items) handle [] [.list .bulleted items] := by
  intro s w hw _ _
  refine ⟨_, ?_, Store.grows_piece handle (.list .bulleted items) s⟩
  have hshown : Value.shown ∘ Value.text = id := rfl
  simp [bullets, call, Store.edit, hw, hshown]

theorem builds_option (handle : Nat) (name value : String) :
    Builds (option handle name value) handle [(name, value)] [] := by
  intro s w hw hoptions _
  obtain ⟨form, title, depth, indent, elements⟩ := w
  cases form with
  | part heading => cases hoptions (by simp)
  | directive arguments options =>
    refine ⟨_, ?_, Store.grows_option (.text name) (.text value) hw rfl⟩
    simp [option, call, Store.edit, hw, Store.addOption, Store.attempt, bind, Except.bind]

theorem directive_eq (name : String) (arguments : List String)
    (hw : s.writers[handle]? = some w) (hheaders : s.headers.checkDirective = .ok ()) :
    directive handle name arguments s = .ok (s.writers.length, s.addChild handle
      ⟨.directive arguments [], .text name, 0, w.indent + 1, []⟩) := by
  have hshown : (arguments.map Value.text).map Value.shown = arguments := by
    rw [List.map_map]
    exact List.map_id _
  have hcall : call handle (.addDirective (.text name) (arguments.map .text)) s =
      .ok ((), s.addChild handle ⟨.directive arguments [], .text name, 0, w.indent + 1, []⟩) := by
    simp [call, Store.edit, hw, Store.attempt, Writer.newDirective, hheaders, hshown, bind,
      Except.bind]
  change (call handle (.addDirective (.text name) (arguments.map .text)) >>= fun _ =>
    pure s.writers.length) s = _
  rw [bind_of_ok hcall]
  rfl

theorem addChild_writer (s : Store) (handle : Nat) (w : Writer) :
    (s.addChild handle w).writers[s.writers.length]? = some w := by
  simp

/-- A directive with a body is one block. -/
theorem builds_directive {body : Nat → Script Unit} (handle : Nat) (name : String)
    (arguments : List String) (h : ∀ d, Builds (body d) d options blocks) :
    Builds (directive handle name arguments >>= body) handle []
      [.directive name arguments options blocks] := by
  intro s w hw _ hheaders
  obtain ⟨s', hs', hgrows⟩ := h s.writers.length _ _ (addChild_writer s handle
    ⟨.directive arguments [], .text name, 0, w.indent + 1, []⟩) (fun _ => rfl) hheaders
  exact ⟨s', (bind_of_ok (directive_eq name arguments hw hheaders)).trans hs',
    Store.grows_directive hgrows⟩

theorem builds_hint (handle : Nat) (name text : String) :
    Builds (hint handle name text) handle [] [CMakeDocs.hint name text] :=
  builds_directive handle name [text] fun d => builds_pure d

theorem builds_warned (handle : Nat) (name arguments warning doc : String) :
    Builds (warned handle name arguments warning doc) handle []
      [CMakeDocs.directive "function" (callText name arguments)
        [CMakeDocs.hint "warning" warning, .paragraph doc]] :=
  builds_directive handle _ _ fun d =>
    (builds_hint d "warning" warning).andThen (builds_paragraph d doc)

theorem builds_definitionDoc (handle : Nat) (isMacro : Bool) (d : Definition) :
    Builds (definitionDoc handle isMacro d) handle [] [d.block isMacro] :=
  builds_directive handle _ _ fun b =>
    ((builds_hint b "note" _).onlyIf isMacro).andThen (builds_paragraph b d.doc)

theorem builds_variableDoc (handle : Nat) {v : Variable} {typeName : String}
    (h : v.kind.typeName? = some typeName) :
    Builds (variableDoc handle v) handle [] [v.block typeName] := by
  refine builds_directive handle _ _ fun d => ?_
  refine (builds_paragraph d v.doc).andThen ((builds_field d _ _).andThen ?_)
  cases hkind : v.kind <;> rw [hkind] at h <;> cases h
  all_goals exact builds_field d "type" _

theorem builds_optionNote (handle : Nat) :
    Builds (optionNote handle) handle []
      [.directive "note" [] [] [.paragraph Variable.optionNote]] :=
  builds_directive handle _ _ fun d => builds_paragraph d _

theorem builds_optionDoc (handle : Nat) (v : Variable) (help : String) :
    Builds (optionDoc handle v help) handle [] [v.optionBlock help] :=
  builds_directive handle _ _ fun d =>
    (builds_optionNote d).andThen ((builds_paragraph d v.doc).andThen
      ((builds_field d _ _).andThen ((builds_field d _ _).andThen (builds_field d _ _))))

theorem builds_paramFields (handle : Nat) (doc param type : String) :
    Builds (paramFields handle doc param type) handle [] (Method.paramBlocks doc param type) :=
  ((builds_field handle _ _).skipIf _).andThen ((builds_field handle _ _).skipIf _)

theorem builds_methodDoc (handle : Nat) (m : Method) :
    Builds (methodDoc handle m) handle [] [m.block] :=
  builds_directive handle _ _ fun d =>
    ((builds_hint d "note" _).onlyIf m.isMacro).andThen ((builds_paragraph d m.doc).andThen
      (builds_forM _ fun p _ => builds_paramFields d m.doc p.1 p.2))

theorem builds_valueOption (handle : Nat) (value : Option String) :
    Builds (valueOption handle value) handle (value.toList.map fun v => ("value", v)) [] := by
  cases value with
  | none => exact builds_pure handle
  | some v => exact builds_option handle "value" v

theorem builds_attributeDoc (handle : Nat) (a : Attribute) :
    Builds (attributeDoc handle a) handle [] [a.block] := by
  refine builds_directive handle _ _ fun d => ?_
  have hbuilds := (builds_valueOption d a.default).andThen (builds_paragraph d a.doc)
  rwa [List.append_nil] at hbuilds

theorem builds_parts {write : Nat → α → Script Unit} {block : α → Block} (handle : Nat)
    (title : String) (xs : List α) (h : ∀ x, Builds (write handle x) handle [] [block x]) :
    Builds (parts handle title write xs) handle [] (Class.titled title (xs.map block)) := by
  have hbuilds := ((builds_paragraph handle title).andThen
    (builds_forM xs fun x _ => h x)).skipIf xs.isEmpty
  rw [Class.titled, List.isEmpty_map, List.map_eq_flatMap]
  exact hbuilds

theorem builds_innerClasses (handle : Nat) (names : List String) :
    Builds (innerClasses handle names) handle [] (Class.titled "**Inner classes**"
      (if names.isEmpty then [] else
        [.list .bulleted (names.map (Rst.roleText "class"))])) := by
  have hbuilds := ((builds_paragraph handle "**Inner classes**").andThen
    (builds_bullets handle (names.map (Rst.roleText "class")))).skipIf names.isEmpty
  cases names with
  | nil => exact hbuilds
  | cons name names => exact hbuilds

theorem builds_classDoc (handle : Nat) (k : Class) :
    Builds (classDoc handle k) handle [] [k.block] := by
  refine builds_directive handle _ _ fun d => ?_
  have hparts := (builds_parts d "**Additional Constructors**" k.constructors
    (builds_methodDoc d)).andThen ((builds_parts d "**Methods**" k.members
      (builds_methodDoc d)).andThen ((builds_parts d "**Attributes**" k.attributes
        (builds_attributeDoc d)).andThen (builds_innerClasses d k.innerClasses)))
  have hbuilds := ((builds_paragraph d (Class.basesText k.superclasses)).skipIf
    k.superclasses.isEmpty).andThen ((builds_paragraph d k.doc).andThen hparts)
  simp only [List.append_assoc]
  exact hbuilds

theorem builds_moduleDoc (handle : Nat) (name : String) (doc : Option String) :
    Builds (moduleDoc handle name doc) handle [] [CMakeDocs.directive "module" name
      (match doc with
        | none => []
        | some "" => []
        | some text => [.paragraph text])] := by
  refine builds_directive handle _ _ fun d => ?_
  have hbuilds := (builds_paragraph d (doc.getD "")).skipIf (doc.getD "" = "")
  cases doc with
  | none => simpa using hbuilds
  | some text =>
    by_cases htext : text = ""
    · subst htext
      simpa using hbuilds
    · simpa [htext] using hbuilds

/-- Whatever an entry calls, the writer that it is given grows by the block of the entry. -/
theorem builds_entry {e : Entry} {b : Block} (handle : Nat) (h : e.block = .ok b) :
    Builds (entry handle e) handle [] [b] := by
  cases e with
  | definition isMacro d =>
    cases h
    exact builds_definitionDoc handle isMacro d
  | variableDoc v =>
    obtain ⟨name, doc, kind, value⟩ := v
    cases kind with
    | string | list | unset =>
      cases h
      exact builds_variableDoc handle rfl
    | other v => cases h
  | option v help =>
    cases h
    exact builds_optionDoc handle v help
  | generic i | test i =>
    cases h
    exact builds_warned handle _ _ _ _
  | unitTest isSection t =>
    cases h
    exact builds_warned handle _ _ _ _
  | classDoc k =>
    cases h
    exact builds_classDoc handle k
  | methodDoc m =>
    cases h
    exact builds_methodDoc handle m
  | attributeDoc a =>
    cases h
    exact builds_attributeDoc handle a
  | moduleDoc name doc =>
    cases h
    exact builds_moduleDoc handle name doc
  | strayComment name doc =>
    cases h
    exact builds_paragraph handle doc

/-- An entry without a block stops at its kind. -/
theorem entry_error {e : Entry} {v : Value} (h : e.block = .error v) {w : Writer}
    (hw : s.writers[handle]? = some w) (hheaders : s.headers.checkDirective = .ok ()) :
    entry handle e s = .error (.unknownKind v) := by
  cases e with
  | variableDoc u =>
    obtain ⟨name, doc, kind, value⟩ := u
    cases kind with
    | string | list | unset => cases h
    | other kind =>
      cases h
      have hmade := directive_eq "data" [name] hw hheaders
      obtain ⟨s₁, hs₁, hgrows⟩ := builds_paragraph s.writers.length doc _ _
        (addChild_writer s handle _) (fun hne => absurd rfl hne) hheaders
      obtain ⟨w₁, hw₁, -⟩ := hgrows.writer (addChild_writer s handle _)
      obtain ⟨s₂, hs₂, -⟩ := builds_field s.writers.length "Default value" (value.getD "None") s₁
        w₁ hw₁ (fun hne => absurd rfl hne) (by rw [hgrows.headers]; exact hheaders)
      exact ((bind_of_ok hmade).trans (bind_of_ok hs₁)).trans (bind_of_ok hs₂)
  | _ => cases h

/-- Entries are written one behind the other, if all of them have blocks. -/
theorem builds_entries {entries : List Entry}
    (h : List.Forall₂ (fun e b => e.block = .ok b) entries blocks) (handle : Nat) :
    Builds (entries.forM (entry handle)) handle [] blocks := by
  induction h with
  | nil => exact builds_pure handle
  | cons hblock _ ih => exact (builds_entry handle hblock).andThen ih

/-- If all entries have been written, all of them have blocks. -/
theorem blocks_of_entries {entries : List Entry} (hw : s.writers[handle]? = some w)
    (hheaders : s.headers.checkDirective = .ok ())
    (h : entries.forM (entry handle) s = .ok ((), s')) :
    ∃ blocks, List.Forall₂ (fun e b => e.block = .ok b) entries blocks := by
  induction entries generalizing s w with
  | nil => exact ⟨[], .nil⟩
  | cons e entries ih =>
    cases hblock : e.block with
    | error v =>
      have hfails := bind_of_error (f := fun _ => entries.forM (entry handle))
        (entry_error hblock hw hheaders)
      exact absurd (hfails.symm.trans h) (by simp)
    | ok b =>
      obtain ⟨s₁, hs₁, hgrows⟩ :=
        builds_entry handle hblock s w hw (fun hne => absurd rfl hne) hheaders
      obtain ⟨w₁, hw₁, -⟩ := hgrows.writer hw
      obtain ⟨blocks, hall⟩ := ih hw₁ (by rw [hgrows.headers]; exact hheaders)
        ((bind_of_ok hs₁).symm.trans h)
      exact ⟨b :: blocks, .cons hblock hall⟩

end Script

theorem Headers.at?_of_heading {h : Headers} {title heading : String}
    (hok : h.heading 0 (.text title) = .ok heading) : ∃ mark, h.at? 0 = .ok mark := by
  unfold Headers.heading at hok
  cases hmark : h.at? 0 with
  | error e =>
    rw [hmark] at hok
    cases hok
  | ok mark => exact ⟨mark, rfl⟩

/-- Only a text can be repeated below a title that is not empty. -/
theorem headingOf_error {title : String} (hne : title ≠ "") {mark : Value}
    (hmark : ∀ text, mark ≠ .text text) :
    Rst.headingOf mark (.text title) = .error (.notAppended "str" mark) := by
  have hcount : (title.toList.map fun c => Value.text (String.singleton c)).length ≠ 0 := by
    simpa using hne
  cases mark with
  | text text => exact absurd rfl (hmark text)
  | _ =>
    change (if (title.toList.map fun c => Value.text (String.singleton c)).length = 0 then _
      else _) = _
    rw [if_neg hcount]

/-- A title that is not empty can be underlined just if all titles can. -/
theorem Headers.underlines_of_heading {h : Headers} {title heading : String} (hne : title ≠ "")
    (hok : h.heading 0 (.text title) = .ok heading) : h.Underlines := by
  intro other
  obtain ⟨mark, hmark⟩ := at?_of_heading hok
  unfold Headers.heading at hok ⊢
  rw [hmark] at hok ⊢
  change (Rst.headingOf mark (.text title)).mapError Rst.Error.misuse = .ok heading at hok
  cases mark with
  | text mark => exact ⟨_, rfl⟩
  | _ =>
    rw [headingOf_error hne (by simp)] at hok
    cases hok

/-- A comment that belongs to nothing is only a paragraph. -/
theorem Entry.exists_paragraph {e : Entry} {b : Block} (h : e.block = .ok b)
    (hk : e.kind = .strayComment) : ∃ text, b = .paragraph text := by
  cases e with
  | strayComment name doc =>
    cases h
    exact ⟨doc, rfl⟩
  | _ => cases hk

namespace Page

/-- The first writer of a document shows a page. -/
structure WrittenIn (p : Page) (s : Store) : Prop where
  headers : s.headers = p.headers
  underlined : p.headers.checkDirective = .ok ()
  ordered : Store.Ordered 0 s.writers
  first : ∃ w rest, s.writers = w :: rest ∧ w.form = .part p.heading ∧ w.title = .text p.title ∧
    w.depth = 0 ∧ w.indent = 0 ∧ w.elements.map s.blockOf = p.blocks

variable {p : Page} {s s' : Store}

/-- A new page is shown by a new document. -/
theorem writtenIn_start {headers : Headers} {title : String} {w : Writer}
    (hp : Page.new headers title = .ok p) (hw : Writer.newPart headers (.text title) 0 0 = .ok w) :
    p.WrittenIn (.start headers w) := by
  unfold Page.new at hp
  unfold Writer.newPart at hw
  cases hheading : headers.heading 0 (.text title) with
  | error e =>
    rw [hheading] at hp
    cases hp
  | ok heading =>
    rw [hheading] at hp hw
    cases hp
    cases hw
    obtain ⟨mark, hmark⟩ := Headers.at?_of_heading hheading
    refine ⟨rfl, ?_, ⟨by simp, trivial⟩, _, [], rfl, rfl, rfl, rfl, rfl, rfl⟩
    rw [Headers.checkDirective, hmark]
    rfl

theorem WrittenIn.text_eq (h : p.WrittenIn s) : s.text 0 = p.text := by
  obtain ⟨w, rest, hs, hform, -, -, hindent, hblocks⟩ := h.first
  have hbody : w.blocks 0 (Store.blocksFrom 1 rest) = p.blocks := by
    rw [← hblocks, Writer.blocks]
    refine List.map_congr_left fun e _ => ?_
    rw [Element.elementBlock_eq, Store.blockOf, hs, List.tail_cons]
  simp only [Store.text, hs, List.getElem?_cons_zero, Nat.zero_add, List.drop_one, List.tail_cons,
    Writer.text, hform, hindent, hbody, text]

/-- Setting a title is giving the page that title. What stands in the writer does not change. -/
theorem WrittenIn.setTitle (h : p.WrittenIn s) {title heading : String}
    (hheading : p.headers.heading 0 (.text title) = .ok heading) :
    ∃ s', Script.setTitle title s = .ok ((), s') ∧
      { p with title := title, heading := heading }.WrittenIn s' ∧
      s'.elements = s.elements ∧ s'.writers.tail = s.writers.tail := by
  obtain ⟨w, rest, hs, hform, -, hdepth, hindent, hblocks⟩ := h.first
  have hfirst : s.writers[0]? = some w := by rw [hs]; rfl
  have hwriters :
      (s.modify 0 fun _ => { w with title := .text title, form := .part heading }).writers =
        { w with title := .text title, form := .part heading } :: rest := by
    rw [Store.modify_writers, hs]
    rfl
  refine ⟨s.modify 0 fun _ => { w with title := .text title, form := .part heading }, ?_,
    ⟨h.headers, h.underlined, ?_, _, rest, hwriters, rfl, rfl, hdepth, hindent, ?_⟩, ?_, ?_⟩
  · simp [Script.setTitle, Script.call, Store.edit, hfirst, Writer.retitle, hform, hdepth,
      h.headers, hheading]
  · have hordered := h.ordered
    rw [hs] at hordered
    rw [hwriters]
    exact hordered
  · rw [← hblocks]
    refine List.map_congr_left fun e _ => ?_
    rw [Store.blockOf, Store.blockOf, hwriters, hs]
    rfl
  · rw [Store.elements, Store.elements, hwriters, hs]
    rfl
  · rw [hwriters, hs]
    rfl

theorem WrittenIn.setTitle_error (h : p.WrittenIn s) {title : String} {e : Rst.Error}
    (hheading : p.headers.heading 0 (.text title) = .error e) :
    Script.setTitle title s = .error (.rst e) := by
  obtain ⟨w, rest, hs, hform, -, hdepth, -⟩ := h.first
  have hfirst : s.writers[0]? = some w := by rw [hs]; rfl
  simp [Script.setTitle, Script.call, Store.edit, hfirst, Writer.retitle, hform, hdepth,
    h.headers, hheading]

/-- Of several titles the last one stays. -/
theorem WrittenIn.setTitles (h : p.WrittenIn s) (hu : p.headers.Underlines) (titles : List String) :
    ∃ p₁ s₁, p.retitle titles.getLast? = .ok p₁ ∧
      titles.forM Script.setTitle s = .ok ((), s₁) ∧ p₁.WrittenIn s₁ ∧
      s₁.elements = s.elements ∧ s₁.writers.tail = s.writers.tail := by
  induction titles generalizing p s with
  | nil => exact ⟨p, s, rfl, rfl, h, rfl, rfl⟩
  | cons title titles ih =>
    obtain ⟨heading, hheading⟩ := hu title
    obtain ⟨s', hs', hp', helements', htail'⟩ := h.setTitle hheading
    obtain ⟨p₁, s₁, hp₁, hs₁, hwritten, helements, htail⟩ := ih hp' hu
    refine ⟨p₁, s₁, ?_, (Script.bind_of_ok hs').trans hs₁, hwritten, helements.trans helements',
      htail.trans htail'⟩
    cases titles with
    | nil =>
      cases hp₁
      simp [retitle, hheading]
    | cons title' titles => exact hp₁

/-- Titles that are not empty can all be set, or the first of them cannot. -/
theorem WrittenIn.setTitles_or_error (h : p.WrittenIn s) {titles : List String}
    (hne : ∀ title ∈ titles, title ≠ "") :
    (∃ p₁ s₁, p.retitle titles.getLast? = .ok p₁ ∧
      titles.forM Script.setTitle s = .ok ((), s₁) ∧ p₁.WrittenIn s₁ ∧
      s₁.elements = s.elements ∧ s₁.writers.tail = s.writers.tail) ∨
    ∃ e e', p.retitle titles.getLast? = .error e ∧ titles.forM Script.setTitle s = .error e' := by
  by_cases hu : p.headers.Underlines
  · exact .inl (h.setTitles hu titles)
  have hfails : ∀ title ∈ titles, ∃ e, p.headers.heading 0 (.text title) = .error e := by
    intro title htitle
    cases hheading : p.headers.heading 0 (.text title) with
    | error e => exact ⟨e, rfl⟩
    | ok heading =>
      exact absurd (Headers.underlines_of_heading (hne title htitle) hheading) hu
  cases titles with
  | nil => exact .inl ⟨p, s, rfl, rfl, h, rfl, rfl⟩
  | cons title titles =>
    obtain ⟨last, hlast⟩ : ∃ last, (title :: titles).getLast? = some last :=
      ⟨_, List.getLast?_eq_getLast_of_ne_nil (List.cons_ne_nil _ _)⟩
    obtain ⟨e, he⟩ := hfails last (List.mem_of_mem_getLast? hlast)
    obtain ⟨e', he'⟩ := hfails title List.mem_cons_self
    exact .inr ⟨.rst e, .rst e', by rw [hlast, retitle, he],
      Script.bind_of_error (h.setTitle_error he')⟩

/-- Entries with blocks are put behind what is on the page. -/
theorem WrittenIn.entries (h : p.WrittenIn s) {entries : List Entry} {blocks : List Block}
    (hall : List.Forall₂ (fun e b => e.block = .ok b) entries blocks) :
    ∃ s' new, entries.forM (Script.entry 0) s = .ok ((), s') ∧
      { p with blocks := p.blocks ++ blocks }.WrittenIn s' ∧ s'.elements = s.elements ++ new ∧
      new.map s'.blockOf = blocks ∧ s.elements.map s'.blockOf = s.elements.map s.blockOf := by
  obtain ⟨w, rest, hs, hform, htitle, hdepth, hindent, hblocks⟩ := h.first
  have hfirst : s.writers[0]? = some w := by rw [hs]; rfl
  have hheaders : s.headers.checkDirective = .ok () := by rw [h.headers, h.underlined]
  obtain ⟨s', hs', hgrows⟩ :=
    Script.builds_entries hall 0 s w hfirst (fun hne => absurd rfl hne) hheaders
  obtain ⟨new, others, hwriters, hnew, hold, hordered⟩ := hgrows.first hs h.ordered
  have helements : s.elements = w.elements := by rw [Store.elements, hs]; rfl
  refine ⟨s', new, hs', ⟨?_, h.underlined, hordered, _, _, hwriters, hform, htitle, hdepth, hindent,
    ?_⟩, ?_, hnew, ?_⟩
  · exact hgrows.headers.trans h.headers
  · rw [List.map_append, hold, hnew, hblocks]
  · rw [Store.elements, hwriters, helements]
    rfl
  · rw [helements, hold]

/-- Entries that have been written all have blocks, which have been put behind the others. -/
theorem WrittenIn.of_entries (h : p.WrittenIn s) {entries : List Entry}
    (hs' : entries.forM (Script.entry 0) s = .ok ((), s')) :
    ∃ blocks new, List.Forall₂ (fun e b => e.block = .ok b) entries blocks ∧
      { p with blocks := p.blocks ++ blocks }.WrittenIn s' ∧ s'.elements = s.elements ++ new ∧
      new.map s'.blockOf = blocks ∧ s.elements.map s'.blockOf = s.elements.map s.blockOf := by
  obtain ⟨w, rest, hs, -⟩ := h.first
  have hfirst : s.writers[0]? = some w := by rw [hs]; rfl
  obtain ⟨blocks, hall⟩ :=
    Script.blocks_of_entries hfirst (by rw [h.headers, h.underlined]) hs'
  obtain ⟨s'', new, hs'', hrest⟩ := h.entries hall
  rw [hs'] at hs''
  cases hs''
  exact ⟨blocks, new, hall, hrest⟩

/-- Building a page is putting its entries behind what is on it, once it has its title. If it cannot
have that title, nothing can be put on it. -/
theorem WrittenIn.layOut_cases (h : p.WrittenIn s) (moduleName : String) (entries : List Entry) :
    (∃ p₁ s₁, p.retitle (titleOf? entries) = .ok p₁ ∧ p₁.WrittenIn s₁ ∧
      s₁.elements = s.elements ∧ s.elements.map s₁.blockOf = s.elements.map s.blockOf ∧
      Script.layOut moduleName entries s =
        (withModule moduleName entries).forM (Script.entry 0) s₁) ∨
    (∃ e, Script.layOut moduleName entries s = .error e) ∧
      ∀ page, p.addEntries moduleName entries ≠ .ok page := by
  have hne : ∀ title ∈ (entries.filterMap moduleName?).filter (· ≠ ""), title ≠ "" := by
    intro title htitle
    simpa using (List.mem_filter.mp htitle).2
  rcases h.setTitles_or_error hne with
    ⟨p₁, s₁, hp₁, hs₁, hwritten, helements, htail⟩ | ⟨e, e', he, he'⟩
  · refine .inl ⟨p₁, s₁, hp₁, hwritten, helements, ?_, Script.bind_of_ok hs₁⟩
    unfold Store.blockOf
    rw [htail]
  · refine .inr ⟨⟨e', Script.bind_of_error he'⟩, ?_⟩
    rintro ⟨p', shownEntries⟩ hadd
    obtain ⟨-, p₁, blocks, hp₁, -⟩ := addEntries_iff.mp hadd
    exact absurd (hp₁.symm.trans he) (by simp)

theorem length_withModule (moduleName : String) (entries : List Entry) :
    (withModule moduleName entries).length =
      entries.length + if entries.any fun e => (moduleName? e).isSome then 0 else 1 := by
  unfold withModule
  split
  · rw [List.length_map]
    rfl
  · rw [List.length_cons]

/-- Building a page call by call comes to an end exactly if the entries can be put on the page, and
then the document shows that page. Its first writer has grown by one element for each entry, with
one for the module among them, in their order: a directive of the kind of the entry, or a paragraph
for a comment that belongs to nothing. What stood in the writer before stands there as it was. -/
theorem layOut_one_each (moduleName : String) (entries : List Entry) {p : Page} {s : Store}
    (h : p.WrittenIn s) :
    ((∃ s', Script.layOut moduleName entries s = .ok ((), s')) ↔
      ∃ page, p.addEntries moduleName entries = .ok page) ∧
    ∀ s', Script.layOut moduleName entries s = .ok ((), s') →
      ∃ p' shownEntries new, p.addEntries moduleName entries = .ok (p', shownEntries) ∧
        p'.WrittenIn s' ∧ s'.text 0 = p'.text ∧ s'.elements = s.elements ++ new ∧
        p'.blocks = p.blocks ++ new.map s'.blockOf ∧
        new.length =
          entries.length + (if entries.any fun e => (moduleName? e).isSome then 0 else 1) ∧
        List.Forall₂ (fun e element => e.block = .ok (s'.blockOf element) ∧
          (s'.blockOf element).directiveName? = e.kind.directiveName? ∧
          (e.kind = .strayComment → ∃ text, s'.blockOf element = .paragraph text))
          (withModule moduleName entries) new ∧
        s.elements.map s'.blockOf = s.elements.map s.blockOf := by
  rcases h.layOut_cases moduleName entries with
    ⟨p₁, s₁, hp₁, hwritten, helements, hold, hlayOut⟩ | ⟨⟨e, hlayOut⟩, hadd⟩
  · rw [hlayOut]
    refine ⟨⟨?_, ?_⟩, ?_⟩
    · rintro ⟨s', hs'⟩
      obtain ⟨blocks, new, hall, -⟩ := hwritten.of_entries hs'
      exact ⟨_, addEntries_iff.mpr ⟨rfl, p₁, blocks, hp₁, hall, rfl⟩⟩
    · rintro ⟨⟨p', shownEntries⟩, hadd⟩
      obtain ⟨-, p₂, blocks, -, hall, -⟩ := addEntries_iff.mp hadd
      obtain ⟨s', new, hs', -⟩ := hwritten.entries hall
      exact ⟨s', hs'⟩
    · intro s' hs'
      obtain ⟨blocks, new, hall, hwritten', hgrown, hnew, hkept⟩ := hwritten.of_entries hs'
      rw [helements] at hgrown hkept
      refine ⟨_, _, new, addEntries_iff.mpr ⟨rfl, p₁, blocks, hp₁, hall, rfl⟩, hwritten',
        hwritten'.text_eq, hgrown, ?_, ?_, ?_, hkept.trans hold⟩
      · rw [hnew, (retitle_ok hp₁).2.2]
      · rw [← length_withModule, hall.length_eq, ← hnew, List.length_map]
      · rw [← hnew, List.forall₂_map_right_iff] at hall
        exact hall.imp fun e element hblock =>
          ⟨hblock, Entry.directiveName?_block hblock, Entry.exists_paragraph hblock⟩
  · rw [hlayOut]
    refine ⟨⟨?_, ?_⟩, ?_⟩
    · rintro ⟨s', hs'⟩
      cases hs'
    · rintro ⟨page, hpage⟩
      exact absurd hpage (hadd page)
    · intro s' hs'
      cases hs'

/-- A class with a method and an attribute in it, and a comment that belongs to nothing. -/
def classAndStray : List Entry :=
  [.classDoc ⟨"A", "Doc.", ["B"], [], [], [⟨"go", "Goes.", "A", ["int"], ["x"], false, true⟩],
      [⟨"size", "Size.", "A", some "3"⟩]⟩,
    .strayComment "" "Stray."]

theorem classAndStray_one_each : ∃ s s' : Store, (blank "t").WrittenIn s ∧
    Script.layOut "m" classAndStray s = .ok ((), s') ∧ s'.elements.length = 3 ∧
    s'.elements.map (fun element => (s'.blockOf element).directiveName?) =
      [some "module", some "py:class", none] := by
  have hwritten : (blank "t").WrittenIn (.start .preset
      ⟨.part (Rst.headingText "#" "t"), .text "t", 0, 0, []⟩) :=
    writtenIn_start (new_preset "t") rfl
  obtain ⟨hiff, hgrows⟩ := layOut_one_each "m" classAndStray hwritten
  obtain ⟨s', hs'⟩ := hiff.mpr ⟨_, rfl⟩
  obtain ⟨p', shownEntries, new, -, -, -, helements, -, hlength, hall, -⟩ := hgrows s' hs'
  refine ⟨_, s', hwritten, hs', ?_, ?_⟩
  · rw [helements]
    exact hlength
  · rw [helements]
    have hnames : List.Forall₂ Eq
        ((withModule "m" classAndStray).map fun e => e.kind.directiveName?)
        (new.map fun element => (s'.blockOf element).directiveName?) := by
      rw [List.forall₂_map_left_iff, List.forall₂_map_right_iff]
      exact hall.imp fun _ _ hblock => hblock.2.1.symm
    rw [List.forall₂_eq_eq_eq] at hnames
    exact hnames.symm

end Page

end CMakeDocs
