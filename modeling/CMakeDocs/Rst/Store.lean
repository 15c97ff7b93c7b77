import CMakeDocs.Rst.Block
import CMakeDocs.Rst.Header

/-!
# Writing a document in any order

A store holds writers, the sections and directives of one document, each known by a handle. A
writer is made by another one and gets the next handle, so what stands in a writer always has a
greater handle than the writer itself. Clearing a writer takes everything out of it; what has been
taken out is still there under its handle. A writer takes a new title even if it cannot have a
heading, and shows the heading that it had.
-/
namespace CMakeDocs.Rst

inductive Form where
  /-- A section with the heading that is shown. -/
  | part (heading : String)
  | directive (arguments : List String) (options : List (String × String))
deriving DecidableEq, Repr

inductive Element where
  | piece (b : Block)
  | child (handle : Nat)
deriving Repr

structure Writer where
  form : Form
  title : Value
  depth : Int
  indent : Int
  elements : List Element
deriving Repr

namespace Writer

def newPart (h : Headers) (title : Value) (depth indent : Int) : Except Error Writer := do
  .ok ⟨.part (← h.heading depth title), title, depth, indent, []⟩

/-- A directive that stands in something of the given indentation. -/
def newDirective (h : Headers) (name : Value) (arguments : List Value) (indent : Int) :
    Except Error Writer := do
  h.checkDirective
  .ok ⟨.directive (arguments.map Value.shown) [], name, 0, indent + 1, []⟩

def add (w : Writer) (e : Element) : Writer := { w with elements := w.elements ++ [e] }

/-- The writer with a new title, and what is wrong with it. -/
def retitle (h : Headers) (title : Value) (w : Writer) : Writer × Option Error :=
  let titled := { w with title := title }
  match w.form with
  | .directive _ _ => (titled, none)
  | .part _ =>
    match h.heading w.depth title with
    | .ok heading => ({ titled with form := .part heading }, none)
    | .error e => (titled, some e)

/-- The block of an element; the blocks of the handles after `handle` are given. -/
def elementBlock (handle : Nat) (later : List Block) : Element → Block
  | .piece b => b
  | .child i => later.getD (i - (handle + 1)) (.paragraph "")

def blocks (handle : Nat) (later : List Block) (w : Writer) : List Block :=
  w.elements.map (elementBlock handle later)

def toBlock (handle : Nat) (later : List Block) (w : Writer) : Block :=
  match w.form with
  | .part heading => .part heading (w.blocks handle later)
  | .directive arguments options =>
    .directive w.title.shown arguments options (w.blocks handle later)

def text (handle : Nat) (later : List Block) (w : Writer) : String :=
  let body := Block.textOfAll w.indent (w.blocks handle later)
  match w.form with
  | .part heading => partText heading body
  | .directive arguments options => directiveText w.indent w.title.shown arguments options body

end Writer

structure Store where
  headers : Headers
  writers : List Writer
deriving Repr

namespace Store

/-- A document with one writer, whose handle is zero. -/
def start (h : Headers) (w : Writer) : Store := ⟨h, [w]⟩

/-- The blocks of writers whose handles begin at the given one. -/
def blocksFrom (handle : Nat) : List Writer → List Block
  | [] => []
  | w :: ws =>
    let later := blocksFrom (handle + 1) ws
    w.toBlock handle later :: later

/-- The text of a writer. -/
def text (s : Store) (handle : Nat) : String :=
  match s.writers[handle]? with
  | none => ""
  | some w => w.text handle (blocksFrom (handle + 1) (s.writers.drop (handle + 1)))

def title (s : Store) (handle : Nat) : Value := (s.writers[handle]?.map Writer.title).getD .null

def modify (s : Store) (handle : Nat) (f : Writer → Writer) : Store :=
  { s with writers := s.writers.modify handle f }

/-- Adds a new writer at the end of another one. -/
def addChild (s : Store) (handle : Nat) (child : Writer) : Store :=
  let s' := s.modify handle (·.add (.child s.writers.length))
  { s' with writers := s'.writers ++ [child] }

/-- What can be done to a writer. -/
inductive Edit where
  | addPart (title : Value)
  | addDirective (name : Value) (arguments : List Value)
  | addParagraph (text : Value)
  | addField (name value : Value)
  | addDoctest (line expected : Value)
  | addList (kind : ListKind) (items : List Value)
  | addTable (rows headings : Value)
  | addOption (name value : Value)
  | clear
  | setTitle (title : Value)
deriving Repr

def addOption (name value : Value) (w : Writer) : Except Error Writer :=
  match w.form with
  | .part _ => .error .noOptions
  | .directive arguments options =>
    .ok { w with form := .directive arguments (options ++ [(name.shown, value.shown)]) }

/-- The store after something that cannot fail half way. -/
def attempt (s : Store) (result : Except Error Store) : Store × Option Error :=
  match result with
  | .ok s' => (s', none)
  | .error e => (s, some e)

/-- Does something to the writer of a handle, as far as possible, and tells what is wrong. -/
def edit (s : Store) (handle : Nat) (e : Edit) : Store × Option Error :=
  let addPiece (b : Block) := s.modify handle (·.add (.piece b))
  match s.writers[handle]? with
  | none => (s, none)
  | some w =>
    match e with
    | .addPart title => s.attempt do
      .ok (s.addChild handle (← Writer.newPart s.headers title (w.depth + 1) 0))
    | .addDirective name arguments => s.attempt do
      .ok (s.addChild handle (← Writer.newDirective s.headers name arguments w.indent))
    | .addParagraph (.text text) => (addPiece (.paragraph text), none)
    | .addParagraph v => (s, some (.misuse (.noLines v)))
    | .addField name value => (addPiece (.field name.shown value.shown), none)
    | .addDoctest line expected => (addPiece (.doctest line.shown expected.shown), none)
    | .addList kind items => (addPiece (.list kind (items.map Value.shown)), none)
    | .addTable rows headings => s.attempt do
      .ok (addPiece (.table (← Table.ofValues? rows headings)))
    | .addOption name value => s.attempt do
      let w' ← addOption name value w
      .ok (s.modify handle fun _ => w')
    | .clear => (s.modify handle fun w => { w with elements := [] }, none)
    | .setTitle title =>
      let (w', fault) := w.retitle s.headers title
      (s.modify handle fun _ => w', fault)

end Store

end CMakeDocs.Rst
