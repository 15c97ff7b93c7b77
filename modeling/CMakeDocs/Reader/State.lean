import CMakeDocs.Token.Stream
import CMakeDocs.Reader.Place

/-!
# The state of a reader

A reader holds the cells from its current token on. Looking at a token prints the reports that
stand before it, so they are moved from the cell to the list of printed reports. While the reader
recovers from a fault it prints nothing of its own, and what it consumes counts as skipped. It
remembers where and at which places it has recovered since it last read a token as expected.
-/
namespace CMakeDocs

/-- Why a rule is left before its end. -/
inductive Fault where
  /-- A token too many or too few. No rule catches this one. -/
  | halt (report : Report)
  /-- The current token cannot stand at a place. -/
  | mismatch (token : Token) (expected : List TokenKind)
  /-- No kind of item begins with the tokens up to the given one. -/
  | noChoice (tokens : List Token) (token : Token)
deriving DecidableEq, Repr

namespace Fault

/-- The token that a fault is about, unless it halts the reader. -/
def token? : Fault → Option Token
  | halt _ => none
  | mismatch t _ => some t
  | noChoice _ t => some t

def report : Fault → Report
  | halt r => r
  | mismatch t expected =>
    ⟨t.position, "mismatched input " ++ Token.shown t.text ++ " expecting " ++
      Place.showKinds expected⟩
  | noChoice tokens t =>
    let read := (tokens ++ [t]).filter fun u => u.kind ≠ .endOfText
    ⟨t.position, "no viable alternative at input " ++
      Token.shown (String.join (read.map Token.text))⟩

end Fault

structure Reader where
  cells : List Cell
  /-- How many tokens have been consumed. -/
  index : Nat
  reports : List Report
  recovering : Bool
  /-- Where the reader last recovered. -/
  faultIndex : Option Nat
  faultPlaces : List Place
deriving Repr

namespace Reader

/-- Takes the reports out of the first cells. -/
def takeReports : Nat → List Cell → List Report × List Cell
  | 0, cells => ([], cells)
  | _, [] => ([], [])
  | n + 1, cell :: cells =>
    let (reports, rest) := takeReports n cells
    (cell.reports ++ reports, { cell with reports := [] } :: rest)

/-- Looks at the first tokens, as many as are asked for. -/
def look (r : Reader) (n : Nat) : Reader :=
  let (reports, cells) := takeReports n r.cells
  { r with cells := cells, reports := r.reports ++ reports }

def lookAtAll (r : Reader) : Reader := r.look r.cells.length

/-- The reader at the start of a text. -/
def start (text : String) : Reader :=
  let r : Reader := ⟨Cell.ofText text, 0, [], false, none, []⟩
  r.look 1

/-- The current token. -/
def current (r : Reader) : Token :=
  match r.cells with
  | cell :: _ => cell.token
  | [] => ⟨.endOfText, "<EOF>", 0, Position.origin⟩

def kind (r : Reader) : TokenKind := r.current.kind

/-- The kind of the token after the current one; the end of the text comes after itself. -/
def nextKind (r : Reader) : TokenKind :=
  match r.cells with
  | _ :: cell :: _ => cell.token.kind
  | _ => .endOfText

/-- Passes the current token, unless it is the end of the text, and looks at the next. -/
def advance (r : Reader) : Reader :=
  match r.cells with
  | _ :: next :: rest =>
    look { r with cells := next :: rest, index := r.index + 1 } 1
  | _ => r

def print (r : Reader) (report : Report) : Reader :=
  { r with reports := r.reports ++ [report] }

/-- Ends the recovery from a fault. -/
def settle (r : Reader) : Reader :=
  { r with recovering := false, faultIndex := none, faultPlaces := [] }

end Reader

/-- What a part of a rule has done: the reader after it, the trees it has read, and the fault
with which it ended, if any, with the place at which it stood then. -/
structure Step where
  reader : Reader
  trees : List Tree
  fault : Option (Fault × Place)
deriving Repr

namespace Step

def done (r : Reader) : Step := ⟨r, [], none⟩

/-- Goes on unless there was a fault. -/
def andThen (step : Step) (next : Reader → Step) : Step :=
  match step.fault with
  | some _ => step
  | none =>
    let after := next step.reader
    { after with trees := step.trees ++ after.trees }

/-- The same step, seen from the place that made it. -/
def calledAt (step : Step) (place : Place) : Step :=
  { step with fault := step.fault.map fun f => (f.1, place) }

/-- The tree of a step that was made by one rule. -/
def tree? (step : Step) : Option Tree := step.trees.head?

end Step

end CMakeDocs
