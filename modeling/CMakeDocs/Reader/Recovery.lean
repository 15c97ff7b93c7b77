import CMakeDocs.Reader.State

/-!
# Faults and recovery

A token that cannot stand at its place is met in one of three ways. If the next token would do,
the current one is too many; if the current one could come after the wanted one, the wanted one
is missing; both are reported and halt the reader. Otherwise the rule is left with a mismatch.
The rule in which it happens reports it and passes it on; the rule that called it recovers: it
skips tokens up to one that may follow one of the calls under way, and ends as if all were well.

While a reader recovers, the first two ways are taken silently: the token too many is skipped,
and the missing one is marked in the tree.
-/
namespace CMakeDocs.Reader

/-- Consumes the current token: as read, or as skipped while recovering. The end of the text can
be consumed any number of times. -/
def consume (r : Reader) : Step :=
  ⟨r.advance, [if r.recovering then .skipped r.current else .token r.current], none⟩

def unwanted (r : Reader) (place : Place) : Step :=
  let report : Report := ⟨r.current.position, "extraneous input " ++ Token.shown r.current.text ++
    " expecting " ++ Place.showKinds place.expected⟩
  ⟨{ r.print report with recovering := true }, [], some (.halt report, place)⟩

def lacking (r : Reader) (place : Place) : Step :=
  let report : Report := ⟨r.current.position, "missing " ++ Place.showKinds place.expected ++
    " at " ++ Token.shown r.current.text⟩
  ⟨{ r.print report with recovering := true }, [], some (.halt report, place)⟩

def mismatched (r : Reader) (place : Place) : Step :=
  ⟨r, [], some (.mismatch r.current place.expected, place)⟩

/-- The test before a choice or a list: the current token must be one that may come there. -/
def checkEntry (r : Reader) (place : Place) : Step :=
  if r.recovering ∨ r.kind ∈ place.expected then .done r
  else
    let r := r.look 2
    if r.nextKind ∈ place.expected then r.unwanted place else r.mismatched place

/-- The test after an item of a list: what cannot come there is always one too many. -/
def checkNext (r : Reader) (place : Place) : Step :=
  if r.recovering ∨ r.kind ∈ place.expected then .done r else r.unwanted place

/-- Reads a token of a kind that is expected at a place. -/
def expect (r : Reader) (calls : List Place) (place : Place) : Step :=
  if r.kind ∈ place.expected then r.settle.consume
  else
    let r := r.look 2
    if r.nextKind ∈ place.expected then
      if r.recovering then r.consume.andThen fun r => r.settle.consume
      else r.unwanted place
    else if r.kind ∈ place.afterToken calls then
      if r.recovering then
        ⟨r, (place.expected.take 1).map .missing, none⟩
      else r.lacking place
    else r.mismatched place

/-- Skips tokens up to the end of the text or to one of the given kinds. -/
def skipTo (kinds : List TokenKind) : Nat → Reader → Step
  | 0, r => .done r
  | fuel + 1, r =>
    if r.kind = .endOfText ∨ r.kind ∈ kinds then .done r
    else r.consume.andThen (skipTo kinds fuel)

/-- Recovers at a place. Where this has happened before at the same token, one token is skipped
first, so that the reader gets on. -/
def recover (r : Reader) (calls : List Place) (place : Place) : Step :=
  let first :=
    if r.faultIndex = some r.index ∧ place ∈ r.faultPlaces then r.consume else .done r
  first.andThen fun r =>
    let r := { r with faultIndex := some r.index, faultPlaces := place :: r.faultPlaces }
    skipTo (Place.recoverySet calls) r.cells.length r

/-- Reports a fault that was met outside recovery. -/
def reportFault (r : Reader) (fault : Fault) : Reader :=
  let r := match fault with
    | .noChoice _ _ => r.lookAtAll
    | _ => r
  { r.print fault.report with recovering := true }

/-- Ends a rule that began at a place of the text: its trees become a node, and a fault is
passed on, or recovered from if it has been reported before. -/
def close (rule : Rule) (position : Position) (calls : List Place) (step : Step) : Step :=
  let node (trees : List Tree) : List Tree := [.node rule position trees]
  match step.fault with
  | none => { step with trees := node step.trees }
  | some (.halt _, _) => { step with trees := node step.trees }
  | some (fault, place) =>
    if step.reader.recovering then
      let after := step.reader.recover calls place
      { after with trees := node (step.trees ++ after.trees) }
    else ⟨step.reader.reportFault fault, node step.trees, some (fault, place)⟩

end CMakeDocs.Reader
