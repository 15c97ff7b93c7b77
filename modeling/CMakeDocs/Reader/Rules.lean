import CMakeDocs.Reader.Recovery

/-!
# The rules of the grammar

One function a rule. Each takes the chain of calls that led to it, innermost first; the chain is
empty for the rule that a reader starts with. A documentation comment belongs to the command after
it, provided that command is complete: this is decided by looking ahead to its last parenthesis.
-/
namespace CMakeDocs.Reader

def moduleComment (calls : List Place) (r : Reader) : Step :=
  close .documentedModule r.current.position calls (r.expect calls .moduleToken)

def comment (calls : List Place) (r : Reader) : Step :=
  close .comment r.current.position calls (r.expect calls .commentToken)

def argument (calls : List Place) (r : Reader) : Step :=
  close .argument r.current.position calls (r.expect calls .argumentToken)

mutual

/-- The arguments of a list, up to a token that begins none. -/
def arguments : Nat → ListOwner → List Place → Reader → Step
  | 0, _, _, r => .done r
  | fuel + 1, owner, calls, r =>
    let item :=
      if r.kind.isArgument then
        some ((argument (.callArgument owner :: calls) r).calledAt (.callArgument owner))
      else if r.kind = .leftParen then
        some ((group fuel (.callGroup owner :: calls) r).calledAt (.callGroup owner))
      else none
    match item with
    | none => .done r
    | some step =>
      (step.andThen fun r => r.checkNext (.listNext owner)).andThen
        (arguments fuel owner calls)

/-- A list of arguments in parentheses as an argument of its own. -/
def group : Nat → List Place → Reader → Step
  | 0, _, r => .done r
  | fuel + 1, calls, r =>
    close .group r.current.position calls <|
      (((r.expect calls (.listOpen .group)).andThen
        fun r => r.checkEntry (.listItems .group)).andThen
        (arguments fuel .group calls)).andThen
        fun r => r.expect calls (.listClose .group)

end

def command (calls : List Place) (r : Reader) : Step :=
  close .command r.current.position calls <|
    ((((r.expect calls .commandName).andThen
      fun r => r.expect calls (.listOpen .command)).andThen
      fun r => r.checkEntry (.listItems .command)).andThen
      fun r => arguments (2 * r.cells.length) .command calls r).andThen
      fun r => r.expect calls (.listClose .command)

def documentedCommand (calls : List Place) (r : Reader) : Step :=
  close .documentedCommand r.current.position calls <|
    ((comment (.documentedComment :: calls) r).calledAt .documentedComment).andThen
      fun r => (command (.documentedCommand :: calls) r).calledAt .documentedCommand

/-- How a text goes on after a documentation comment. -/
inductive Outlook where
  /-- A complete command follows. -/
  | command
  /-- No command follows. -/
  | other
  /-- Neither is possible. -/
  | neither
deriving DecidableEq, Repr

/-- Looks for the parenthesis that closes a list at the given depth; answers with the number of
tokens that were looked at and whether the last of them closes the list. -/
def closesList : Nat → List TokenKind → Nat × Bool
  | _, [] => (0, false)
  | depth, kind :: kinds =>
    let further (d : Nat) : Nat × Bool :=
      let (n, closed) := closesList d kinds
      (n + 1, closed)
    if kind.isArgument then further depth
    else if kind = .leftParen then further (depth + 1)
    else if kind = .rightParen then
      match depth with
      | 0 => (1, true)
      | d + 1 => further d
    else (1, false)

/-- What follows a documentation comment, and how many tokens it takes to see it. -/
def outlook : List TokenKind → Outlook × Nat
  | .identifier :: .leftParen :: kinds =>
    let (n, closed) := closesList 0 kinds
    (if closed then .command else .neither, n + 2)
  | .identifier :: _ => (.neither, 2)
  | .docComment :: _ => (.other, 1)
  | .endOfText :: _ => (.other, 1)
  | _ => (.neither, 1)

/-- One item of a file: a documented command, a comment or a command. -/
def item (r : Reader) : Step :=
  if r.kind = .docComment then
    let tokens := r.cells.map Cell.token
    let (what, n) := outlook (tokens.tail.map Token.kind)
    let r := r.look (n + 1)
    match what with
    | .command => (documentedCommand [.callDocumented] r).calledAt .callDocumented
    | .other => (comment [.callComment] r).calledAt .callComment
    | .neither =>
      let offender := ((tokens.drop n).head?).getD r.current
      ⟨r, [], some (.noChoice (tokens.take n) offender, .fileChoice)⟩
  else (command [.callCommand] r).calledAt .callCommand

/-- The items of a file. -/
def items : Nat → Reader → Step
  | 0, r => .done r
  | fuel + 1, r =>
    if r.kind = .docComment ∨ r.kind = .identifier then
      ((item r).andThen fun r => r.checkNext .fileNext).andThen (items fuel)
    else .done r

def file (r : Reader) : Step :=
  close .file r.current.position [] <|
    ((((r.checkEntry .fileStart).andThen fun r =>
      if r.kind = .moduleComment then
        (moduleComment [.callModule] r).calledAt .callModule
      else .done r).andThen
      fun r => r.checkEntry .fileItems).andThen
      fun r => items r.cells.length r).andThen
      fun r => r.expect [] .fileEnd

/-- Reads by any rule. -/
def readRule (rule : Rule) (r : Reader) : Step :=
  match rule with
  | .file => file r
  | .documentedCommand => documentedCommand [] r
  | .documentedModule => moduleComment [] r
  | .comment => comment [] r
  | .command => command [] r
  | .argument => argument [] r
  | .group => group (2 * r.cells.length + 1) [] r


end CMakeDocs.Reader
