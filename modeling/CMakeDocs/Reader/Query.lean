import CMakeDocs.Reader.Rules

/-!
# Asking a tree for its parts

A question names a rule or a kind of token. Where the rule may occur several times below a node,
the answer lists all of them unless one is asked for by number; otherwise it is the first, if any.
-/
namespace CMakeDocs.Tree

inductive Part where
  | rule (rule : Rule)
  | token (kind : TokenKind)
deriving DecidableEq, Repr

inductive PartAnswer where
  | one (text : Option String)
  | many (texts : List String)
deriving DecidableEq, Repr

/-- The parts of a tree that are read by a rule or are tokens of a kind. -/
def ask (t : Tree) (part : Part) (number : Option Nat) : PartAnswer :=
  match part with
  | .token kind => .one ((t.leafOf? kind).map text)
  | .rule rule =>
    let found := t.childrenOf rule
    match number, t.rule? with
    | some i, _ => .one (found[i]?.map text)
    | none, some owner =>
      if owner.repeats rule then .many (found.map text) else .one (found.head?.map text)
    | none, none => .one none

end CMakeDocs.Tree
