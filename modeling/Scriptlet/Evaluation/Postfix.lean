import Scriptlet.Operator

/-!
# Scriptlet — postfix order

An expression is written with its operators between the operands. Evaluation wants each operator
behind its two operands: `Postfix.ofTerms` brings the terms into that order with a stack of waiting
operators, and `Postfix.fold` works through the result with a stack of values. A waiting operator
goes out as soon as an operator comes that does not bind tighter, so operators of equal priority
associate to the left.
-/

namespace Scriptlet

/-- An item of an expression in postfix order. -/
inductive Postfix (α : Type u) where
  | operand (a : α)
  | operator (op : Operator)
deriving Repr

namespace Postfix

/-- Whether a waiting operator goes out before `op` starts to wait. -/
def yields (op waiting : Operator) : Bool :=
  op.priority ≤ waiting.priority

/-- The terms after the first operand in postfix order, given the waiting operators, the latest
first. -/
def ofRest {α : Type u} (waiting : List Operator) : List (Operator × α) → List (Postfix α)
  | [] => waiting.map .operator
  | (op, a) :: rest =>
    (waiting.takeWhile (yields op)).map .operator ++
      .operand a :: ofRest (op :: waiting.dropWhile (yields op)) rest

/-- The terms of an expression in postfix order. -/
def ofTerms {α : Type u} (first : α) (rest : List (Operator × α)) : List (Postfix α) :=
  .operand first :: ofRest [] rest

/-- Works through items in postfix order with a stack of values, the latest first. Operands are
computations and run in their order; `malformed` is the answer to items that do not form an
expression. -/
def fold {m : Type → Type} [Monad m] {α : Type} (apply : Operator → α → α → m α)
    (malformed : m α) : List α → List (Postfix (m α)) → m α
  | [value], [] => pure value
  | _, [] => malformed
  | stack, .operand a :: items => do
    let value ← a
    fold apply malformed (value :: stack) items
  | rhs :: lhs :: stack, .operator op :: items => do
    let value ← apply op lhs rhs
    fold apply malformed (value :: stack) items
  | _, .operator _ :: _ => malformed

end Postfix

end Scriptlet
