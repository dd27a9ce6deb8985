import Scriptlet.Fault

/-!
# Scriptlet — applying operators

Both operands are values already, so no operator is lazy. Integer arithmetic is computed exactly
and fails where the result does not fit into 64 bits; quotients go toward zero, and a remainder is
refused where its quotient does not fit. Addition joins texts, ordering compares values of one type
(texts by code point), and equality compares any two values.
-/

namespace Scriptlet

namespace Value

/-- Whether a condition with this value holds. A text has no truth value. -/
def truth : Value → Except Cause Bool
  | .int n => .ok (decide (0 < n.toInt))
  | .text _ => .error .textCondition

/-- A truth value is read back from the value that stands for it. -/
theorem truth_ofBool (b : Bool) : (ofBool b).truth = .ok b := by
  cases b <;> rfl

/-- The order of two values of one type: integers by size, texts by code point, a proper beginning
first. -/
def order? : Value → Value → Option Ordering
  | .int a, .int b => some (compare a.toInt b.toInt)
  | .text a, .text b => some (if a < b then .lt else if a = b then .eq else .gt)
  | _, _ => none

end Value

namespace Operator

/-- The result of integer arithmetic, if it fits. -/
def exact (op : Operator) (result : Int) : Except Cause Value :=
  match int64? result with
  | some n => .ok (.int n)
  | none => .error (.overflow op)

/-- The operator does not take operands of these types. -/
def refuse (op : Operator) (lhs rhs : Value) : Except Cause Value :=
  .error (.operandTypes op lhs.type rhs.type)

/-- Arithmetic on two integers; no other operands are allowed. -/
def arithmetic (op : Operator) (compute : Int → Int → Except Cause Value) (lhs rhs : Value) :
    Except Cause Value :=
  match lhs, rhs with
  | .int a, .int b => compute a.toInt b.toInt
  | _, _ => op.refuse lhs rhs

/-- A test of the order of two values of one type. -/
def ordering (op : Operator) (holds : Ordering → Bool) (lhs rhs : Value) : Except Cause Value :=
  match lhs.order? rhs with
  | some order => .ok (.ofBool (holds order))
  | none => op.refuse lhs rhs

/-- A combination of two conditions; the left one is checked first. -/
def logical (combine : Bool → Bool → Bool) (lhs rhs : Value) : Except Cause Value := do
  let left ← lhs.truth
  let right ← rhs.truth
  return .ofBool (combine left right)

/-- Quotient toward zero. -/
def quotient (a b : Int) : Except Cause Value :=
  if b = 0 then .error .divisionByZero else div.exact (a.tdiv b)

/-- Remainder with the sign of the dividend, where the quotient fits. -/
def remainder (a b : Int) : Except Cause Value :=
  if b = 0 then .error .moduloByZero
  else if FitsInt64 (a.tdiv b) then mod.exact (a.tmod b)
  else .error (.overflow mod)

/-- Applies an operator to two values. -/
def apply (op : Operator) (lhs rhs : Value) : Except Cause Value :=
  match op with
  | add =>
    match lhs, rhs with
    | .int a, .int b => op.exact (a.toInt + b.toInt)
    | _, _ => .ok (.text (lhs.render ++ rhs.render))
  | sub => op.arithmetic (fun a b => op.exact (a - b)) lhs rhs
  | mul => op.arithmetic (fun a b => op.exact (a * b)) lhs rhs
  | div => op.arithmetic quotient lhs rhs
  | mod => op.arithmetic remainder lhs rhs
  | less => op.ordering (· == .lt) lhs rhs
  | greater => op.ordering (· == .gt) lhs rhs
  | lessEqual => op.ordering (· != .gt) lhs rhs
  | greaterEqual => op.ordering (· != .lt) lhs rhs
  | equal => .ok (.ofBool (lhs == rhs))
  | and => logical (· && ·) lhs rhs
  | or => logical (· || ·) lhs rhs

end Operator

end Scriptlet
