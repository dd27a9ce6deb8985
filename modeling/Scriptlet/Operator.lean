/-!
# Scriptlet — binary operators

The twelve operators of expressions, their symbols and their binding strengths. The assignment sign
is not one of them: it only stands at the start of an expression.
-/

namespace Scriptlet

/-- A binary operator. -/
inductive Operator where
  | mul | div | mod
  | add | sub
  | less | greater | lessEqual | greaterEqual | equal
  | and | or
deriving DecidableEq, Repr, Inhabited

namespace Operator

/-- How the operator is written. -/
def symbol : Operator → String
  | mul => "*"
  | div => "/"
  | mod => "%"
  | add => "+"
  | sub => "-"
  | less => "<"
  | greater => ">"
  | lessEqual => "<="
  | greaterEqual => ">="
  | equal => "=="
  | and => "&&"
  | or => "||"

/-- All operators. -/
def all : List Operator :=
  [mul, div, mod, add, sub, less, greater, lessEqual, greaterEqual, equal, and, or]

/-- The operator written with the given symbol. -/
def ofSymbol? (symbol : String) : Option Operator :=
  all.find? (·.symbol == symbol)

/-- The binding strength: of two neighbouring operators the one with the higher number takes the
operand between them, and of two equal ones the left. -/
def priority : Operator → Nat
  | mul | div | mod => 3
  | add | sub => 2
  | less | greater | lessEqual | greaterEqual | equal => 1
  | and | or => 0

/-- Reading an operator's symbol gives the operator back. -/
theorem ofSymbol?_symbol (op : Operator) : ofSymbol? op.symbol = some op := by
  cases op <;> decide +kernel

end Operator

end Scriptlet
