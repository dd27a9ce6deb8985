import Scriptlet.Operator

/-!
# Scriptlet — syntax trees

A program is a list of statements. An expression keeps its operands and operators in the order in
which they are written; which operator binds first is settled when it is evaluated. Every node that
can be at fault carries the line of its first token.
-/

namespace Scriptlet

mutual

/-- One operand of an expression. -/
inductive Operand where
  | ident (name : String) (line : Nat)
  | number (value : Int64)
  | text (content : String)
  | call (callee : String) (args : List Expr) (line : Nat)
  /-- An expression in parentheses. -/
  | group (inner : Expr)

/-- A sequence of operands with operators between them, perhaps assigned to a variable. -/
structure Expr where
  /-- The variable that takes the result. -/
  target : Option String
  first : Operand
  rest : List (Operator × Operand)
  line : Nat

end

/-- A statement. -/
inductive Stmt where
  | expr (value : Expr)
  | branch (condition : Expr) (thenBody : List Stmt) (elseBody : Option (List Stmt)) (line : Nat)
  | loop (condition : Expr) (body : List Stmt) (line : Nat)
  | ret (result : Expr) (line : Nat)
  | define (name : String) (params : List String) (body : List Stmt) (line : Nat)

/-- A function written in a script. -/
structure FunctionDef where
  name : String
  params : List String
  body : List Stmt
  line : Nat

/-- A whole program: its statements in order. -/
abbrev Program := List Stmt

/-- The number of operands and operators, which is odd. -/
def Expr.termCount (e : Expr) : Nat :=
  1 + 2 * e.rest.length

/-- The line of a statement's first token. -/
def Stmt.line : Stmt → Nat
  | expr value => value.line
  | branch _ _ _ line => line
  | loop _ _ line => line
  | ret _ line => line
  | define _ _ _ line => line

end Scriptlet
