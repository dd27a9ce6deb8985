import Scriptlet.Text.Quoted
import Scriptlet.Tree

/-!
# Scriptlet — rendering of syntax trees

A tree as one line of nested parentheses. Expressions, groups and blocks have parentheses of their
own, statements other than expressions start with a tag, and string literals are quoted. Lines are
not shown.
-/

namespace Scriptlet

-- ---------------------------------------------------------------------------
-- Expressions
-- ---------------------------------------------------------------------------

mutual

/-- An operand as text. -/
def Operand.render : Operand → String
  | .ident name _ => name
  | .number value => toString value.toInt
  | .text content => Text.quote content
  | .call callee args _ => callee ++ "(" ++ " ".intercalate (Expr.renderAll args) ++ ")"
  | .group inner => inner.render

/-- An expression as text, in parentheses. -/
def Expr.render : Expr → String
  | ⟨target, first, rest, _⟩ =>
    let assignment := match target with
      | some name => name ++ " = "
      | none => ""
    "(" ++ assignment ++ first.render ++ Expr.renderRest rest ++ ")"

/-- Each expression of a list as text. -/
def Expr.renderAll : List Expr → List String
  | [] => []
  | e :: es => e.render :: Expr.renderAll es

/-- The operators of an expression, each with the operand after it. -/
def Expr.renderRest : List (Operator × Operand) → String
  | [] => ""
  | (op, operand) :: rest =>
    " " ++ op.symbol ++ " " ++ operand.render ++ Expr.renderRest rest

end

-- ---------------------------------------------------------------------------
-- Statements
-- ---------------------------------------------------------------------------

/-- The text of a block whose statements are given as texts. -/
def Program.renderBlock (statements : List String) : String :=
  "(" ++ " ".intercalate statements ++ ")"

/-- The text of a function definition whose body is given as text. -/
def FunctionDef.renderWith (name : String) (params : List String) (body : String) : String :=
  "(<def>" ++ name ++ "(" ++ " ".intercalate params ++ ")=>" ++ body ++ ")"

mutual

/-- A statement as text. -/
def Stmt.render : Stmt → String
  | .expr value => value.render
  | .branch condition thenBody none _ =>
    "(<if>" ++ condition.render ++ "=>" ++ Program.renderBlock (Stmt.renderAll thenBody) ++ ")"
  | .branch condition thenBody (some elseBody) _ =>
    "(<if>" ++ condition.render ++ "=>" ++ Program.renderBlock (Stmt.renderAll thenBody) ++ "!"
      ++ Program.renderBlock (Stmt.renderAll elseBody) ++ ")"
  | .loop condition body _ =>
    "(<while>" ++ condition.render ++ "=>" ++ Program.renderBlock (Stmt.renderAll body) ++ ")"
  | .ret result _ => "(<return>" ++ result.render ++ ")"
  | .define name params body _ =>
    FunctionDef.renderWith name params (Program.renderBlock (Stmt.renderAll body))

/-- Each statement of a list as text. -/
def Stmt.renderAll : List Stmt → List String
  | [] => []
  | s :: ss => s.render :: Stmt.renderAll ss

end

/-- A program as text: the block of its statements. -/
def Program.render (program : Program) : String :=
  Program.renderBlock (Stmt.renderAll program)

/-- A function definition as text. -/
def FunctionDef.render (f : FunctionDef) : String :=
  FunctionDef.renderWith f.name f.params (Program.renderBlock (Stmt.renderAll f.body))

/-- A list of expressions is rendered one by one. -/
theorem Expr.renderAll_eq_map (es : List Expr) : Expr.renderAll es = es.map Expr.render := by
  induction es with
  | nil => rfl
  | cons e es ih => rw [Expr.renderAll, ih, List.map_cons]

theorem Stmt.renderAll_eq_map (ss : List Stmt) : Stmt.renderAll ss = ss.map Stmt.render := by
  induction ss with
  | nil => rfl
  | cons s ss ih => rw [Stmt.renderAll, ih, List.map_cons]

/-- A definition and the function it defines have the same text. -/
theorem FunctionDef.render_eq (f : FunctionDef) :
    f.render = (Stmt.define f.name f.params f.body f.line).render := by
  rw [FunctionDef.render, Stmt.render]

end Scriptlet
