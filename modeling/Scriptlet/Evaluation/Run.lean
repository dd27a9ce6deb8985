import Scriptlet.Evaluation.Postfix
import Scriptlet.Evaluation.State
import Scriptlet.Registry
import Scriptlet.Tree.Render
import Scriptlet.Value.Binary

/-!
# Scriptlet — evaluation

Expressions and statements are evaluated by recursion on the tree. What a call by name does is a
parameter, `call`, so this part knows nothing of functions; `Context.callWith` ties the knot. Fuel
bounds the two things that the tree does not: the rounds of a loop and the nesting of calls.

A block has the value of its last statement that has one, and zero if none does. A `return` ends
every block around it up to the enclosing function, or the program.

What holds *whenever* something is evaluated cannot be read off the end of a run. So there is a
place to stand in an evaluation: a `Watch` is told which calls are active and gets every evaluation
of an expression, of a statement and of a call by name into its hands before it begins. It may look
at the state, and it may do something else instead. A script runs while nobody watches.
-/

namespace Scriptlet

/-- How a function is called by name: with its arguments, and with the line of the call if the call
is written in a script. -/
abbrev Caller (σ : Type) := String → List Value → Option Nat → Eval σ Value

/-- What is done around an evaluation. -/
abbrev Hook (σ : Type) := (α : Type) → Eval σ α → Eval σ α

/-- What the evaluation of a tree finds around it: what a call by name does, and what is done around
every expression and every statement. -/
structure Setting (σ : Type) where
  call : Caller σ
  around : Hook σ

variable {σ : Type}

/-- Nothing is done around an evaluation. -/
def Hook.idle : Hook σ := fun _ m => m

/-- Where only the calls are given, nothing is done around an evaluation. -/
instance : Coe (Caller σ) (Setting σ) where
  coe call := ⟨call, .idle⟩

/-- Where only the calls are given, an evaluation is what it was. -/
@[simp]
theorem Setting.around_idle {α : Type} (call : Caller σ) (m : Eval σ α) :
    (call : Setting σ).around α m = m :=
  rfl

-- ---------------------------------------------------------------------------
-- Expressions
-- ---------------------------------------------------------------------------

/-- The fault of an expression whose operands and operators do not alternate. -/
def Expr.malformed (e : Expr) : Eval σ Value := fun state =>
  .error (.fault (.at (.malformedExpression e.render) e.line)) state

/-- Writes the result of an expression to its target, if it has one. -/
def Eval.assign (target : Option String) (result : Value) : Eval σ Unit :=
  match target with
  | some name => Eval.write name result
  | none => pure ()

mutual

/-- Evaluates an operand. -/
def Operand.eval (setting : Setting σ) : Operand → Eval σ Value
  | .ident name line => Eval.read name line
  | .number value => pure (.int value)
  | .text content => pure (.text content)
  | .call callee args line => do
    let values ← Expr.evalAll setting args
    setting.call callee values (some line)
  | .group inner => inner.eval setting

/-- Evaluates an expression: its operands from left to right, each operator as soon as both sides
are there, and at the end the assignment. -/
def Expr.eval (setting : Setting σ) : Expr → Eval σ Value
  | ⟨target, first, rest, line⟩ => setting.around Value do
    let items := Postfix.ofTerms (first.eval setting) (Expr.terms setting rest)
    let result ← Postfix.fold (fun op lhs rhs => Eval.atLine line (op.apply lhs rhs))
      (Expr.malformed ⟨target, first, rest, line⟩) [] items
    Eval.assign target result
    return result

/-- Evaluates expressions from left to right. -/
def Expr.evalAll (setting : Setting σ) : List Expr → Eval σ (List Value)
  | [] => pure []
  | e :: es => do
    let value ← e.eval setting
    let values ← Expr.evalAll setting es
    return value :: values

/-- The operators of an expression, each with the evaluation of the operand after it. -/
def Expr.terms (setting : Setting σ) : List (Operator × Operand) → List (Operator × Eval σ Value)
  | [] => []
  | (op, operand) :: rest => (op, operand.eval setting) :: Expr.terms setting rest

end

-- ---------------------------------------------------------------------------
-- Statements
-- ---------------------------------------------------------------------------

/-- Repeats `body` while `condition` holds. The loop has the value of the last round that has one,
and `last` before the first. -/
def Eval.repeatWhile (condition : Eval σ Bool) (body : Eval σ Flow) : Nat → Value → Eval σ Flow
  | 0, _ => throw .outOfFuel
  | fuel + 1, last => do
    if ← condition then
      match ← body with
      | .next => Eval.repeatWhile condition body fuel last
      | .value v => Eval.repeatWhile condition body fuel v
      | .ret v => return .ret v
    else return .value last

/-- Evaluates a condition. -/
def Expr.holds (setting : Setting σ) (condition : Expr) : Eval σ Bool := do
  let value ← condition.eval setting
  Eval.holds value condition.line

mutual

/-- Executes a statement. -/
def Stmt.exec (setting : Setting σ) (fuel : Nat) : Stmt → Eval σ Flow
  | .expr value => setting.around Flow do return .value (← value.eval setting)
  | .branch condition thenBody none _ => setting.around Flow do
    if ← condition.holds setting then Stmt.execAll setting fuel .zero thenBody
    else return .value .zero
  | .branch condition thenBody (some elseBody) _ => setting.around Flow do
    if ← condition.holds setting then Stmt.execAll setting fuel .zero thenBody
    else Stmt.execAll setting fuel .zero elseBody
  | .loop condition body _ => setting.around Flow <|
    Eval.repeatWhile (condition.holds setting) (Stmt.execAll setting fuel .zero body) fuel .zero
  | .ret result _ => setting.around Flow do return .ret (← result.eval setting)
  | .define name params body line => setting.around Flow do
    Eval.define ⟨name, params, body, line⟩
    return .next

/-- Executes the statements of a block, whose value so far is `last`. -/
def Stmt.execAll (setting : Setting σ) (fuel : Nat) (last : Value) : List Stmt → Eval σ Flow
  | [] => return .value last
  | s :: ss => do
    match ← s.exec setting fuel with
    | .next => Stmt.execAll setting fuel last ss
    | .value v => Stmt.execAll setting fuel v ss
    | .ret v => return .ret v

end

-- ---------------------------------------------------------------------------
-- Calls
-- ---------------------------------------------------------------------------

/-- Calls a script function whose body is given as a computation. Missing arguments are a fault,
and so is a call beyond the limit; the former is reported first. -/
def FunctionDef.call (f : FunctionDef) (maxDepth : Nat) (body : Eval σ Flow) (args : List Value)
    (line : Option Nat) : Eval σ Value := do
  if args.length < f.params.length then
    Eval.fail (.tooFewArguments f.name f.params f.line args.length) line
  else
    let depth := (← get).depth
    if maxDepth ≤ depth then Eval.fail (.callDepth maxDepth f.name) line
    else
      Eval.report (.callingScript f.name depth)
      let flow ← Eval.inFrame (.ofArguments f.params args) body
      return flow.result

/-- A call of a script function that has not ended. -/
structure Activation where
  f : FunctionDef
  args : List Value

/-- What is done around the evaluations inside the given active calls, the innermost first. -/
abbrev Watch (σ : Type) := List Activation → Hook σ

/-- Nobody watches. -/
def Watch.idle : Watch σ := fun _ => .idle

/-- Calls a function by name while the given calls are active. What is evaluated in the body of a
script function is watched as inside one more call. -/
def Context.callWith (context : Context σ) (watch : Watch σ) : Nat → List Activation → Caller σ
  | 0, active, _, _, _ => watch active Value (throw .outOfFuel)
  | fuel + 1, active, name, args, line => watch active Value do
    match context.resolve (← get).chain.main.functions name with
    | some (.script f) =>
      let inside := ⟨f, args⟩ :: active
      let setting := ⟨context.callWith watch fuel inside, watch inside⟩
      f.call context.maxDepth (Stmt.execAll setting fuel .zero f.body) args line
    | some (.host f) =>
      Eval.report (.callingHost f.name)
      Eval.onWorld (f.invoke args line)
    | none => Eval.fail (.undefinedFunction name) line

/-- Calls a function by name. -/
def Context.call (context : Context σ) (fuel : Nat) : Caller σ :=
  context.callWith .idle fuel []

/-- Evaluates the statements of a program under a watch. -/
def Program.evalWith (program : Program) (context : Context σ) (watch : Watch σ) (fuel : Nat) :
    Eval σ Value := do
  let flow ← Stmt.execAll ⟨context.callWith watch fuel [], watch []⟩ fuel .zero program
  return flow.result

/-- Evaluates the statements of a program. -/
def Program.eval (program : Program) (context : Context σ) (fuel : Nat) : Eval σ Value :=
  program.evalWith context .idle fuel

/-- A program runs as the list of its statements, and ends with the value that
they leave. -/
theorem Program.eval_eq_execAll (program : Program) (context : Context σ) (fuel : Nat) :
    program.eval context fuel = do
      let flow ← Stmt.execAll (context.call fuel) fuel .zero program
      return flow.result :=
  rfl

/-- While nobody watches, it does not matter which calls are active. -/
theorem Context.callWith_idle (context : Context σ) (fuel : Nat) (active : List Activation) :
    context.callWith .idle fuel active = context.call fuel := by
  -- both lists of active calls are arbitrary, since each call adds itself to the list
  rw [call]
  generalize ([] : List Activation) = active'
  -- induction on the fuel, of which each call takes one
  induction fuel generalizing active active' with
  | zero => rfl
  | succ fuel ih =>
    funext name args line
    rw [callWith, callWith]
    refine bind_congr fun state => ?_
    cases context.resolve state.chain.main.functions name with
    | none => rfl
    | some callee =>
      cases callee with
      | host f => rfl
      | script f =>
        have hInside := ih (⟨f, args⟩ :: active) (⟨f, args⟩ :: active')
        simp only [hInside]
        rfl

/-- With fuel, a call by name does what the function of that name says. -/
theorem Context.call_succ (context : Context σ) (fuel : Nat) (name : String) (args : List Value)
    (line : Option Nat) (state : RunState σ) :
    context.call (fuel + 1) name args line state =
      (match context.resolve state.chain.main.functions name with
        | some (.script f) =>
          f.call context.maxDepth (Stmt.execAll (context.call fuel) fuel .zero f.body) args line
        | some (.host f) => do
          Eval.report (.callingHost f.name)
          Eval.onWorld (f.invoke args line)
        | none => Eval.fail (.undefinedFunction name) line) state := by
  rw [call, callWith]
  simp only [callWith_idle]
  rfl

end Scriptlet
