import Scriptlet.Frame
import Scriptlet.Host
import Scriptlet.Value.Binary

/-!
# Scriptlet — the state of a run

A run has the chain of its frames, the number of active calls, and the world around it. `Eval` is a
computation on that state which may stop early; what it did before it stopped stays done. The
primitives here are all that the evaluator uses: variables, faults, the log, the world, and running
a body in the frame of a call.
-/

namespace Scriptlet

/-- The state of a run. -/
structure RunState (σ : Type) where
  chain : Chain
  /-- The number of active calls. -/
  depth : Nat
  world : World σ

/-- The state in which a program starts. -/
def RunState.start {σ : Type} (world : World σ) : RunState σ := ⟨.start, 0, world⟩

/-- A computation of a run. -/
abbrev Eval (σ : Type) := EStateM Stop (RunState σ)

/-- How a statement ends. -/
inductive Flow where
  /-- The next statement follows, and the block keeps the value it has. -/
  | next
  /-- The next statement follows, and the block has this value. -/
  | value (v : Value)
  /-- The enclosing function, or the program, ends with this value. -/
  | ret (v : Value)
deriving DecidableEq, Repr

/-- The value of a function body or a program that ends in this way. -/
def Flow.result : Flow → Value
  | next => .zero
  | value v => v
  | ret v => v

namespace Eval

variable {σ α : Type}

/-- Stops with a fault. -/
def fail (cause : Cause) (line : Option Nat) : Eval σ α :=
  throw (.fault ⟨cause, line⟩)

/-- The result of an operation on values; its faults belong to the given line. -/
def atLine (line : Nat) : Except Cause α → Eval σ α
  | .ok a => pure a
  | .error cause => fail cause (some line)

/-- Adds an event to the log. -/
def report (event : Event) : Eval σ Unit :=
  modify fun state => { state with world := state.world.report event }

/-- Runs a computation on the world. -/
def onWorld (action : EStateM Stop (World σ) α) : Eval σ α := fun state =>
  match action state.world with
  | .ok a world => .ok a { state with world }
  | .error stop world => .error stop { state with world }

/-- Reads a variable. -/
def read (name : String) (line : Nat) : Eval σ Value := do
  match demandVariable name line ((← get).chain.get? name) with
  | .ok value => return value
  | .error fault => throw (.fault fault)

/-- Writes a variable. -/
def write (name : String) (value : Value) : Eval σ Unit :=
  modify fun state => { state with chain := state.chain.set name value }

/-- Adds a function to the program's own functions. -/
def define (f : FunctionDef) : Eval σ Unit := fun state =>
  match state.chain.main.defineFunction f with
  | .ok main => .ok () { state with chain := { state.chain with main } }
  | .error fault => .error (.fault fault) state

/-- Whether a value holds as a condition on the given line. -/
def holds (value : Value) (line : Nat) : Eval σ Bool :=
  atLine line value.truth

/-- The state inside a new call. -/
def enter (frame : Frame) (state : RunState σ) : RunState σ :=
  { state with chain := state.chain.enter frame, depth := state.depth + 1 }

/-- The state after the innermost call. -/
def leave (state : RunState σ) : RunState σ :=
  { state with chain := state.chain.leave, depth := state.depth - 1 }

/-- Runs a computation in the frame of a new call. The call is over however the computation
ends. -/
def inFrame (frame : Frame) (body : Eval σ α) : Eval σ α := fun state =>
  match body (enter frame state) with
  | .ok a state => .ok a (leave state)
  | .error stop state => .error stop (leave state)

end Eval

end Scriptlet
