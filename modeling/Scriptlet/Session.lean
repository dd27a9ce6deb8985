import Scriptlet.Registry.Link

/-!
# Scriptlet — sessions

A session keeps one run open over several steps: variables and functions of one step are there in
the next, also after a step that failed.
-/

namespace Scriptlet

/-- An open run. -/
structure Session (σ : Type) where
  context : Context σ
  state : RunState σ

namespace Session

variable {σ : Type}

/-- A session before its first step. -/
def start (context : Context σ) (world : World σ) : Session σ :=
  ⟨context, .start world⟩

/-- Performs a computation as one step. -/
def perform {α : Type} (session : Session σ) (action : Eval σ α) : Except Stop α × Session σ :=
  match action session.state with
  | .ok a state => (.ok a, { session with state })
  | .error stop state => (.error stop, { session with state })

/-- Parses a source text, logging what the scanner reports. -/
def parse (source : String) : Eval σ Program := fun state =>
  match Program.parse source with
  | .ok program scanner => .ok program { state with world := state.world.reportAll scanner.log }
  | .error stop scanner => .error stop { state with world := state.world.reportAll scanner.log }

/-- Parses and evaluates a source text. -/
def eval (session : Session σ) (source : String) (fuel : Nat) : Except Stop Value × Session σ :=
  session.perform do
    let program ← parse source
    program.eval session.context fuel

/-- Calls a function by name. -/
def call (session : Session σ) (name : String) (args : List Value) (line : Option Nat)
    (fuel : Nat) : Except Stop Value × Session σ :=
  session.perform (session.context.call fuel name args line)

/-- The value of a variable of the main frame. -/
def get (session : Session σ) (name : String) (line : Nat) : Except Fault Value :=
  demandVariable name line (session.state.chain.main.get? name)

/-- Writes a variable of the main frame. -/
def set (session : Session σ) (name : String) (value : Value) : Session σ :=
  let chain := session.state.chain
  { session with
    state := { session.state with chain := { chain with main := chain.main.define name value } } }

/-- The names of the functions defined so far, in the order of their definitions. -/
def functionNames (session : Session σ) : List String :=
  session.state.chain.main.functions.names

end Session

end Scriptlet
