import Scriptlet.Proofs.Lockstep

/-!
# Scriptlet — invariants of a run

An invariant is a property of states that may mention the active calls.
`Invariant` lists what has to be shown of it: that it survives a write, a
definition and any change of the world, and that it passes into a call and out
of it again. No other primitive of evaluation touches a state. Then

* `Invariant.program_guarded`, `Invariant.call_guarded` — the property holds
  whenever an expression, a statement or a call is evaluated: if each of them
  is guarded by a check of it, no check ever fails;
* `Invariant.expr_final`, `Invariant.stmt_final`, `Invariant.block_final`,
  `Invariant.call_final`, `Invariant.program_final` — and it holds again when an
  evaluation ends, be it with a value, with a `return` or with a fault.

A property of the world alone need not survive any change of the world, but
only what a run can do to it: `WorldInvariant`.
-/

namespace Scriptlet

variable {σ α : Type}

/-- Lets an evaluation begin in a state with the property, and does something
else in any other state. -/
def Watch.guard (P : List Activation → RunState σ → Prop) [∀ active, DecidablePred (P active)]
    (alarm : Hook σ) : Watch σ := fun active α m state =>
  if P active state then m state else alarm α m state

/-- What has to be shown of a property to make it an invariant of runs that
allow `maxDepth` active calls. -/
structure Invariant (maxDepth : Nat) (P : List Activation → RunState σ → Prop) : Prop where
  set : ∀ {active s}, P active s → ∀ name value,
    P active { s with chain := s.chain.set name value }
  define : ∀ {active s}, P active s → ∀ {f main}, s.chain.main.defineFunction f = .ok main →
    P active { s with chain := { s.chain with main } }
  world : ∀ {active s}, P active s → ∀ world, P active { s with world }
  enter : ∀ {active s}, P active s → s.depth < maxDepth →
    ∀ (f : FunctionDef) (args : List Value), f.params.length ≤ args.length →
      P (⟨f, args⟩ :: active) (Eval.enter (.ofArguments f.params args) s)
  leave : ∀ {a active s}, P (a :: active) s → P active (Eval.leave s)

namespace Invariant

variable {maxDepth : Nat} {P : List Activation → RunState σ → Prop}

/-- Two runs that are one, with the property in every state. -/
def Same (P : List Activation → RunState σ → Prop) (active : List Activation)
    (s t : RunState σ) : Prop :=
  s = t ∧ P active s

/-- A computation that keeps the property is in lockstep with itself. -/
theorem lockstep_self {escape : Stop → Prop} {active : List Activation} {m : Eval σ α}
    (h : ∀ s, P active s → P active (final (m s))) : Lockstep escape (Same P active) m m := by
  rintro s _ ⟨rfl, hs⟩
  have hFinal := h s hs
  cases hRun : m s with
  | ok a s' =>
    rw [hRun] at hFinal
    exact .ok ⟨rfl, hFinal⟩
  | error stop s' =>
    rw [hRun] at hFinal
    exact .error ⟨rfl, hFinal⟩

/-- And a computation in lockstep with itself keeps the property. -/
theorem final_of_lockstep {active : List Activation} {m : Eval σ α}
    (h : Lockstep (fun _ => False) (Same P active) m m) {s : RunState σ} (hs : P active s) :
    P active (final (m s)) := by
  have hEnd := h s s ⟨rfl, hs⟩
  -- no escape is possible, hence the run ends with itself
  generalize hRun : m s = result at hEnd
  cases hEnd with
  | ok hSame => exact hSame.2
  | error hSame => exact hSame.2
  | escaped hEscape => exact hEscape.elim

/-- A definition keeps an invariant, be it accepted or refused. -/
theorem final_define (h : Invariant maxDepth P) {active : List Activation} (f : FunctionDef)
    {s : RunState σ} (hs : P active s) : P active (final (Eval.define f s)) := by
  unfold Eval.define
  cases hDefine : s.chain.main.defineFunction f with
  | ok main => exact h.define hs hDefine
  | error fault => exact hs

/-- What happens to the world keeps an invariant, whether it succeeds or fails. -/
theorem final_onWorld (h : Invariant maxDepth P) {active : List Activation}
    (action : EStateM Stop (World σ) α) {s : RunState σ} (hs : P active s) :
    P active (final (Eval.onWorld action s)) := by
  unfold Eval.onWorld
  cases action s.world with
  | ok a world => exact h.world hs world
  | error stop world => exact h.world hs world

/-- **An invariant is a simulation of a run by itself**, whatever the guards
would do. -/
theorem simulation {context : Context σ} (h : Invariant context.maxDepth P)
    {watch₁ watch₂ : Watch σ}
    (hWatch : ∀ active α m n, Lockstep (fun _ => False) (Same P active) m n →
      Lockstep (fun _ => False) (Same P active) (watch₁ active α m) (watch₂ active α n)) :
    Simulation (fun _ => False) (fun _ => True) context context watch₁ watch₂ (Same P) where
  get := by
    rintro active s _ ⟨rfl, _⟩ name
    rfl
  set := by
    rintro active s _ ⟨rfl, hs⟩ name value
    exact ⟨rfl, h.set hs name value⟩
  define := fun active f _ => lockstep_self fun s hs => h.final_define f hs
  report := by
    rintro active s _ ⟨rfl, hs⟩ event _
    exact ⟨rfl, h.world hs _⟩
  host := fun hR _ _ _ args line =>
    lockstep_self (fun _ hs => h.final_onWorld _ hs) _ _ hR
  resolve := by
    rintro active s _ ⟨rfl, _⟩ name
    rfl
  body := fun _ _ _ _ _ _ => trivial
  depth := by
    rintro active s _ ⟨rfl, _⟩
    rfl
  limit := Or.inl rfl
  enter := by
    rintro active s _ ⟨rfl, hs⟩ hDepth f args hArgs
    exact ⟨rfl, h.enter hs hDepth f args hArgs⟩
  leave := by
    rintro a active s _ ⟨rfl, hs⟩
    exact ⟨rfl, h.leave hs⟩
  watch := hWatch

/-- Without a watch. -/
theorem simulation_idle {context : Context σ} (h : Invariant context.maxDepth P) :
    Simulation (fun _ => False) (fun _ => True) context context Watch.idle Watch.idle (Same P) :=
  h.simulation fun _ _ _ _ hLockstep => hLockstep

/-- With guards in the first run. -/
theorem simulation_guarded [∀ active, DecidablePred (P active)] {context : Context σ}
    (h : Invariant context.maxDepth P) (alarm : Hook σ) :
    Simulation (fun _ => False) (fun _ => True) context context (Watch.guard P alarm) Watch.idle
      (Same P) := by
  refine h.simulation fun active α m n hLockstep => ?_
  rintro s t ⟨hSame, hs⟩
  have hGuard : Watch.guard P alarm active α m s = m s := if_pos hs
  rw [hGuard]
  exact hLockstep s t ⟨hSame, hs⟩

-- ---------------------------------------------------------------------------
-- Whenever an evaluation begins
-- ---------------------------------------------------------------------------

/-- Runs in lockstep that cannot escape end in the same way. -/
theorem eq_of_lockstep {active : List Activation} {m n : Eval σ α}
    (h : Lockstep (fun _ => False) (Same P active) m n) {s : RunState σ} (hs : P active s) :
    m s = n s := by
  have hEnd := h s s ⟨rfl, hs⟩
  generalize m s = end₁ at hEnd
  generalize n s = end₂ at hEnd
  cases hEnd with
  | ok hSame => rw [hSame.1]
  | error hSame => rw [hSame.1]
  | escaped hEscape => exact hEscape.elim

section Guarded

variable [∀ active, DecidablePred (P active)] {context : Context σ}

/-- **No guard of a program is ever set off** if the property holds at the
start. -/
theorem program_guarded (h : Invariant context.maxDepth P) (alarm : Hook σ) (fuel : Nat)
    (program : Program) {s : RunState σ} (hs : P [] s) :
    program.evalWith context (.guard P alarm) fuel s = program.eval context fuel s := by
  have hLockstep := Program.evalWith_lockstep (h.simulation_guarded alarm) (.refl fuel) program
    (fun f _ => trivial)
  exact eq_of_lockstep hLockstep hs

/-- **No guard of a call is ever set off**, wherever the call is made. -/
theorem call_guarded (h : Invariant context.maxDepth P) (alarm : Hook σ) (fuel : Nat)
    (active : List Activation) (name : String) (args : List Value) (line : Option Nat)
    {s : RunState σ} (hs : P active s) :
    context.callWith (.guard P alarm) fuel active name args line s =
      context.call fuel name args line s := by
  have hLockstep := Context.callWith_lockstep (h.simulation_guarded alarm) (.refl fuel) active
    name args line
  rw [Context.callWith_idle] at hLockstep
  exact eq_of_lockstep hLockstep hs

end Guarded

-- ---------------------------------------------------------------------------
-- However an evaluation ends
-- ---------------------------------------------------------------------------

section Final

variable {context : Context σ} {active : List Activation} {s : RunState σ}

/-- Expressions are evaluated in lockstep with themselves, at any depth of
active calls. -/
theorem exprs_idle (h : Invariant context.maxDepth P) (fuel : Nat) (active : List Activation) :
    ExprSimulation (fun _ => False) (Same P active) (context.call fuel) (context.call fuel) := by
  have hCall := Context.callWith_lockstep h.simulation_idle (.refl fuel) active
  rw [Context.callWith_idle] at hCall
  exact h.simulation_idle.exprs hCall

/-- A call keeps an invariant, however it ends. -/
theorem call_final (h : Invariant context.maxDepth P) (fuel : Nat) (name : String)
    (args : List Value) (line : Option Nat) (hs : P active s) :
    P active (final (context.call fuel name args line s)) :=
  final_of_lockstep ((h.exprs_idle fuel active).call name args line) hs

/-- The evaluation of an expression keeps an invariant. -/
theorem expr_final (h : Invariant context.maxDepth P) (fuel : Nat) (e : Expr) (hs : P active s) :
    P active (final (e.eval (context.call fuel) s)) := by
  exact final_of_lockstep (Expr.eval_lockstep (h.exprs_idle fuel active) e) hs

/-- The execution of a statement keeps an invariant. -/
theorem stmt_final (h : Invariant context.maxDepth P) (fuel : Nat) (statement : Stmt)
    (hs : P active s) : P active (final (statement.exec (context.call fuel) fuel s)) := by
  have hLockstep := Stmt.exec_lockstep (h.exprs_idle fuel active) (.refl fuel) statement
    fun f _ => lockstep_self fun s hs => h.final_define f hs
  exact final_of_lockstep hLockstep hs

/-- The execution of a block keeps an invariant. -/
theorem block_final (h : Invariant context.maxDepth P) (fuel : Nat) (last : Value)
    (statements : List Stmt) (hs : P active s) :
    P active (final (Stmt.execAll (context.call fuel) fuel last statements s)) := by
  have hLockstep := Stmt.execAll_lockstep (h.exprs_idle fuel active) (.refl fuel) last
    statements fun f _ => lockstep_self fun s hs => h.final_define f hs
  exact final_of_lockstep hLockstep hs

/-- A program keeps an invariant. -/
theorem program_final (h : Invariant context.maxDepth P) (fuel : Nat) (program : Program)
    (hs : P [] s) : P [] (final (program.eval context fuel s)) := by
  have hLockstep := Program.evalWith_lockstep h.simulation_idle (.refl fuel) program
    fun _ _ => trivial
  exact final_of_lockstep hLockstep hs

end Final

end Invariant

-- ---------------------------------------------------------------------------
-- The world
-- ---------------------------------------------------------------------------

/-- What has to be shown of a property of the world. A run reports nothing but
traces, and it calls only host functions that some name stands for. -/
structure WorldInvariant (context : Context σ) (Q : World σ → Prop) : Prop where
  report : ∀ {world}, Q world → ∀ event : Event, event.level = .trace → Q (world.report event)
  host : ∀ {world}, Q world → ∀ {own name f}, context.resolve own name = some (.host f) →
    ∀ args line, Q (final (f.invoke args line world))

namespace WorldInvariant

variable {context : Context σ} {Q : World σ → Prop}

/-- Nothing else that a run does touches the world. -/
theorem simulation (h : WorldInvariant context Q) :
    Simulation (fun _ => False) (fun _ => True) context context Watch.idle Watch.idle
      (Invariant.Same fun _ s => Q s.world) where
  get := by
    rintro active s _ ⟨rfl, _⟩ name
    rfl
  set := by
    rintro active s _ ⟨rfl, hs⟩ name value
    exact ⟨rfl, hs⟩
  define := by
    intro active f _
    refine Invariant.lockstep_self fun s hs => ?_
    unfold Eval.define
    cases s.chain.main.defineFunction f <;> exact hs
  report := by
    rintro active s _ ⟨rfl, hs⟩ event hTrace
    exact ⟨rfl, h.report hs event hTrace⟩
  host := by
    rintro active s _ ⟨rfl, hs⟩ name f hHost args line
    -- the world is all that a host function is given
    have hWorld := h.host hs hHost args line
    unfold Eval.onWorld
    revert hWorld
    cases f.invoke args line s.world with
    | ok value world => exact fun hWorld => .ok ⟨rfl, hWorld⟩
    | error stop world => exact fun hWorld => .error ⟨rfl, hWorld⟩
  resolve := by
    rintro active s _ ⟨rfl, _⟩ name
    rfl
  body := fun _ _ _ _ _ _ => trivial
  depth := by
    rintro active s _ ⟨rfl, _⟩
    rfl
  limit := Or.inl rfl
  enter := by
    rintro active s _ ⟨rfl, hs⟩ _ f args _
    exact ⟨rfl, hs⟩
  leave := by
    rintro a active s _ ⟨rfl, hs⟩
    exact ⟨rfl, hs⟩
  watch := fun _ _ _ _ hLockstep => hLockstep

/-- A program keeps an invariant of the world. -/
theorem program_final (h : WorldInvariant context Q) (fuel : Nat) (program : Program)
    {s : RunState σ} (hs : Q s.world) : Q (final (program.eval context fuel s)).world := by
  have hLockstep := Program.evalWith_lockstep h.simulation (.refl fuel) program
    fun _ _ => trivial
  exact Invariant.final_of_lockstep hLockstep hs

/-- A call keeps an invariant of the world. -/
theorem call_final (h : WorldInvariant context Q) (fuel : Nat) (name : String)
    (args : List Value) (line : Option Nat) {s : RunState σ} (hs : Q s.world) :
    Q (final (context.call fuel name args line s)).world := by
  have hLockstep := Context.callWith_lockstep h.simulation (.refl fuel) [] name args line
  rw [Context.callWith_idle] at hLockstep
  exact Invariant.final_of_lockstep hLockstep hs

end WorldInvariant

end Scriptlet
