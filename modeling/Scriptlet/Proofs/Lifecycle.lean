import Scriptlet.Proofs.Stepwise

/-!
# Scriptlet — the life of a script

A script is compiled, run and linked, in any order and with any success. Its
tree is there once a compilation has succeeded, and it is the tree of its text
from then on. Its functions are those of its most recent run, if that run
succeeded: the ones defined at the top level before the first statement that
returned. Nothing else in a run touches the table of functions, since the
grammar has definitions at the top level only.

* `TableInvariant` — properties of the program's own functions that survive a
  run, given which functions it may define;
* `Stmt.execAll_functions` — the functions that the statements of a program
  leave behind;
* `Script.Life` — a script together with what has happened to it;
* `Script.functions_are_those_of_last_run` — the main result.
-/

namespace Scriptlet

variable {σ : Type}

-- ---------------------------------------------------------------------------
-- The program's own functions during a run
-- ---------------------------------------------------------------------------

/-- What has to be shown of a property of the program's own functions, if only
functions that are `allowed` can be defined. -/
structure TableInvariant (context : Context σ) (allowed : FunctionDef → Prop)
    (Q : Table FunctionDef → Prop) : Prop where
  define : ∀ {table}, Q table → ∀ {f}, allowed f → table.contains f.name = false →
    Q (table.insert f.name f)
  body : ∀ {table}, Q table → ∀ {name f}, context.resolve table name = some (.script f) →
    ∀ g ∈ Stmt.definitionsAll f.body, allowed g

namespace TableInvariant

variable {context : Context σ} {allowed : FunctionDef → Prop} {Q : Table FunctionDef → Prop}

/-- A definition that is allowed keeps the property, be it accepted or refused. -/
theorem final_define (h : TableInvariant context allowed Q) {f : FunctionDef} (hf : allowed f)
    {s : RunState σ} (hs : Q s.chain.main.functions) :
    Q (final (Eval.define f s)).chain.main.functions := by
  unfold Eval.define Frame.defineFunction
  cases hContains : s.chain.main.functions.contains f.name with
  | true => exact hs
  | false => exact h.define hs hf hContains

/-- Nothing but a definition touches the program's own functions. -/
theorem simulation (h : TableInvariant context allowed Q) {watch₁ watch₂ : Watch σ}
    (hWatch : ∀ active α m n,
      Lockstep (fun _ => False) (Invariant.Same (fun _ s => Q s.chain.main.functions) active) m n →
      Lockstep (fun _ => False) (Invariant.Same (fun _ s => Q s.chain.main.functions) active)
        (watch₁ active α m) (watch₂ active α n)) :
    Simulation (fun _ => False) allowed context context watch₁ watch₂
      (Invariant.Same fun _ s => Q s.chain.main.functions) where
  get := by
    rintro active s _ ⟨rfl, _⟩ name
    rfl
  set := by
    rintro active s _ ⟨rfl, hs⟩ name value
    refine ⟨rfl, ?_⟩
    show Q (s.chain.set name value).main.functions
    rw [Chain.functions_set]
    exact hs
  define := fun _ f hf => Invariant.lockstep_self fun _ hs => h.final_define hf hs
  report := by
    rintro active s _ ⟨rfl, hs⟩ event _
    exact ⟨rfl, hs⟩
  host := by
    rintro active s _ ⟨rfl, hs⟩ name f _ args line
    unfold Eval.onWorld
    cases f.invoke args line s.world with
    | ok value world => exact .ok ⟨rfl, hs⟩
    | error stop world => exact .error ⟨rfl, hs⟩
  resolve := by
    rintro active s _ ⟨rfl, _⟩ name
    rfl
  body := by
    rintro active s _ ⟨rfl, hs⟩ name f hf
    exact h.body hs hf
  depth := by
    rintro active s _ ⟨rfl, _⟩
    rfl
  limit := Or.inl rfl
  enter := by
    rintro active s _ ⟨rfl, hs⟩ _ f args _
    exact ⟨rfl, hs⟩
  leave := by
    rintro a active s _ ⟨rfl, hs⟩
    exact ⟨rfl, hs⟩
  watch := hWatch

/-- Also if nothing is watched. -/
theorem simulation_idle (h : TableInvariant context allowed Q) :
    Simulation (fun _ => False) allowed context context Watch.idle Watch.idle
      (Invariant.Same fun _ s => Q s.chain.main.functions) :=
  h.simulation fun _ _ _ _ hLockstep => hLockstep

/-- Expressions keep the property, as they define nothing but by calls. -/
theorem exprs_idle (h : TableInvariant context allowed Q) (fuel : Nat) :
    ExprSimulation (σ := σ) (fun _ => False)
      (Invariant.Same (fun _ s => Q s.chain.main.functions) []) (context.call fuel)
      (context.call fuel) :=
  h.simulation_idle.exprs (Context.callWith_lockstep h.simulation_idle (.refl fuel) [])

/-- A call keeps the property. -/
theorem call_final (h : TableInvariant context allowed Q) (fuel : Nat) (name : String)
    (args : List Value) (line : Option Nat) {s : RunState σ} (hs : Q s.chain.main.functions) :
    Q (final (context.call fuel name args line s)).chain.main.functions :=
  Invariant.final_of_lockstep ((h.exprs_idle fuel).call name args line) hs

/-- The evaluation of an expression keeps the property. -/
theorem expr_final (h : TableInvariant context allowed Q) (fuel : Nat) (e : Expr)
    {s : RunState σ} (hs : Q s.chain.main.functions) :
    Q (final (e.eval (context.call fuel) s)).chain.main.functions := by
  exact Invariant.final_of_lockstep (Expr.eval_lockstep (h.exprs_idle fuel) e) hs

/-- A statement whose definitions are allowed keeps the property. -/
theorem stmt_final (h : TableInvariant context allowed Q) (fuel : Nat) {statement : Stmt}
    (hAllowed : ∀ f ∈ statement.definitions, allowed f) {s : RunState σ}
    (hs : Q s.chain.main.functions) :
    Q (final (statement.exec (context.call fuel) fuel s)).chain.main.functions := by
  have hLockstep := Stmt.exec_lockstep (h.exprs_idle fuel) (.refl fuel) statement
    fun f hf => h.simulation_idle.define [] f (hAllowed f hf)
  exact Invariant.final_of_lockstep hLockstep hs

/-- **No guard of a program is ever set off** if the property holds at the
start. -/
theorem program_guarded [DecidablePred Q] (h : TableInvariant context allowed Q) (alarm : Hook σ)
    (fuel : Nat) {program : Program} (hAllowed : ∀ f ∈ Stmt.definitionsAll program, allowed f)
    {s : RunState σ} (hs : Q s.chain.main.functions) :
    program.evalWith context (.guard (fun _ s => Q s.chain.main.functions) alarm) fuel s =
      program.eval context fuel s := by
  -- a guard that holds lets everything pass
  have hGuarded : ∀ active α (m n : Eval σ α),
      Lockstep (fun _ => False) (Invariant.Same (fun _ s => Q s.chain.main.functions) active) m n →
      Lockstep (fun _ => False) (Invariant.Same (fun _ s => Q s.chain.main.functions) active)
        (Watch.guard (fun _ s => Q s.chain.main.functions) alarm active α m)
        (Watch.idle active α n) := by
    rintro active α m n hLockstep s t ⟨hSame, hs⟩
    rw [show Watch.guard (fun _ s => Q s.chain.main.functions) alarm active α m s = m s from
      if_pos hs]
    exact hLockstep s t ⟨hSame, hs⟩
  have hLockstep := Program.evalWith_lockstep (h.simulation hGuarded) (.refl fuel) program hAllowed
  exact Invariant.eq_of_lockstep (P := fun _ s => Q s.chain.main.functions) hLockstep hs

end TableInvariant

-- ---------------------------------------------------------------------------
-- Definitions at the top level only
-- ---------------------------------------------------------------------------

/-- Every script function that can be called has the property, if these are the
program's own functions. -/
def Context.Calls (context : Context σ) (Q : FunctionDef → Prop) (own : Table FunctionDef) : Prop :=
  ∀ name f, context.resolve own name = some (.script f) → Q f

namespace Context.Calls

variable {context : Context σ} {Q : FunctionDef → Prop} {own : Table FunctionDef}

/-- What holds of the program's own functions and of all others holds of all
that can be called. -/
theorem of_shared (hShared : ∀ name f, context.shared name = some (.script f) → Q f)
    (hOwn : ∀ entry ∈ own.entries, Q entry.2) : context.Calls Q own := by
  intro name f hf
  unfold Context.resolve at hf
  cases hFind : own.find? name with
  | some g =>
    rw [hFind] at hf
    cases hf
    exact hOwn _ (Table.mem_of_find? hFind)
  | none =>
    rw [hFind] at hf
    exact hShared name f hf

/-- What holds of the functions that can be called holds of them and a new one. -/
theorem insert (h : context.Calls Q own) {g : FunctionDef} (hg : Q g) :
    context.Calls Q (own.insert g.name g) := by
  intro name f hf
  unfold Context.resolve at hf
  rw [Table.find?_insert] at hf
  by_cases hSame : name = g.name
  · rw [if_pos (by simpa using hSame)] at hf
    cases hf
    exact hg
  · rw [if_neg (by simpa using hSame)] at hf
    exact h name f hf

end Context.Calls

/-- No function that can be called defines another when it is run, if these are
the program's own functions. -/
def Context.Settled (context : Context σ) (own : Table FunctionDef) : Prop :=
  context.Calls FunctionDef.Flat own

/-- If all functions known outside of a program are flat, and its own are, the
functions that can be called are settled. -/
theorem Context.Flat.settled {context : Context σ} (h : context.Flat) {own : Table FunctionDef}
    (hOwn : own.Flat) : context.Settled own :=
  .of_shared h hOwn

/-- **The functions that can be called stay settled** as long as only flat ones
are defined. -/
theorem TableInvariant.settled (context : Context σ) :
    TableInvariant context FunctionDef.Flat context.Settled where
  define := fun h _ hf _ => Context.Calls.insert h hf
  body := by
    intro table h name f hf g hg
    have hFlat : Stmt.definitionsAll f.body = [] := h name f hf
    rw [hFlat] at hg
    cases hg

/-- **A run that defines nothing leaves the functions as they are.** -/
theorem TableInvariant.unchanged {context : Context σ} {own : Table FunctionDef}
    (h : context.Settled own) : TableInvariant context (fun _ => False) (· = own) where
  define := fun _ _ hf => hf.elim
  body := by
    rintro table rfl name f hf g hg
    have hFlat : Stmt.definitionsAll f.body = [] := h name f hf
    rw [hFlat] at hg
    cases hg

/-- The statement stands in the block, at any depth of `if` and `while`. -/
inductive Stmt.Within (s : Stmt) : List Stmt → Prop
  | here {ss : List Stmt} (h : s ∈ ss) : Stmt.Within s ss
  | thenBody {condition : Expr} {body : List Stmt} {other : Option (List Stmt)} {line : Nat}
    {ss : List Stmt} (h : Stmt.Within s body) (hMem : .branch condition body other line ∈ ss) :
    Stmt.Within s ss
  | elseBody {condition : Expr} {body other : List Stmt} {line : Nat} {ss : List Stmt}
    (h : Stmt.Within s other) (hMem : .branch condition body (some other) line ∈ ss) :
    Stmt.Within s ss
  | loopBody {condition : Expr} {body : List Stmt} {line : Nat} {ss : List Stmt}
    (h : Stmt.Within s body) (hMem : .loop condition body line ∈ ss) : Stmt.Within s ss

/-- Statements of a block that defines nothing define nothing. -/
theorem Stmt.definitions_of_mem {s : Stmt} {ss : List Stmt} (h : Stmt.definitionsAll ss = [])
    (hMem : s ∈ ss) : s.definitions = [] := by
  refine List.eq_nil_iff_forall_not_mem.mpr fun f hf => ?_
  have hAll := Stmt.mem_definitionsAll.mpr ⟨s, hMem, hf⟩
  rw [h] at hAll
  cases hAll

/-- If only definitions define anything in a block, then at any depth only they
do. -/
theorem Stmt.Within.definitions_eq_nil {s : Stmt} {ss : List Stmt} (h : s.Within ss)
    (hPlain : s.isDefinition = false)
    (hNone : ∀ t ∈ ss, t.isDefinition = false → t.definitions = []) : s.definitions = [] := by
  have hBody : ∀ {body : List Stmt}, Stmt.definitionsAll body = [] →
      ∀ t ∈ body, t.isDefinition = false → t.definitions = [] :=
    fun hAll t hMem _ => Stmt.definitions_of_mem hAll hMem
  -- outside in: the block of an `if` or `while` defines nothing, since the statement does not
  induction h with
  | here hMem => exact hNone s hMem hPlain
  | @thenBody condition body other line ss _ hMem ih =>
    have hBranch := hNone _ hMem rfl
    cases other with
    | none => exact ih (hBody hBranch)
    | some other => exact ih (hBody (List.append_eq_nil_iff.mp hBranch).1)
  | elseBody _ hMem ih =>
    have hBranch := hNone _ hMem rfl
    exact ih (hBody (List.append_eq_nil_iff.mp hBranch).2)
  | loopBody _ hMem ih => exact ih (hBody (hNone _ hMem rfl))

/-- In a flat program only definitions define anything. -/
theorem Program.Flat.definitions_of_mem {program : Program} (h : program.Flat) {s : Stmt}
    (hMem : s ∈ program) (hPlain : s.isDefinition = false) : s.definitions = [] := by
  rcases h s hMem with hNone | ⟨_, f, _, rfl⟩
  · exact hNone
  · cases hPlain

-- ---------------------------------------------------------------------------
-- The functions that a program leaves behind
-- ---------------------------------------------------------------------------

/-- The function that the statement defines, if it is a definition. -/
def Stmt.defined? : Stmt → Option FunctionDef
  | .define name params body line => some ⟨name, params, body, line⟩
  | _ => none

/-- The functions that are defined at the top level, in order. -/
def Program.defined (program : Program) : List FunctionDef :=
  program.filterMap Stmt.defined?

/-- What defines nothing is no definition. -/
theorem Stmt.defined?_of_definitions {s : Stmt} (h : s.definitions = []) : s.defined? = none := by
  cases s with
  | define name params body line => cases h
  | _ => rfl

/-- A function is defined only under a new name, which goes last. -/
theorem Eval.entries_of_define {f : FunctionDef} {s t : RunState σ} {u : Unit}
    (h : Eval.define f s = .ok u t) :
    t.chain.main.functions.entries = s.chain.main.functions.entries ++ [(f.name, f)] := by
  cases hFind : s.chain.main.functions.find? f.name with
  | none =>
    rw [Eval.define_new hFind] at h
    cases h
    rfl
  | some g =>
    have hContains : s.chain.main.functions.contains f.name = true := by
      rw [Table.contains, hFind, Option.isSome_some]
    unfold Eval.define Frame.defineFunction at h
    rw [if_pos hContains] at h
    cases h

section TopLevel

variable {context : Context σ} {fuel : Nat} {s t : RunState σ} {flow : Flow}

/-- **One statement at the top level** adds the function that it defines, if it
is a definition, and leaves the functions alone otherwise. -/
theorem Stmt.exec_functions {item : Stmt} (hSettled : context.Settled s.chain.main.functions)
    (hFlat : item.Flat true) (h : item.exec (context.call fuel) fuel s = .ok flow t) :
    t.chain.main.functions.entries = s.chain.main.functions.entries ++
        (FunctionDef.table item.defined?.toList).entries ∧
      context.Settled t.chain.main.functions := by
  rcases hFlat with hNone | ⟨_, f, hf, rfl⟩
  -- no definition: nothing that it calls defines a function either
  · have hAllowed : ∀ f ∈ item.definitions, False := by simp [hNone]
    have hSame := (TableInvariant.unchanged hSettled).stmt_final fuel hAllowed rfl
    rw [h] at hSame
    have hFunctions : t.chain.main.functions = s.chain.main.functions := hSame
    rw [hFunctions, Stmt.defined?_of_definitions hNone]
    exact ⟨(List.append_nil _).symm, hSettled⟩
  -- a definition of a flat function
  · have hAllowed : ∀ g ∈ f.toStmt.definitions, g.Flat := by
      intro g hg
      rw [List.mem_singleton.mp hg]
      exact hf
    have hLater := (TableInvariant.settled context).stmt_final fuel hAllowed hSettled
    rw [h] at hLater
    rw [FunctionDef.toStmt, Stmt.exec, Setting.around_idle] at h
    obtain ⟨u, t', hDefine, hNext⟩ := exists_of_bind_ok h
    cases hNext
    exact ⟨Eval.entries_of_define hDefine, hLater⟩

/-- Started with the value `last`, the block comes to its statement at place `n`,
which returns. -/
def Stmt.ReturnsAt (call : Caller σ) (fuel : Nat) (last : Value) (items : List Stmt)
    (s : RunState σ) (n : Nat) : Prop :=
  ∃ item last' state v later, items[n]? = some item ∧
    Stmt.execAll call fuel last (items.take n) s = .ok (.value last') state ∧
    item.exec call fuel state = .ok (.ret v) later

/-- A block with a statement that returns, returns. -/
theorem Stmt.ReturnsAt.flow_eq {call : Caller σ} {last : Value} {items : List Stmt} {n : Nat}
    (h : Stmt.ReturnsAt call fuel last items s n)
    (hRun : Stmt.execAll call fuel last items s = .ok flow t) : ∃ v, flow = .ret v := by
  obtain ⟨item, last', state, v, later, hItem, hBefore, hReturn⟩ := h
  have hSplit : items = items.take n ++ item :: items.drop (n + 1) := by
    obtain ⟨hLength, rfl⟩ := List.getElem?_eq_some_iff.mp hItem
    rw [List.getElem_cons_drop, List.take_append_drop]
  rw [hSplit, Stmt.execAll_append, hBefore] at hRun
  dsimp only at hRun
  rw [Stmt.execAll, bind_of_ok hReturn] at hRun
  cases hRun
  exact ⟨v, rfl⟩

/-- **The statements of a program leave their functions behind**, up to the one
that returns. -/
theorem Stmt.execAll_functions {items : List Stmt} {last : Value}
    (hSettled : context.Settled s.chain.main.functions) (hFlat : Program.Flat items)
    (h : Stmt.execAll (context.call fuel) fuel last items s = .ok flow t) :
    ∃ n, t.chain.main.functions.entries = s.chain.main.functions.entries ++
        (FunctionDef.table (Program.defined (items.take n))).entries ∧
      (n = items.length ∧ (∃ v, flow = .value v) ∨
        Stmt.ReturnsAt (context.call fuel) fuel last items s n) := by
  -- on the statements: each adds its function before the next is executed
  induction items generalizing last s with
  | nil =>
    rw [Stmt.execAll] at h
    cases h
    exact ⟨0, (List.append_nil _).symm, Or.inl ⟨rfl, last, rfl⟩⟩
  | cons item items ih =>
    obtain ⟨hFirst, hRest⟩ := List.forall_mem_cons.mp hFlat
    rw [Stmt.execAll] at h
    obtain ⟨flow', s', hItem, hNext⟩ := exists_of_bind_ok h
    obtain ⟨hEntries, hSettled'⟩ := Stmt.exec_functions hSettled hFirst hItem
    -- after a statement that does not return, the rest adds its functions
    have hLater : ∀ last', (∀ ss, Stmt.execAll (context.call fuel) fuel last (item :: ss) s =
          Stmt.execAll (context.call fuel) fuel last' ss s') →
        Stmt.execAll (context.call fuel) fuel last' items s' = .ok flow t →
        ∃ n, t.chain.main.functions.entries = s.chain.main.functions.entries ++
            (FunctionDef.table (Program.defined ((item :: items).take n))).entries ∧
          (n = (item :: items).length ∧ (∃ v, flow = .value v) ∨
            Stmt.ReturnsAt (context.call fuel) fuel last (item :: items) s n) := by
      intro last' hStep hRun
      obtain ⟨n, hTable, hEnd⟩ := ih hSettled' hRest hRun
      refine ⟨n + 1, ?_, ?_⟩
      · rw [hTable, hEntries]
        simp only [FunctionDef.table, Program.defined, List.take_succ_cons, List.append_assoc,
          List.filterMap_cons]
        cases item.defined? <;> rfl
      · rcases hEnd with ⟨rfl, hValue⟩ | ⟨other, last'', state, v, later, hOther, hBefore, hReturn⟩
        · exact Or.inl ⟨rfl, hValue⟩
        · refine Or.inr ⟨other, last'', state, v, later, hOther, ?_, hReturn⟩
          rw [List.take_succ_cons, hStep, hBefore]
    cases flow' with
    | next => exact hLater last (fun ss => by rw [Stmt.execAll, bind_of_ok hItem]) hNext
    | value v => exact hLater v (fun ss => by rw [Stmt.execAll, bind_of_ok hItem]) hNext
    | ret v =>
      cases hNext
      refine ⟨0, ?_, Or.inr ⟨item, last, s, v, t, rfl, rfl, hItem⟩⟩
      -- only a definition adds a function, and it does not return
      have hPlain : item.defined? = none := by
        cases item with
        | define name params body line =>
          rw [Stmt.exec, Setting.around_idle] at hItem
          obtain ⟨_, _, _, hReturn⟩ := exists_of_bind_ok hItem
          cases hReturn
        | _ => rfl
      rw [hEntries, hPlain]
      rfl

end TopLevel

-- ---------------------------------------------------------------------------
-- What happens to a script
-- ---------------------------------------------------------------------------

namespace Script

/-- A run of a script: what it sees besides the program, and where it starts. -/
structure Run (σ : Type) where
  context : Context σ
  fuel : Nat
  world : World σ

namespace Run

/-- How a program ends in the run. -/
def eval (run : Run σ) (program : Program) : EStateM.Result Stop (RunState σ) Value :=
  program.eval run.context run.fuel (.start run.world)

/-- The functions that the program leaves behind, if the run succeeds. -/
def functions (run : Run σ) (program : Program) : Option (Table FunctionDef) :=
  match run.eval program with
  | .ok _ state => some state.chain.main.functions
  | .error _ _ => none

/-- The statement at place `n` of the program is the first that returns in the
run. -/
def ReturnsAt (run : Run σ) (program : Program) (n : Nat) : Prop :=
  Stmt.ReturnsAt (run.context.call run.fuel) run.fuel .zero program (.start run.world) n

/-- The registry of the run, if there is one, has come about by links. -/
def Proper (run : Run σ) : Prop :=
  ∀ registry, run.context.registry = some registry → registry.Built

/-- The functions known to a proper run are flat. -/
theorem Proper.flat {run : Run σ} (h : run.Proper) : run.context.Flat :=
  Context.flat_of_registry fun registry hRegistry => (h registry hRegistry).flat

end Run

/-- What is done with a script. -/
inductive Operation (σ : Type) where
  | compile (world : World σ)
  | run (run : Run σ)
  | link (registry : Registry σ) (fuel : Nat) (world : World σ)

/-- The registries have come about by links. -/
def Operation.Proper : Operation σ → Prop
  | .compile _ => True
  | .run attempt => attempt.Proper
  | .link registry _ _ => registry.Built

/-- The script after the operation, be it successful or not. -/
def operate (script : Script) : Operation σ → Script
  | .compile world => (script.compile world).2.1
  | .run run => (script.run run.context run.fuel run.world).2.1
  | .link registry fuel world => (registry.link script fuel world).2.2.1

/-- Whether the operation is a compilation that succeeds. -/
def compiledBy (script : Script) : Operation σ → Bool
  | .compile world => (script.compile world).1.isOk
  | _ => false

/-- The run that the operation starts. There is none if the script is not
compiled, and a link starts none if it has the functions of an earlier one. -/
def startedBy (script : Script) : Operation σ → Option (Run σ)
  | .compile _ => none
  | .run run => if script.isCompiled then some run else none
  | .link registry fuel world =>
    if script.isCompiled && script.functions.isNone then some ⟨registry.context, fuel, world⟩
    else none

/-- A script and what has happened to it. -/
structure Life (σ : Type) where
  script : Script
  /-- Whether a compilation has succeeded. -/
  compiled : Bool
  /-- The most recent run, be it successful or not. -/
  lastRun : Option (Run σ)

namespace Life

/-- The life of a script before anything is done with it. -/
def ofSource (source : String) : Life σ := ⟨.ofSource source, false, none⟩

/-- The life after one more operation. -/
def operate (life : Life σ) (operation : Operation σ) : Life σ where
  script := life.script.operate operation
  compiled := life.compiled || life.script.compiledBy operation
  lastRun := (life.script.startedBy operation).or life.lastRun

/-- The life after some operations. -/
def operateAll (life : Life σ) (operations : List (Operation σ)) : Life σ :=
  operations.foldl operate life

end Life

/-- A run of a compiled script leaves its functions, and all else as it is. -/
theorem run_eq {script : Script} {program : Program} (h : script.tree = some program)
    (run : Run σ) : (script.run run.context run.fuel run.world).2.1 =
      { script with functions := run.functions program } := by
  unfold Run.functions Run.eval
  cases hRun : program.eval run.context run.fuel (.start run.world) with
  | ok value state => rw [Script.run_of_ok h hRun]
  | error stop state =>
    obtain ⟨later, _, hScript⟩ := Script.run_of_error h hRun
    rw [hScript]

/-- What an operation does to a script. -/
inductive Effect (script : Script) (operation : Operation σ) : Prop
  /-- It runs the script. -/
  | ran {run : Run σ} {program : Program} (hStarted : script.startedBy operation = some run)
    (hCompiled : script.compiledBy operation = false) (hTree : script.tree = some program)
    (h : script.operate operation = { script with functions := run.functions program })
  /-- It gives the script its tree. -/
  | parsed {program : Program} (hStarted : script.startedBy operation = none)
    (hCompiled : script.compiledBy operation = true) (hTree : script.tree = none)
    (hParse : outcome (Program.parse script.source) = .ok program)
    (h : script.operate operation = { script with tree := some program })
  | nothing (hStarted : script.startedBy operation = none)
    (hCompiled : script.compiledBy operation = true → script.tree.isSome = true)
    (h : script.operate operation = script)

/-- A compilation gives the script its tree, or changes nothing. -/
theorem effect_compile (script : Script) (world : World σ) :
    script.Effect (.compile world) := by
  cases hTree : script.tree with
  | some program =>
    have h : script.operate (.compile world) = script := by
      simp only [operate, Script.compile, hTree]
    exact .nothing rfl (fun _ => by rw [hTree, Option.isSome_some]) h
  | none =>
    cases hParse : Program.parse script.source with
    | ok program scanner =>
      have hOk : script.compiledBy (.compile world) = true := by
        simp only [compiledBy, Script.compile, hTree, hParse]
        rfl
      have h : script.operate (.compile world) = { script with tree := some program } := by
        simp only [operate, Script.compile, hTree, hParse]
      exact .parsed rfl hOk hTree (congrArg outcome hParse) h
    | error stop scanner =>
      have hFailed : script.compiledBy (.compile world) = false := by
        simp only [compiledBy, Script.compile, hTree, hParse]
        rfl
      have h : script.operate (.compile world) = script := by
        simp only [operate, Script.compile, hTree, hParse]
      exact .nothing rfl (fun hOk => absurd hOk (by rw [hFailed]; exact Bool.false_ne_true)) h

/-- A run of a compiled script is a run; of any other, nothing. -/
theorem effect_run (script : Script) (run : Run σ) : script.Effect (.run run) := by
  cases hTree : script.tree with
  | some program =>
    have hStarted : script.startedBy (.run run) = some run := by
      simp only [startedBy, Script.isCompiled, hTree, Option.isSome_some, if_true]
    exact .ran hStarted rfl hTree (run_eq hTree run)
  | none =>
    have hStarted : script.startedBy (.run run) = none := by
      simp [startedBy, Script.isCompiled, hTree]
    have h : script.operate (.run run) = script := by
      simp only [operate, Script.run, hTree]
    exact .nothing hStarted (fun hOk => by cases hOk) h

theorem effect_link (script : Script) (registry : Registry σ) (fuel : Nat) (world : World σ) :
    script.Effect (.link registry fuel world) := by
  -- a link that runs the script leaves what the run leaves
  have hRan : ∀ {result : Except Stop Value} {script' : Script} {later : World σ},
      script.isCompiled = true → script.functions = none →
      script.run registry.context fuel world = (result, script', later) →
      (registry.link script fuel world).2.2.1 = script' →
      script.Effect (.link registry fuel world) := by
    -- both ends of such a link leave the script as its run does
    intro result script' later hCompiled hNone hRun hLink
    obtain ⟨program, hTree⟩ := Option.isSome_iff_exists.mp hCompiled
    have hStarted : script.startedBy (.link registry fuel world) =
        some ⟨registry.context, fuel, world⟩ := by
      simp only [startedBy, hCompiled, hNone, Option.isNone_none, Bool.and_self, if_true]
    have hScript := run_eq hTree (⟨registry.context, fuel, world⟩ : Run σ)
    rw [hRun] at hScript
    exact .ran hStarted rfl hTree (hLink.trans hScript)
  have hEnd := registry.link_end script fuel world
  generalize hLink : registry.link script fuel world = result at hEnd
  cases hEnd with
  | notCompiled h =>
    refine .nothing ?_ (fun hOk => by cases hOk) ?_
    · simp only [startedBy, h, Bool.false_and, Bool.false_eq_true, if_false]
    · simp only [operate, hLink]
  | known hCompiled h =>
    refine .nothing ?_ (fun hOk => by cases hOk) ?_
    · simp only [startedBy, h, Option.isNone_some, Bool.and_false, Bool.false_eq_true, if_false]
    · simp only [operate, hLink]
  | failed hCompiled hNone hRun => exact hRan hCompiled hNone hRun (by rw [hLink])
  | ran hCompiled hNone hRun _ => exact hRan hCompiled hNone hRun (by rw [hLink])

/-- **Every operation does one of these things.** -/
theorem effect (script : Script) : (operation : Operation σ) → script.Effect operation
  | .compile world => script.effect_compile world
  | .run run => script.effect_run run
  | .link registry fuel world => script.effect_link registry fuel world

/-- A run that an operation starts has a registry that has come about by links
if the operation does. -/
theorem Operation.Proper.startedBy {operation : Operation σ} (h : operation.Proper)
    {script : Script} {run : Run σ} (hStarted : script.startedBy operation = some run) :
    run.Proper := by
  cases operation with
  | compile world => cases hStarted
  | run attempt =>
    obtain ⟨_, ⟨⟩⟩ := Option.ite_none_right_eq_some.mp hStarted
    exact h
  | link registry fuel world =>
    obtain ⟨_, ⟨⟩⟩ := Option.ite_none_right_eq_some.mp hStarted
    rintro _ ⟨⟩
    exact h

-- ---------------------------------------------------------------------------
-- The life of a script
-- ---------------------------------------------------------------------------

/-- The script is what its life has made of the text. -/
structure Life.Sound (source : String) (life : Life σ) : Prop where
  text : life.script.source = source
  tree : ∀ program, life.script.tree = some program →
    outcome (Program.parse source) = .ok program
  compiled : life.script.tree.isSome = life.compiled
  /-- Only a compiled script is run. -/
  runs : life.script.tree = none → life.lastRun = none
  functions : life.script.functions =
    life.lastRun.bind fun run => life.script.tree.bind run.functions
  proper : ∀ run, life.lastRun = some run → run.Proper

namespace Life.Sound

variable {source : String} {life : Life σ}

/-- Before anything is done, the life is sound. -/
theorem ofSource (source : String) : (Life.ofSource (σ := σ) source).Sound source where
  text := rfl
  tree := nofun
  compiled := rfl
  runs := fun _ => rfl
  functions := rfl
  proper := nofun

/-- **One operation keeps the life sound.** -/
theorem operate (h : life.Sound source) {operation : Operation σ} (hProper : operation.Proper) :
    (life.operate operation).Sound source := by
  have hStartedProper : ∀ run, (life.script.startedBy operation).or life.lastRun = some run →
      run.Proper := by
    -- a run is one that was started by the operation or an earlier one
    intro run hRun
    rcases Option.or_eq_some_iff.mp hRun with hStarted | ⟨_, hEarlier⟩
    · exact hProper.startedBy hStarted
    · exact h.proper run hEarlier
  cases life.script.effect operation with
  -- the script is run: its tree stays, and its functions are those of this run
  | @ran run program hStarted hCompiled hTree hOperate =>
    refine ⟨?_, ?_, ?_, ?_, ?_, hStartedProper⟩
    all_goals simp only [Life.operate, hOperate, hStarted, hCompiled, Bool.or_false]
    · exact h.text
    · exact h.tree
    · exact h.compiled
    · intro hNone
      rw [hTree] at hNone
      cases hNone
    · simp only [hTree, Option.some_or, Option.bind_some]
  -- the script gets its tree: it has not been run before
  | @parsed program hStarted hCompiled hTree hParse hOperate =>
    have hNoRun := h.runs hTree
    refine ⟨?_, ?_, ?_, ?_, ?_, hStartedProper⟩
    all_goals simp only [Life.operate, hOperate, hStarted, hCompiled, hNoRun, Bool.or_true]
    · exact h.text
    · rintro _ ⟨⟩
      rw [← h.text]
      exact hParse
    · rfl
    · nofun
    · rw [h.functions, hNoRun]
      rfl
  | nothing hStarted hCompiled hOperate =>
    have hStill : (life.compiled || life.script.compiledBy operation) = life.compiled := by
      cases hBy : life.script.compiledBy operation with
      | false => exact Bool.or_false _
      | true => rw [← h.compiled, hCompiled hBy, Bool.or_true]
    refine ⟨?_, ?_, ?_, ?_, ?_, hStartedProper⟩
    all_goals simp only [Life.operate, hOperate, hStarted, hStill, Option.none_or]
    · exact h.text
    · exact h.tree
    · exact h.compiled
    · exact h.runs
    · exact h.functions

/-- Any operations keep the life sound. -/
theorem operateAll (h : life.Sound source) {operations : List (Operation σ)}
    (hProper : ∀ operation ∈ operations, operation.Proper) :
    (life.operateAll operations).Sound source := by
  induction operations generalizing life with
  | nil => exact h
  | cons operation operations ih =>
    obtain ⟨hFirst, hRest⟩ := List.forall_mem_cons.mp hProper
    exact ih (h.operate hFirst) hRest

end Life.Sound

/-- **The functions of a successful run** are those that the program defines at
the top level, up to the statement that returns. -/
theorem Run.functions_eq_defined {run : Run σ} (hContext : run.context.Flat) {program : Program}
    (hFlat : program.Flat) {value : Value} {state : RunState σ}
    (h : run.eval program = .ok value state) :
    ∃ n, state.chain.main.functions = FunctionDef.table (Program.defined (program.take n)) ∧
      (run.ReturnsAt program n ∨ n = program.length ∧ ∀ i, ¬ run.ReturnsAt program i) := by
  have hSettled : run.context.Settled (RunState.start run.world).chain.main.functions :=
    hContext.settled nofun
  obtain ⟨flow, later, hBlock, hResult⟩ := exists_of_bind_ok h
  cases hResult
  -- the program starts with no functions, so that those it leaves are all its own
  obtain ⟨n, hEntries, hEnd⟩ := Stmt.execAll_functions hSettled hFlat hBlock
  refine ⟨n, congrArg Table.mk hEntries, ?_⟩
  rcases hEnd with ⟨rfl, v, rfl⟩ | hReturns
  · refine Or.inr ⟨rfl, fun i hReturns => ?_⟩
    obtain ⟨w, hFlow⟩ := Stmt.ReturnsAt.flow_eq hReturns hBlock
    cases hFlow
  · exact Or.inl hReturns

open Classical in
/-- **The functions of a script are those of its most recent run.** Take a text
and anything that is done with it as a script: compilations, runs and links, in
any order, with any registries that have come about by links, failing ones
included.
The script has a tree just if a compilation has succeeded, and then it is the
tree of the text.
If the script has functions, then it is compiled, and its most recent run
succeeded. The functions are those that the program defines at the top level, in
order and with distinct names, up to the first statement that returned in that
run, or all of them if none did.
And in every run of the program, whenever something is evaluated, no function
that can be called defines another; so the evaluation of an expression, of a
call, or of a statement of the program or of such a function, at any depth and
except for definitions, leaves the table of functions as it is. -/
theorem functions_are_those_of_last_run (source : String) {operations : List (Operation σ)}
    (hProper : ∀ operation ∈ operations, operation.Proper) :
    let life := (Life.ofSource source).operateAll operations
    life.script.tree.isSome = life.compiled ∧
    (∀ program, life.script.tree = some program →
      outcome (Program.parse source) = .ok program) ∧
    (∀ table, life.script.functions = some table →
      ∃ program run value state n, life.script.tree = some program ∧
        life.lastRun = some run ∧ run.eval program = .ok value state ∧
        table = FunctionDef.table (Program.defined (program.take n)) ∧ table.names.Nodup ∧
        (run.ReturnsAt program n ∨ n = program.length ∧ ∀ i, ¬ run.ReturnsAt program i)) ∧
    ∀ program, life.script.tree = some program → ∀ run : Run σ, run.Proper →
      (∀ alarm : Hook σ, program.evalWith run.context
        (.guard (fun _ s => run.context.Settled s.chain.main.functions) alarm) run.fuel
        (.start run.world) = run.eval program) ∧
      ∀ (state : RunState σ) (fuel : Nat), run.context.Settled state.chain.main.functions →
        let call := run.context.call fuel
        let functions := state.chain.main.functions
        (∀ e : Expr, (final (e.eval call state)).chain.main.functions = functions) ∧
        (∀ name args line, (final (call name args line state)).chain.main.functions = functions) ∧
        ∀ s : Stmt, s.isDefinition = false →
          (s.Within program ∨
            ∃ name f, run.context.resolve functions name = some (.script f) ∧ s.Within f.body) →
          (final (s.exec call fuel state)).chain.main.functions = functions := by
  intro life
  have hSound : life.Sound source := (Life.Sound.ofSource source).operateAll hProper
  have hFlat : ∀ program, life.script.tree = some program → program.Flat := by
    -- a tree that a parse gives has definitions at the top level only
    intro program hTree
    exact Program.flat_of_parse (eq_ok_of_outcome (hSound.tree program hTree))
  refine ⟨hSound.compiled, hSound.tree, ?_, ?_⟩
  · intro table hTable
    -- a table of functions is that of the last run, which has succeeded
    rw [hSound.functions] at hTable
    obtain ⟨run, hRun, hTable⟩ := Option.bind_eq_some_iff.mp hTable
    obtain ⟨program, hTree, hTable⟩ := Option.bind_eq_some_iff.mp hTable
    unfold Run.functions at hTable
    cases hEval : run.eval program with
    | error stop state =>
      rw [hEval] at hTable
      cases hTable
    | ok value state =>
      rw [hEval] at hTable
      cases hTable
      obtain ⟨n, hFunctions, hEnd⟩ :=
        Run.functions_eq_defined (hSound.proper run hRun).flat (hFlat program hTree) hEval
      have hDistinct := (Invariant.distinct_functions run.context.maxDepth).program_final run.fuel
        program (s := .start run.world) List.nodup_nil
      rw [show program.eval run.context run.fuel (.start run.world) = _ from hEval] at hDistinct
      exact ⟨program, run, value, state, n, hTree, hRun, hEval, hFunctions, hDistinct, hEnd⟩
  · intro program hTree run hRun
    refine ⟨fun alarm => ?_, fun state fuel hSettled => ?_⟩
    -- the functions that can be called are settled at the start, and stay so
    · have hAllowed : ∀ f ∈ Stmt.definitionsAll program, f.Flat :=
        fun f hf => ((hFlat program hTree).mem_definitions hf).2
      exact (TableInvariant.settled run.context).program_guarded alarm run.fuel hAllowed
        (hRun.flat.settled nofun)
    · have hKeeps := TableInvariant.unchanged hSettled
      refine ⟨fun e => hKeeps.expr_final fuel e rfl,
        fun name args line => hKeeps.call_final fuel name args line rfl, ?_⟩
      -- such a statement defines nothing, since it is not at the top level or no definition
      intro s hPlain hWithin
      have hNone : s.definitions = [] := by
        rcases hWithin with hWithin | ⟨name, f, hf, hWithin⟩
        · exact hWithin.definitions_eq_nil hPlain fun t ht =>
            (hFlat program hTree).definitions_of_mem ht
        · exact hWithin.definitions_eq_nil hPlain fun t ht _ =>
            Stmt.definitions_of_mem (hSettled name f hf) ht
      exact hKeeps.stmt_final fuel (by simp [hNone]) rfl

/-- The first run is refused, since the script is not compiled. The link runs it,
and it returns before `g` is defined. -/
theorem functions_are_those_of_last_run_linked :
    let source := "def f() do 1; end; if f() do return 2; end; def g() do 3; end;"
    let first : Run Unit := ⟨⟨none, 9⟩, 9, .start ()⟩
    let operations : List (Operation Unit) :=
      [.run first, .compile (.start ()), .link (.empty 9) 9 (.start ())]
    let life := (Life.ofSource source).operateAll operations
    (∀ operation ∈ operations, operation.Proper) ∧ life.compiled = true ∧
    life.script.functions.map Table.names = some ["f"] ∧
    ∀ table, life.script.functions = some table →
      ∃ program run value state n, life.script.tree = some program ∧
        life.lastRun = some run ∧ run.eval program = .ok value state ∧
        table = FunctionDef.table (Program.defined (program.take n)) ∧ table.names.Nodup ∧
        (run.ReturnsAt program n ∨ n = program.length ∧ ∀ i, ¬ run.ReturnsAt program i) := by
  intro source first operations life
  have hFirst : first.Proper := nofun
  have hLinked : (Operation.link (.empty 9) 9 (.start ()) : Operation Unit).Proper := .empty 9
  have hProper : ∀ operation ∈ operations, operation.Proper :=
    List.forall_mem_cons.mpr ⟨hFirst, List.forall_mem_cons.mpr ⟨trivial,
      List.forall_mem_singleton.mpr hLinked⟩⟩
  have hCompiled : life.compiled = true := by decide +kernel
  have hNames : life.script.functions.map Table.names = some ["f"] := by decide +kernel
  exact ⟨hProper, hCompiled, hNames, (functions_are_those_of_last_run source hProper).2.2.1⟩

end Script

end Scriptlet
