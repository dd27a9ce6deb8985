import Scriptlet.Proofs.Merging

/-!
# Scriptlet — shadowed host functions

A linked name stands for the linked function, so a host function of that name
is out of reach. What it would do, and whether it is there at all, makes no
difference to anything that is done with the registry. Linked names stay
linked, so registering the host function again does not bring it back.

* `Registry.Alike` — two registries with the same linked functions, and the same
  host functions under all names that are not linked;
* `Context.Alike.call_eq` — names stand for the same functions in both, so runs
  are the same;
* `Embedding`, `Embedding.Step` — a registry in use, with scripts that are
  compiled, run and linked, and calls from outside;
* `Registry.Named`, `Context.Spares` — a recorded call has the name under which
  its host function is registered, so a run spares the names that are linked;
* `Embedding.shadowed_hosts_are_inert` — no sequence of steps tells the two
  registries apart, and none calls a shadowed host function.
-/

namespace Scriptlet

variable {σ : Type}

-- ---------------------------------------------------------------------------
-- Contexts with the same functions
-- ---------------------------------------------------------------------------

/-- Names stand for the same functions in both contexts, and as many calls may
be active. -/
structure Context.Alike (context other : Context σ) : Prop where
  resolve : ∀ own name, context.resolve own name = other.resolve own name
  limit : context.maxDepth = other.maxDepth

namespace Context.Alike

variable {context other : Context σ}

/-- Calls by name do the same in both contexts. -/
theorem call_eq (h : context.Alike other) (fuel : Nat) :
    context.call fuel = other.call fuel := by
  -- the body of a function calls by name with less fuel
  induction fuel with
  | zero => rfl
  | succ fuel ih =>
    funext name args line state
    rw [Context.call_succ, Context.call_succ, ih, h.limit, h.resolve]

/-- So do programs, since they see the context through their calls only. -/
theorem eval_eq (h : context.Alike other) (program : Program) (fuel : Nat) :
    program.eval context fuel = program.eval other fuel := by
  rw [Program.eval_eq_execAll, Program.eval_eq_execAll, h.call_eq]

/-- So do runs of scripts. -/
theorem run_eq (h : context.Alike other) (script : Script) (fuel : Nat) (world : World σ) :
    script.run context fuel world = script.run other fuel world := by
  unfold Script.run
  cases script.tree with
  | none => rfl
  | some program => simp only [h.eval_eq]

end Context.Alike

-- ---------------------------------------------------------------------------
-- Registries that differ in shadowed host functions
-- ---------------------------------------------------------------------------

/-- Linked names stay linked when more functions are added. -/
theorem Registry.contains_merge {table : Table FunctionDef} {name : String}
    (h : table.contains name = true) (log : Log) (entries : List (String × FunctionDef)) :
    (Registry.merge table log entries).1.contains name = true := by
  induction entries generalizing table log with
  | nil => exact h
  | cons entry rest ih =>
    obtain ⟨other, f⟩ := entry
    rw [Registry.merge]
    refine ih ?_ _
    rw [Table.contains_insert, h, Bool.or_true]

/-- The registries have the same linked functions and limit. They may differ in
host functions whose names are linked. -/
structure Registry.Alike (registry other : Registry σ) : Prop where
  functions : registry.functions = other.functions
  maxDepth : registry.maxDepth = other.maxDepth
  hosts : ∀ name, registry.functions.contains name = false →
    registry.hosts.find? name = other.hosts.find? name

namespace Registry.Alike

variable {registry other : Registry σ}

/-- **A shadowed host function is not what its name stands for.** -/
theorem resolve_eq (h : registry.Alike other) (name : String) :
    registry.resolve name = other.resolve name := by
  unfold Registry.resolve
  rw [← h.functions]
  cases hLinked : registry.functions.find? name with
  | some f => rfl
  -- the name is not linked, hence both registries have the same host function under it
  | none =>
    have hHosts := h.hosts name (by rw [Table.contains, hLinked, Option.isSome_none])
    simp only [hHosts]

/-- Seen from a program, registries that are alike cannot be told apart. -/
theorem context (h : registry.Alike other) (maxDepth : Nat) :
    Context.Alike ⟨some registry, maxDepth⟩ ⟨some other, maxDepth⟩ where
  resolve := by
    intro own name
    unfold Context.resolve
    simp only [Option.bind_some, h.resolve_eq]
  limit := rfl

/-- A host function that is registered in both is the same in both. -/
theorem register (h : registry.Alike other) (f : HostFunction σ) :
    (registry.register f).Alike (other.register f) where
  functions := h.functions
  maxDepth := h.maxDepth
  hosts := by
    intro name hLinked
    show (registry.hosts.insert f.name f).find? name = (other.hosts.insert f.name f).find? name
    rw [Table.find?_insert, Table.find?_insert, h.hosts name hLinked]

/-- Linked functions are added alike, and what was shadowed stays so. -/
theorem adopt (h : registry.Alike other) (functions : Table FunctionDef) (world : World σ) :
    (registry.adopt functions world).1.Alike (other.adopt functions world).1 ∧
      (registry.adopt functions world).2 = (other.adopt functions world).2 := by
  unfold Registry.adopt
  rw [← h.functions]
  refine ⟨⟨rfl, h.maxDepth, fun name hLinked => h.hosts name ?_⟩, rfl⟩
  -- a name that was linked before still is
  cases hOld : registry.functions.contains name with
  | false => rfl
  | true =>
    have hNew := Registry.contains_merge hOld world.log functions.entries
    exact hNew.symm.trans hLinked

/-- A script is linked into both with the same result, and its run is the same
in both. -/
theorem link (h : registry.Alike other) (script : Script) (fuel : Nat) (world : World σ) :
    (registry.link script fuel world).1 = (other.link script fuel world).1 ∧
      (registry.link script fuel world).2.1.Alike (other.link script fuel world).2.1 ∧
      (registry.link script fuel world).2.2 = (other.link script fuel world).2.2 := by
  have hRun : script.run registry.context fuel world = script.run other.context fuel world := by
    rw [Registry.context, Registry.context, ← h.maxDepth]
    exact (h.context registry.maxDepth).run_eq script fuel world
  unfold Registry.link
  by_cases hCompiled : script.isCompiled = true
  · rw [if_pos hCompiled, if_pos hCompiled]
    -- what is linked is the same table, known from before or left by the run
    cases script.functions with
    | some functions =>
      obtain ⟨hAlike, hWorld⟩ := h.adopt functions world
      exact ⟨rfl, hAlike, congrArg (script, ·) hWorld⟩
    | none =>
      rw [hRun]
      obtain ⟨result, script', later⟩ := script.run other.context fuel world
      cases result with
      | error stop => exact ⟨rfl, h, rfl⟩
      | ok value =>
        obtain ⟨hAlike, hWorld⟩ := h.adopt (script'.functions.getD .empty) later
        exact ⟨rfl, hAlike, congrArg (script', ·) hWorld⟩
  · rw [if_neg hCompiled, if_neg hCompiled]
    exact ⟨rfl, h, rfl⟩

/-- A call from outside has the same answer. -/
theorem call_eq (h : registry.Alike other) (name : String) (args : List Value) (fuel : Nat)
    (world : World σ) : registry.call name args fuel world = other.call name args fuel world := by
  unfold Registry.call Registry.context
  rw [← h.maxDepth, (h.context registry.maxDepth).call_eq]

end Registry.Alike

-- ---------------------------------------------------------------------------
-- Calls of shadowed host functions
-- ---------------------------------------------------------------------------

/-- The calls of host functions of the given name. -/
def World.callsOf (world : World σ) (name : String) : List HostCall :=
  world.hostCalls.filter (·.name == name)

/-- A host function is recorded under its own name, however it replies. -/
theorem HostFunction.hostCalls_invoke (f : HostFunction σ) (args : List Value)
    (line : Option Nat) (world : World σ) :
    (final (f.invoke args line world)).hostCalls = world.hostCalls ++ [⟨f.name, args⟩] := by
  unfold HostFunction.invoke
  rw [← World.hostCalls_record]
  cases f.respond args world.host with
  | mk reply host => cases reply <;> rfl

/-- Host functions are registered under their own names. -/
def Registry.Named (registry : Registry σ) : Prop :=
  ∀ name f, registry.hosts.find? name = some f → f.name = name

/-- A host function is registered under its own name, in place of an older one
of that name. -/
theorem Registry.Named.register {registry : Registry σ} (h : registry.Named)
    (f : HostFunction σ) : (registry.register f).Named := by
  intro name g hg
  have hFind : (registry.hosts.insert f.name f).find? name = some g := hg
  rw [Table.find?_insert] at hFind
  by_cases hSame : name = f.name
  · rw [if_pos (by simpa using hSame)] at hFind
    cases hFind
    exact hSame.symm
  · rw [if_neg (by simpa using hSame)] at hFind
    exact h name g hFind

/-- No name stands for a host function of the given name. -/
def Context.Spares (context : Context σ) (name : String) : Prop :=
  ∀ own key f, context.resolve own key = some (.host f) → f.name ≠ name

/-- Linked names are spared. -/
theorem Registry.Named.spares {registry : Registry σ} (h : registry.Named) {name : String}
    (hLinked : registry.functions.contains name = true) (shared : Bool) (maxDepth : Nat) :
    Context.Spares ⟨if shared then some registry else none, maxDepth⟩ name := by
  intro own key f hf
  unfold Context.resolve at hf
  cases hOwn : own.find? key with
  | some g =>
    rw [hOwn] at hf
    cases hf
  | none =>
    rw [hOwn] at hf
    cases shared with
    | false => cases hf
    | true =>
      have hResolve : registry.resolve key = some (.host f) := hf
      unfold Registry.resolve at hResolve
      cases hFunction : registry.functions.find? key with
      | some g =>
        rw [hFunction] at hResolve
        cases hResolve
      | none =>
        rw [hFunction] at hResolve
        obtain ⟨g, hHost, hSame⟩ := Option.map_eq_some_iff.mp hResolve
        cases hSame
        -- it is registered under its own name, which would not be linked then
        rintro rfl
        rw [h key f hHost, Table.contains, hFunction] at hLinked
        cases hLinked

namespace Context.Spares

variable {context : Context σ} {name : String}

/-- **A run does not call a host function of a name that is spared.** -/
theorem worldInvariant (h : context.Spares name) (calls : List HostCall) :
    WorldInvariant context fun world => world.callsOf name = calls where
  report := fun hs _ _ => hs
  host := by
    intro world hs own key f hf args line
    have hOther : (f.name == name) = false := beq_eq_false_iff_ne.mpr (h own key f hf)
    rw [World.callsOf, HostFunction.hostCalls_invoke, List.filter_append, ← hs]
    simp [World.callsOf, hOther]

/-- A run of a script does not call one either. -/
theorem run (h : context.Spares name) (script : Script) (fuel : Nat) (world : World σ) :
    (script.run context fuel world).2.2.callsOf name = world.callsOf name := by
  unfold Script.run
  cases script.tree with
  | none => rfl
  | some program =>
    have hEnd := (h.worldInvariant (world.callsOf name)).program_final fuel program
      (s := .start world) rfl
    revert hEnd
    dsimp only
    cases program.eval context fuel (.start world) with
    | ok value state => exact id
    | error stop state => cases stop <;> exact id

end Context.Spares

namespace Registry.Named

variable {registry : Registry σ} {name : String}

/-- Nor does a call from outside. -/
theorem call (h : registry.Named) (hLinked : registry.functions.contains name = true)
    (callee : String) (args : List Value) (fuel : Nat) (world : World σ) :
    (registry.call callee args fuel world).2.callsOf name = world.callsOf name := by
  have hSpares : registry.context.Spares name := h.spares hLinked true registry.maxDepth
  have hEnd := (hSpares.worldInvariant (world.callsOf name)).call_final fuel callee args none
    (s := .start world) rfl
  unfold Registry.call
  revert hEnd
  cases registry.context.call fuel callee args none (.start world) with
  | ok value state => exact id
  | error stop state => exact id

/-- A link does not touch the host functions. -/
theorem link (h : registry.Named) (script : Script) (fuel : Nat) (world : World σ) :
    (registry.link script fuel world).2.1.Named := by
  have hEnd := registry.link_end script fuel world
  generalize registry.link script fuel world = result at hEnd ⊢
  cases hEnd <;> exact h

/-- A linked name stays linked, and its host function is not called while
another script is linked. -/
theorem link_linked (h : registry.Named) (hLinked : registry.functions.contains name = true)
    (script : Script) (fuel : Nat) (world : World σ) :
    (registry.link script fuel world).2.1.functions.contains name = true ∧
      (registry.link script fuel world).2.2.2.callsOf name = world.callsOf name := by
  have hSpares : registry.context.Spares name := h.spares hLinked true registry.maxDepth
  -- of the ways in which a link ends, only those that ran the script can have called anything
  have hCalls := hSpares.run script fuel world
  have hEnd := registry.link_end script fuel world
  generalize registry.link script fuel world = result at hEnd ⊢
  cases hEnd with
  | notCompiled _ => exact ⟨hLinked, rfl⟩
  | known _ _ => exact ⟨Registry.contains_merge hLinked _ _, rfl⟩
  | failed _ _ hRun =>
    rw [hRun] at hCalls
    exact ⟨hLinked, hCalls⟩
  | ran _ _ hRun _ =>
    rw [hRun] at hCalls
    exact ⟨Registry.contains_merge hLinked _ _, hCalls⟩

end Registry.Named

-- ---------------------------------------------------------------------------
-- A registry in use
-- ---------------------------------------------------------------------------

/-- A registry in use: with scripts, which have names, and the world. -/
structure Embedding (σ : Type) where
  registry : Registry σ
  scripts : String → Script
  world : World σ

namespace Embedding

/-- What is done with a registry. -/
inductive Step (σ : Type) where
  | register (f : HostFunction σ)
  /-- A new script, in place of an older one of its name. -/
  | create (id : String) (source : String)
  | compile (id : String)
  | link (id : String) (fuel : Nat)
  /-- A run of a script, with the registry or without it. -/
  | run (id : String) (shared : Bool) (maxDepth fuel : Nat)
  | call (name : String) (args : List Value) (fuel : Nat)

/-- Puts a script under its name. -/
def store (e : Embedding σ) (id : String) (script : Script) : Embedding σ :=
  { e with scripts := fun other => if other = id then script else e.scripts other }

/-- Takes a step, which ends in a fault, with a value or without one. -/
def perform (e : Embedding σ) : Step σ → Except Stop (Option Value) × Embedding σ
  | .register f =>
    let (registry, world) := e.registry.registerIn f e.world
    (.ok none, { e with registry, world })
  | .create id source => (.ok none, e.store id (.ofSource source))
  | .compile id =>
    let (result, script, world) := (e.scripts id).compile e.world
    (result.map fun _ => none, { e.store id script with world })
  | .link id fuel =>
    let (result, registry, script, world) := e.registry.link (e.scripts id) fuel e.world
    (result.map fun _ => none, { e.store id script with registry, world })
  | .run id shared maxDepth fuel =>
    let context := ⟨if shared then some e.registry else none, maxDepth⟩
    let (result, script, world) := (e.scripts id).run context fuel e.world
    (result.map some, { e.store id script with world })
  | .call name args fuel =>
    let (result, world) := e.registry.call name args fuel e.world
    (result.map some, { e with world })

/-- How some steps end. -/
def answers (e : Embedding σ) : List (Step σ) → List (Except Stop (Option Value))
  | [] => []
  | step :: steps => (e.perform step).1 :: (e.perform step).2.answers steps

/-- What is left after some steps, be there faults among them or not. -/
def afterAll (e : Embedding σ) (steps : List (Step σ)) : Embedding σ :=
  steps.foldl (fun e step => (e.perform step).2) e

/-- The registries are alike, and all else is the same. -/
structure Alike (e other : Embedding σ) : Prop where
  registry : e.registry.Alike other.registry
  scripts : e.scripts = other.scripts
  world : e.world = other.world

/-- **One step does not tell the registries apart.** -/
theorem Alike.perform {e other : Embedding σ} (h : e.Alike other) (step : Step σ) :
    (e.perform step).1 = (other.perform step).1 ∧
      (e.perform step).2.Alike (other.perform step).2 := by
  obtain ⟨registry, scripts, world⟩ := e
  obtain ⟨registry', _, _⟩ := other
  obtain ⟨hRegistry, hScripts, hWorld⟩ := h
  dsimp only at hRegistry hScripts hWorld
  subst hScripts hWorld
  cases step with
  | register f => exact ⟨rfl, hRegistry.register f, rfl, rfl⟩
  | create id source => exact ⟨rfl, hRegistry, rfl, rfl⟩
  | compile id => exact ⟨rfl, hRegistry, rfl, rfl⟩
  | link id fuel =>
    obtain ⟨hResult, hLinked, hLater⟩ := hRegistry.link (scripts id) fuel world
    simp only [Embedding.perform, hResult, hLater]
    exact ⟨trivial, hLinked, rfl, rfl⟩
  | run id shared maxDepth fuel =>
    cases shared with
    | false => exact ⟨rfl, hRegistry, rfl, rfl⟩
    | true =>
      have hRun := (hRegistry.context maxDepth).run_eq (scripts id) fuel world
      simp only [Embedding.perform, if_true, hRun]
      exact ⟨trivial, hRegistry, rfl, rfl⟩
  | call name args fuel =>
    have hCall := hRegistry.call_eq name args fuel world
    simp only [Embedding.perform, hCall]
    exact ⟨trivial, hRegistry, rfl, rfl⟩

/-- Nor do any steps. -/
theorem Alike.afterAll {e other : Embedding σ} (h : e.Alike other) (steps : List (Step σ)) :
    e.answers steps = other.answers steps ∧ (e.afterAll steps).Alike (other.afterAll steps) := by
  -- step by step: each leaves registries that are alike, with the same scripts in the same
  -- world
  induction steps generalizing e other with
  | nil => exact ⟨rfl, h⟩
  | cons step steps ih =>
    obtain ⟨hFirst, hAlike⟩ := h.perform step
    obtain ⟨hRest, hEnd⟩ := ih hAlike
    refine ⟨?_, hEnd⟩
    rw [answers, answers, hFirst, hRest]

/-- Every step leaves host functions under their own names. -/
theorem named_perform {e : Embedding σ} (h : e.registry.Named) (step : Step σ) :
    (e.perform step).2.registry.Named := by
  cases step with
  | register f => exact h.register f
  | link id fuel => exact h.link (e.scripts id) fuel e.world
  | _ => exact h

/-- So do any steps. -/
theorem named_afterAll {e : Embedding σ} (h : e.registry.Named) (steps : List (Step σ)) :
    (e.afterAll steps).registry.Named := by
  induction steps generalizing e with
  | nil => exact h
  | cons step steps ih => exact ih (named_perform h step)

/-- **One step leaves a linked name linked** and its host function alone. -/
theorem perform_linked {e : Embedding σ} (h : e.registry.Named) {name : String}
    (hLinked : e.registry.functions.contains name = true) (step : Step σ) :
    (e.perform step).2.registry.functions.contains name = true ∧
      (e.perform step).2.world.callsOf name = e.world.callsOf name := by
  cases step with
  | register f => exact ⟨hLinked, rfl⟩
  | create id source => exact ⟨hLinked, rfl⟩
  | compile id =>
    refine ⟨hLinked, ?_⟩
    show ((e.scripts id).compile e.world).2.2.callsOf name = _
    unfold Script.compile
    cases (e.scripts id).tree with
    | some program => rfl
    | none => cases Program.parse (e.scripts id).source <;> rfl
  | link id fuel => exact h.link_linked hLinked (e.scripts id) fuel e.world
  | run id shared maxDepth fuel =>
    exact ⟨hLinked, (h.spares hLinked shared maxDepth).run (e.scripts id) fuel e.world⟩
  | call callee args fuel => exact ⟨hLinked, h.call hLinked callee args fuel e.world⟩

/-- Any steps leave a linked name linked and its host function alone. -/
theorem afterAll_linked {e : Embedding σ} (h : e.registry.Named) {name : String}
    (hLinked : e.registry.functions.contains name = true) (steps : List (Step σ)) :
    (e.afterAll steps).world.callsOf name = e.world.callsOf name := by
  induction steps generalizing e with
  | nil => rfl
  | cons step steps ih =>
    obtain ⟨hStill, hCalls⟩ := perform_linked h hLinked step
    exact (ih (named_perform h step) hStill).trans hCalls

/-- **A shadowed host function is inert.** If two registries differ in nothing
but host functions whose names are linked, then the same steps, taken with the
same scripts in the same world, end in the same way with both, one by one, and
leave the same linked functions, the same scripts and the same world with the
same host calls; and the registries still differ in nothing else. In particular,
once a name is linked in a registry that began empty, no later step calls a host
function of that name, also if one is registered again. -/
theorem shadowed_hosts_are_inert {e other : Embedding σ} (h : e.Alike other)
    (steps : List (Step σ)) :
    e.answers steps = other.answers steps ∧
    (e.afterAll steps).Alike (other.afterAll steps) ∧
    ∀ (maxDepth : Nat) (scripts : String → Script) (world : World σ) (earlier : List (Step σ))
      (name : String),
      let linked := Embedding.afterAll ⟨.empty maxDepth, scripts, world⟩ earlier
      linked.registry.functions.contains name = true →
        (linked.afterAll steps).world.callsOf name = linked.world.callsOf name := by
  obtain ⟨hAnswers, hAlike⟩ := h.afterAll steps
  refine ⟨hAnswers, hAlike, ?_⟩
  intro maxDepth scripts world earlier name linked hLinked
  have hEmpty : Registry.Named (σ := σ) (.empty maxDepth) := nofun
  -- the registry began empty, so that all host functions are under their own names
  exact afterAll_linked (named_afterAll (e := ⟨_, scripts, world⟩) hEmpty earlier) hLinked steps

/-- The library `def f() do 1; end;` shadows a host function that counts its
calls: registered again or not there at all, it is not called. -/
theorem shadowed_hosts_are_inert_counter :
    let f : FunctionDef := ⟨"f", [], [.expr ⟨none, .number 1, [], 1⟩], 1⟩
    let counter : HostFunction Nat := ⟨"f", fun _ n => (.returned .zero, n + 1)⟩
    let scripts : String → Script := fun _ => ⟨"", some [f.toStmt], none⟩
    let e : Embedding Nat := ⟨⟨⟨[("f", f)]⟩, ⟨[("f", counter)]⟩, 9⟩, scripts, .start 0⟩
    let other : Embedding Nat := ⟨⟨⟨[("f", f)]⟩, ⟨[]⟩, 9⟩, scripts, .start 0⟩
    let steps : List (Step Nat) := [.register counter, .call "f" [] 9]
    let linked := Embedding.afterAll ⟨.empty 9, scripts, .start 0⟩
      [.register counter, .call "f" [] 9, .link "library" 9]
    e.Alike other ∧ e.answers steps = other.answers steps ∧
    (e.afterAll steps).Alike (other.afterAll steps) ∧
    e.answers steps = [.ok none, .ok (some (.int 1))] ∧
    linked.registry.functions.contains "f" = true ∧
    (linked.afterAll steps).world.callsOf "f" = linked.world.callsOf "f" ∧
    linked.world.callsOf "f" = [⟨"f", []⟩] := by
  intro f counter scripts e other steps linked
  have hAlike : e.Alike other := by
    refine ⟨⟨rfl, rfl, fun name hName => ?_⟩, rfl, rfl⟩
    have hOther : (name == "f") = false := by
      rw [beq_eq_false_iff_ne]
      rintro rfl
      cases hName
    show [("f", counter)].lookup name = none
    rw [List.lookup_cons, hOther]
    rfl
  have hAnswers : e.answers steps = [.ok none, .ok (some (.int 1))] := by decide +kernel
  have hLinked : linked.registry.functions.contains "f" = true := by decide +kernel
  have hCalls : linked.world.callsOf "f" = [⟨"f", []⟩] := by decide +kernel
  have hInert := shadowed_hosts_are_inert hAlike steps
  exact ⟨hAlike, hInert.1, hInert.2.1, hAnswers, hLinked,
    hInert.2.2 9 scripts (.start 0) _ "f" hLinked, hCalls⟩

end Embedding

end Scriptlet
