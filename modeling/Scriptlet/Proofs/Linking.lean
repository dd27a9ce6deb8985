import Mathlib
import Scriptlet.Proofs.Definitions
import Scriptlet.Registry.Link

/-!
# Scriptlet — linking and inlining

A library is a script of definitions. A program can get at its functions in two
ways: the library is linked into the registry against which the program runs, or
its definitions stand at the start of the program itself. The two runs resolve
names in different tables, but to the same functions.

* `Context.Linked`, `Simulation.of_linked` — a run with linked functions goes
  along with a run that has them as its own;
* `Script.Built`, `Registry.Built` — scripts and registries as they come about;
* `Registry.link_agrees_with_inlining` — the two runs end alike.
-/

namespace Scriptlet

-- ---------------------------------------------------------------------------
-- Flat tables
-- ---------------------------------------------------------------------------

/-- All functions of the table are flat. -/
def Table.Flat (table : Table FunctionDef) : Prop :=
  ∀ entry ∈ table.entries, entry.2.Flat

/-- What is found in a table is one of its entries. -/
theorem Table.mem_of_find? {α : Type} {table : Table α} {name : String} {entry : α}
    (h : table.find? name = some entry) : (name, entry) ∈ table.entries := by
  obtain ⟨before, after, hEntries, _⟩ := List.lookup_eq_some_iff.mp h
  rw [hEntries]
  exact List.mem_append_right _ List.mem_cons_self

/-- An insertion adds one entry, and all others were there before. -/
theorem Table.mem_insertEntry {α : Type} {name : String} {entry : α} {pair : String × α}
    {entries : List (String × α)} (h : pair ∈ Table.insertEntry name entry entries) :
    pair = (name, entry) ∨ pair ∈ entries := by
  induction entries with
  | nil => exact Or.inl (List.mem_singleton.mp h)
  -- on the entries, of which at most one is replaced
  | cons head rest ih =>
    obtain ⟨other, old⟩ := head
    rw [Table.insertEntry] at h
    split at h
    · rcases List.mem_cons.mp h with hHead | hRest
      · exact Or.inl hHead
      · exact Or.inr (List.mem_cons_of_mem _ hRest)
    · rcases List.mem_cons.mp h with hHead | hRest
      · exact Or.inr (hHead ▸ List.mem_cons_self)
      · exact (ih hRest).imp_right (List.mem_cons_of_mem _)

/-- What holds of all entries and of a new one holds after the insertion. -/
theorem Table.forall_insert {α : Type} {Q : α → Prop} {table : Table α}
    (h : ∀ entry ∈ table.entries, Q entry.2) {a : α} (ha : Q a) (name : String) :
    ∀ entry ∈ (table.insert name a).entries, Q entry.2 := by
  intro entry hEntry
  rcases Table.mem_insertEntry hEntry with rfl | hOld
  · exact ha
  · exact h entry hOld

/-- What holds of all linked functions and of all new ones holds of all together. -/
theorem Registry.forall_merge {Q : FunctionDef → Prop} {table : Table FunctionDef} {log : Log}
    {entries : List (String × FunctionDef)} (h : ∀ entry ∈ table.entries, Q entry.2)
    (hEntries : ∀ entry ∈ entries, Q entry.2) :
    ∀ entry ∈ (Registry.merge table log entries).1.entries, Q entry.2 := by
  induction entries generalizing table log with
  | nil => exact h
  | cons entry rest ih =>
    obtain ⟨name, f⟩ := entry
    rw [Registry.merge]
    obtain ⟨hFirst, hRest⟩ := List.forall_mem_cons.mp hEntries
    exact ih (Table.forall_insert h hFirst name) hRest

/-- What is found in a flat table is flat. -/
theorem Table.Flat.find? {table : Table FunctionDef} (h : table.Flat) {name : String}
    {f : FunctionDef} (hf : table.find? name = some f) : f.Flat :=
  h _ (Table.mem_of_find? hf)

-- ---------------------------------------------------------------------------
-- Two ways to a function
-- ---------------------------------------------------------------------------

variable {σ : Type}

/-- What a name stands for outside of the program's own functions. -/
def Context.shared (context : Context σ) (name : String) : Option (Callee σ) :=
  context.registry.bind (·.resolve name)

/-- The functions known outside of the program are flat. -/
def Context.Flat (context : Context σ) : Prop :=
  ∀ name f, context.shared name = some (.script f) → f.Flat

/-- The context `after` is the context `before` with the functions of a
library, all flat, before all others. -/
structure Context.Linked (library : Table FunctionDef) (before after : Context σ) : Prop where
  shared : ∀ name, after.shared name =
    match library.find? name with
    | some f => some (.script f)
    | none => before.shared name
  limit : after.maxDepth = before.maxDepth
  flat : after.Flat

/-- The embedding program is in the same state and has seen the same calls. -/
structure World.SameHost (world other : World σ) : Prop where
  host : world.host = other.host
  hostCalls : world.hostCalls = other.hostCalls

namespace World.SameHost

variable {world other third : World σ}

theorem symm (h : world.SameHost other) : other.SameHost world :=
  ⟨h.host.symm, h.hostCalls.symm⟩

theorem trans (h : world.SameHost other) (h' : other.SameHost third) : world.SameHost third :=
  ⟨h.host.trans h'.host, h.hostCalls.trans h'.hostCalls⟩

end World.SameHost

/-- The states of two runs, of which only the second has the functions of the
library among its own. The first has none of that name. -/
structure RunState.Moved (library : Table FunctionDef) (s t : RunState σ) : Prop where
  calls : s.chain.calls = t.chain.calls
  bindings : s.chain.main.bindings = t.chain.main.bindings
  own : ∀ name, t.chain.main.functions.find? name =
    (s.chain.main.functions.find? name).or (library.find? name)
  apart : ∀ name, library.contains name = true → s.chain.main.functions.find? name = none
  flat : s.chain.main.functions.Flat
  depth : s.depth = t.depth
  world : s.world.SameHost t.world

namespace RunState.Moved

variable {library : Table FunctionDef} {s t : RunState σ}

/-- The two states have the same variables; only functions have moved. -/
theorem sameVariables (h : s.Moved library t) : s.chain.SameVariables t.chain :=
  ⟨h.calls, h.bindings⟩

/-- An assignment writes the same variable of both states. -/
theorem set (h : s.Moved library t) (name : String) (value : Value) :
    Moved library { s with chain := s.chain.set name value }
      { t with chain := t.chain.set name value } where
  calls := (h.sameVariables.set name value).calls
  bindings := (h.sameVariables.set name value).bindings
  own := by simpa using h.own
  apart := by simpa using h.apart
  flat := by simpa using h.flat
  depth := h.depth
  world := h.world

/-- What happens to the world in both runs alike. -/
theorem inWorld (h : s.Moved library t) {world other : World σ} (hWorld : world.SameHost other) :
    Moved library { s with world } { t with world := other } :=
  { h with world := hWorld }

/-- Every name stands for the same in both runs: what the first finds linked,
the second finds among its own functions. -/
theorem resolve_eq {before after : Context σ} (h : s.Moved library t)
    (hLinked : Context.Linked library before after) (name : String) :
    after.resolve s.chain.main.functions name = before.resolve t.chain.main.functions name := by
  have hAfter : after.resolve s.chain.main.functions name =
      match s.chain.main.functions.find? name with
      | some f => some (.script f)
      | none => after.shared name := rfl
  have hBefore : before.resolve t.chain.main.functions name =
      match t.chain.main.functions.find? name with
      | some f => some (.script f)
      | none => before.shared name := rfl
  rw [hAfter, hBefore, h.own name, hLinked.shared name]
  -- own functions of the first come first in both; behind them comes the library
  cases s.chain.main.functions.find? name with
  | some f => rfl
  | none => cases library.find? name <;> rfl

/-- Whatever the name stands for is flat. -/
theorem resolve_flat {before after : Context σ} (h : s.Moved library t)
    (hLinked : Context.Linked library before after) {name : String} {f : FunctionDef}
    (hf : after.resolve s.chain.main.functions name = some (.script f)) : f.Flat := by
  unfold Context.resolve at hf
  cases hOwn : s.chain.main.functions.find? name with
  | some g =>
    rw [hOwn] at hf
    cases hf
    exact h.flat.find? hOwn
  | none =>
    rw [hOwn] at hf
    exact hLinked.flat name f hf

/-- A function whose name the library does not have is defined in both runs
or in none. -/
theorem define (h : s.Moved library t) {f : FunctionDef} (hf : f.Flat)
    (hName : library.find? f.name = none) :
    Together (fun _ => False) (Moved library) (Eval.define f s) (Eval.define f t) := by
  -- no function of the library is in the way, hence the name is as free in one as in the other
  have hOwn := h.own f.name
  rw [hName, Option.or_none] at hOwn
  have hContains : t.chain.main.functions.contains f.name =
      s.chain.main.functions.contains f.name := by
    rw [Table.contains, Table.contains, hOwn]
  unfold Eval.define Frame.defineFunction
  rw [hContains]
  cases s.chain.main.functions.contains f.name with
  | true => exact .error h
  | false =>
    refine .ok { h with own := ?_, apart := ?_, flat := Table.forall_insert h.flat hf f.name }
    · intro name
      show (t.chain.main.functions.insert f.name f).find? name =
        ((s.chain.main.functions.insert f.name f).find? name).or (library.find? name)
      rw [Table.find?_insert, Table.find?_insert]
      by_cases hSame : name = f.name
      · rw [if_pos (by simpa using hSame), if_pos (by simpa using hSame), Option.some_or]
      · rw [if_neg (by simpa using hSame), if_neg (by simpa using hSame), h.own name]
    -- names of the library are not taken by the new function
    · intro name hLibrary
      show (s.chain.main.functions.insert f.name f).find? name = none
      have hOther : name ≠ f.name := by
        rintro rfl
        rw [Table.contains, hName] at hLibrary
        cases hLibrary
      rw [Table.find?_insert, if_neg (by simpa using hOther), h.apart name hLibrary]

end RunState.Moved

/-- A host function answers both runs in the same way. -/
theorem World.SameHost.invoke {world other : World σ} (h : world.SameHost other)
    (f : HostFunction σ) (args : List Value) (line : Option Nat) :
    Together (fun _ => False) World.SameHost (f.invoke args line world)
      (f.invoke args line other) := by
  have hCalls : (world.record ⟨f.name, args⟩).hostCalls =
      (other.record ⟨f.name, args⟩).hostCalls := by
    rw [World.hostCalls_record, World.hostCalls_record, h.hostCalls]
  unfold HostFunction.invoke
  rw [h.host]
  cases f.respond args other.host with
  | mk reply host =>
    cases reply with
    | returned value => exact .ok ⟨rfl, hCalls⟩
    | failed message => exact .error ⟨rfl, hCalls⟩
    | crashed reason => exact .error ⟨rfl, hCalls⟩

/-- **Linked functions do what functions of the program's own do**, as long as
the program does not define their names again. -/
theorem Simulation.of_linked {library : Table FunctionDef} {before after : Context σ}
    (hLinked : Context.Linked library before after) :
    Simulation (fun _ => False) (fun f => f.Flat ∧ library.find? f.name = none) after before
      Watch.idle Watch.idle (fun _ => RunState.Moved library) where
  get := fun h name => h.sameVariables.get?_eq name
  set := fun h name value => h.set name value
  define := fun _ f hf s t h => h.define hf.1 hf.2
  report := fun h event _ => h.inWorld ⟨h.world.host, h.world.hostCalls⟩
  host := by
    intro _ s t h _ f _ args line
    have hEnd := h.world.invoke f args line
    unfold Eval.onWorld
    generalize f.invoke args line s.world = end₁ at hEnd
    generalize f.invoke args line t.world = end₂ at hEnd
    cases hEnd with
    | ok hWorld => exact .ok (h.inWorld hWorld)
    | error hWorld => exact .error (h.inWorld hWorld)
    | escaped hEscape => exact hEscape.elim
  resolve := fun h name => h.resolve_eq hLinked name
  -- linked functions are flat, so that their bodies define nothing
  body := by
    intro _ s t h name f hf g hg
    have hFlat : Stmt.definitionsAll f.body = [] := h.resolve_flat hLinked hf
    rw [hFlat] at hg
    cases hg
  depth := fun h => h.depth
  limit := Or.inl hLinked.limit
  enter := by
    intro _ s t h _ f args _
    refine { h with calls := ?_, depth := ?_ }
    · show _ :: s.chain.calls = _ :: t.chain.calls
      rw [h.calls]
    · show s.depth + 1 = t.depth + 1
      rw [h.depth]
  leave := by
    intro _ _ s t h
    refine { h with calls := ?_, depth := ?_ }
    · show s.chain.calls.tail = t.chain.calls.tail
      rw [h.calls]
    · show s.depth - 1 = t.depth - 1
      rw [h.depth]
  watch := fun _ _ _ _ hLockstep => hLockstep

/-- Programs end together if the library is linked for the first and moved into
the second. -/
theorem Program.eval_linked {library : Table FunctionDef} {before after : Context σ}
    (hLinked : Context.Linked library before after) {program : Program} (hFlat : program.Flat)
    (hApart : ∀ f : FunctionDef, f.toStmt ∈ program → library.find? f.name = none) (fuel : Nat)
    {s t : RunState σ} (h : s.Moved library t) :
    Together (fun _ => False) (RunState.Moved library) (program.eval after fuel s)
      (program.eval before fuel t) := by
  have hDefine : ∀ f ∈ Stmt.definitionsAll program, f.Flat ∧ library.find? f.name = none := by
    intro f hf
    obtain ⟨hTop, hBody⟩ := hFlat.mem_definitions hf
    exact ⟨hBody, hApart f hTop⟩
  -- the program defines only what is apart from the library
  have hLockstep := Program.evalWith_lockstep (Simulation.of_linked hLinked) (.refl fuel) program
    hDefine
  exact hLockstep s t h

/-- The functions that a flat program leaves behind are flat: they are its
own, since no function that it calls defines another. -/
theorem Program.functions_flat {context : Context σ} (hContext : context.Flat) {program : Program}
    (hFlat : program.Flat) {fuel : Nat} {world : World σ} {value : Value} {state : RunState σ}
    (hRun : program.eval context fuel (.start world) = .ok value state) :
    state.chain.main.functions.Flat := by
  -- linking the empty library changes nothing
  have hLinked : Context.Linked .empty context context := ⟨fun _ => rfl, rfl, hContext⟩
  have hStart : (RunState.start world).Moved .empty (RunState.start world) :=
    ⟨rfl, rfl, fun _ => rfl, fun _ _ => rfl, nofun, rfl, ⟨rfl, rfl⟩⟩
  have hEnd := Program.eval_linked hLinked hFlat (fun _ _ => rfl) fuel hStart
  rw [hRun] at hEnd
  cases hEnd with
  | ok h => exact h.flat

-- ---------------------------------------------------------------------------
-- Runs of scripts
-- ---------------------------------------------------------------------------

section Runs

variable {script : Script} {program : Program} {context : Context σ} {fuel : Nat}
  {world : World σ} {state : RunState σ}

/-- A run that ends with a value leaves the functions of its state. -/
theorem Script.run_of_ok {value : Value} (hTree : script.tree = some program)
    (hRun : program.eval context fuel (.start world) = .ok value state) :
    script.run context fuel world =
      (.ok value, { script with functions := some state.chain.main.functions },
        state.world.report (.runFinished value)) := by
  simp only [Script.run, hTree, hRun]

/-- A run that stops leaves no functions, and the host as it was when it
stopped. -/
theorem Script.run_of_error {stop : Stop} (hTree : script.tree = some program)
    (hRun : program.eval context fuel (.start world) = .error stop state) :
    ∃ later : World σ, state.world.SameHost later ∧
      script.run context fuel world = (.error stop, { script with functions := none }, later) := by
  cases stop with
  | fault fault =>
    refine ⟨state.world.report (.runFailed fault), ⟨rfl, rfl⟩, ?_⟩
    simp only [Script.run, hTree, hRun]
  | outOfFuel =>
    refine ⟨state.world, ⟨rfl, rfl⟩, ?_⟩
    simp only [Script.run, hTree, hRun]

end Runs

-- ---------------------------------------------------------------------------
-- Scripts and registries as they come about
-- ---------------------------------------------------------------------------

mutual

/-- A script that was compiled, run and linked. -/
inductive Script.Built (σ : Type) : Script → Prop
  | ofSource (source : String) : Script.Built σ (.ofSource source)
  | compile {script : Script} (h : Script.Built σ script) (world : World σ) :
    Script.Built σ (script.compile world).2.1
  | run {script : Script} (h : Script.Built σ script) (context : Context σ)
    (hContext : ∀ registry, context.registry = some registry → Registry.Built σ registry)
    (fuel : Nat) (world : World σ) : Script.Built σ (script.run context fuel world).2.1
  | link {script : Script} (h : Script.Built σ script) {registry : Registry σ}
    (hRegistry : Registry.Built σ registry) (fuel : Nat) (world : World σ) :
    Script.Built σ (registry.link script fuel world).2.2.1

/-- A registry to which host functions and scripts were added. -/
inductive Registry.Built (σ : Type) : Registry σ → Prop
  | empty (maxDepth : Nat) : Registry.Built σ (.empty maxDepth)
  | register {registry : Registry σ} (h : Registry.Built σ registry) (f : HostFunction σ) :
    Registry.Built σ (registry.register f)
  | link {registry : Registry σ} (h : Registry.Built σ registry) {script : Script}
    (hScript : Script.Built σ script) (fuel : Nat) (world : World σ) :
    Registry.Built σ (registry.link script fuel world).2.1

end

/-- The tree of the script is flat, and its functions are those of a run of the
tree. -/
structure Script.Sound (σ : Type) (script : Script) : Prop where
  tree : ∀ program, script.tree = some program → program.Flat
  functions : ∀ table, script.functions = some table →
    ∃ (program : Program) (context : Context σ) (fuel : Nat) (world : World σ) (value : Value)
      (state : RunState σ), script.tree = some program ∧ context.Flat ∧
      program.eval context fuel (.start world) = .ok value state ∧
      state.chain.main.functions = table

/-- What holds of all linked functions holds of all that are known outside of the
program. -/
theorem Context.forall_shared {context : Context σ} {Q : FunctionDef → Prop}
    (h : ∀ registry, context.registry = some registry →
      ∀ entry ∈ registry.functions.entries, Q entry.2) :
    ∀ name f, context.shared name = some (.script f) → Q f := by
  intro name f hf
  obtain ⟨registry, hRegistry, hResolve⟩ := Option.bind_eq_some_iff.mp hf
  unfold Registry.resolve at hResolve
  cases hFind : registry.functions.find? name with
  | some g =>
    -- a function of a script is one of the table
    rw [hFind] at hResolve
    cases hResolve
    exact h registry hRegistry _ (Table.mem_of_find? hFind)
  | none =>
    -- a host function is none of a script
    rw [hFind] at hResolve
    obtain ⟨host, _, hHost⟩ := Option.map_eq_some_iff.mp hResolve
    cases hHost

/-- If all linked functions are flat, so are those that are known outside of the
program. -/
theorem Context.flat_of_registry {context : Context σ}
    (h : ∀ registry, context.registry = some registry → registry.functions.Flat) :
    context.Flat :=
  Context.forall_shared h

/-- A registry with flat functions makes a flat context. -/
theorem Registry.context_flat {registry : Registry σ} (h : registry.functions.Flat)
    (maxDepth : Nat) : Context.Flat ⟨some registry, maxDepth⟩ := by
  refine Context.flat_of_registry ?_
  rintro _ ⟨⟩
  exact h

namespace Script.Sound

variable {script : Script}

/-- The functions that a sound script has left are flat: a run of its tree has
left them. -/
theorem functions_flat (h : script.Sound σ) : (script.functions.getD .empty).Flat := by
  cases hFunctions : script.functions with
  | none => nofun
  | some table =>
    obtain ⟨program, context, fuel, world, value, state, hTree, hContext, hRun, rfl⟩ :=
      h.functions table hFunctions
    exact Program.functions_flat hContext (h.tree program hTree) hRun

/-- A compilation leaves the script sound. -/
theorem compile (h : script.Sound σ) (world : World σ) :
    Script.Sound σ (script.compile world).2.1 := by
  unfold Script.compile
  cases hTree : script.tree with
  | some program => exact h
  | none =>
    cases hParse : Program.parse script.source with
    | error stop scanner => exact h
    | ok program scanner =>
      refine ⟨?_, ?_⟩
      · rintro _ ⟨⟩
        exact Program.flat_of_parse hParse
      · intro table hTable
        obtain ⟨_, _, _, _, _, _, hSome, _⟩ := h.functions table hTable
        rw [hTree] at hSome
        cases hSome

/-- So does a run, be it successful or not. -/
theorem run (h : script.Sound σ) {context : Context σ} (hContext : context.Flat) (fuel : Nat)
    (world : World σ) : Script.Sound σ (script.run context fuel world).2.1 := by
  cases hTree : script.tree with
  | none =>
    simp only [Script.run, hTree]
    exact h
  | some program =>
    cases hRun : program.eval context fuel (.start world) with
    | error stop state =>
      obtain ⟨later, _, hScript⟩ := Script.run_of_error hTree hRun
      rw [hScript]
      exact ⟨h.tree, fun _ hNone => nomatch hNone⟩
    | ok value state =>
      rw [Script.run_of_ok hTree hRun]
      refine ⟨h.tree, ?_⟩
      rintro _ ⟨⟩
      exact ⟨program, context, fuel, world, value, state, hTree, hContext, hRun, rfl⟩

/-- A link leaves the script sound, and it puts flat functions into the
registry. -/
theorem link (h : script.Sound σ) {registry : Registry σ} (hRegistry : registry.functions.Flat)
    (fuel : Nat) (world : World σ) :
    Script.Sound σ (registry.link script fuel world).2.2.1 ∧
      (registry.link script fuel world).2.1.functions.Flat := by
  unfold Registry.link
  by_cases hCompiled : script.isCompiled = true
  · rw [if_pos hCompiled]
    cases hFunctions : script.functions with
    | some functions =>
      have hFlat := h.functions_flat
      rw [hFunctions] at hFlat
      exact ⟨h, Registry.forall_merge hRegistry hFlat⟩
    | none =>
      have hRun := h.run (registry.context_flat hRegistry registry.maxDepth) fuel world
      rw [show (⟨some registry, registry.maxDepth⟩ : Context σ) = registry.context from rfl] at hRun
      revert hRun
      cases script.run registry.context fuel world with
      | mk result later =>
        intro hRun
        cases result with
        | error stop => exact ⟨hRun, hRegistry⟩
        | ok value => exact ⟨hRun, Registry.forall_merge hRegistry hRun.functions_flat⟩
  · rw [if_neg hCompiled]
    exact ⟨h, hRegistry⟩

end Script.Sound

mutual

/-- Whatever is done with a script, it is sound. -/
theorem Script.Built.sound : {script : Script} → Script.Built σ script → script.Sound σ
  | _, .ofSource source => ⟨fun _ hNone => (nomatch hNone), fun _ hNone => (nomatch hNone)⟩
  | _, .compile h world => h.sound.compile world
  | _, .run h _ hContext fuel world =>
    h.sound.run (Context.flat_of_registry fun registry hSome => (hContext registry hSome).flat)
      fuel world
  | _, .link h hRegistry fuel world => (h.sound.link hRegistry.flat fuel world).1

/-- Whatever is done with a registry, its functions are flat. -/
theorem Registry.Built.flat : {registry : Registry σ} → Registry.Built σ registry →
    registry.functions.Flat
  | _, .empty maxDepth => fun _ hNone => nomatch hNone
  | _, .register h f => h.flat
  | _, .link h hScript fuel world => (hScript.sound.link h.flat fuel world).2

end

-- ---------------------------------------------------------------------------
-- Linking a library
-- ---------------------------------------------------------------------------

/-- Merged functions are found first, if their names are distinct. -/
theorem Registry.find?_merge {entries : List (String × FunctionDef)}
    (hDistinct : (entries.map (·.1)).Nodup) (table : Table FunctionDef) (log : Log)
    (name : String) :
    (Registry.merge table log entries).1.find? name =
      (entries.lookup name).or (table.find? name) := by
  induction entries generalizing table log with
  | nil => rfl
  | cons entry rest ih =>
    obtain ⟨other, f⟩ := entry
    rw [List.map_cons, List.nodup_cons] at hDistinct
    rw [Registry.merge, ih hDistinct.2, Table.find?_insert, List.lookup_cons]
    cases hName : name == other with
    | false => rfl
    | true =>
      -- a later entry would be of the same name
      have hLast : (Table.mk rest).find? name = none := by
        refine Table.find?_eq_none_iff.mpr ?_
        rw [beq_iff_eq.mp hName]
        exact hDistinct.1
      rw [show rest.lookup name = none from hLast]
      rfl

/-- The functions of a library come before those that were linked earlier. -/
theorem Registry.adopt_linked {registry : Registry σ} (hRegistry : registry.functions.Flat)
    {functions : Table FunctionDef} (hFunctions : functions.Flat)
    (hDistinct : functions.names.Nodup) (world : World σ) (maxDepth : Nat) :
    Context.Linked functions ⟨some registry, maxDepth⟩
      ⟨some (registry.adopt functions world).1, maxDepth⟩ where
  shared := by
    intro name
    have hFind := Registry.find?_merge hDistinct registry.functions world.log name
    show Registry.resolve (registry.adopt functions world).1 name = _
    unfold Registry.resolve
    rw [show (registry.adopt functions world).1.functions.find? name = _ from hFind]
    rw [show functions.entries.lookup name = functions.find? name from rfl]
    cases functions.find? name <;> rfl
  limit := rfl
  flat := by
    have hMerged : (registry.adopt functions world).1.functions.Flat :=
      Registry.forall_merge hRegistry hFunctions
    exact Registry.context_flat hMerged maxDepth

section Library

variable {library : Script} {defs : List FunctionDef}

/-- What is linked of a library is the table of its definitions. -/
theorem Script.Sound.functions_eq (h : library.Sound σ)
    (hTree : library.tree = some (defs.map FunctionDef.toStmt))
    (hDistinct : (defs.map (·.name)).Nodup) {table : Table FunctionDef}
    (hTable : library.functions = some table) : table = FunctionDef.table defs := by
  obtain ⟨program, context, fuel, world, value, state, hProgram, _, hRun, rfl⟩ :=
    h.functions table hTable
  -- the tree that was run is the one that is known
  obtain rfl : defs.map FunctionDef.toStmt = program := Option.some.inj (hTree.symm.trans hProgram)
  rw [Program.eval_definitions context fuel hDistinct] at hRun
  cases hRun
  rfl

/-- A library of definitions is linked, whether it was run before or not, and
its functions are then in front. -/
theorem Registry.link_definitions {registry : Registry σ} (hRegistry : registry.functions.Flat)
    (h : library.Sound σ) (hTree : library.tree = some (defs.map FunctionDef.toStmt))
    (hDistinct : (defs.map (·.name)).Nodup) (fuel : Nat) (world : World σ) :
    ∃ linked library' later, registry.link library fuel world = (.ok (), linked, library', later) ∧
      world.SameHost later ∧ ∀ maxDepth, Context.Linked (FunctionDef.table defs)
        ⟨some registry, maxDepth⟩ ⟨some linked, maxDepth⟩ := by
  have hCompiled : library.isCompiled = true := by
    rw [Script.isCompiled, hTree, Option.isSome_some]
  have hFlat : (FunctionDef.table defs).Flat := by
    intro entry hEntry
    obtain ⟨f, hf, rfl⟩ := List.mem_map.mp hEntry
    have hDefined : f ∈ Stmt.definitionsAll (defs.map FunctionDef.toStmt) :=
      Stmt.mem_definitionsAll.mpr
        ⟨f.toStmt, List.mem_map_of_mem hf, List.mem_singleton.mpr rfl⟩
    exact ((h.tree _ hTree).mem_definitions hDefined).2
  have hNames : (FunctionDef.table defs).names.Nodup := by
    rw [FunctionDef.names_table]
    exact hDistinct
  have hLinked := fun world => Registry.adopt_linked hRegistry hFlat hNames world
  unfold Registry.link
  rw [if_pos hCompiled]
  cases hFunctions : library.functions with
  -- it has been run before: its functions are those of its definitions
  | some table =>
    obtain rfl := h.functions_eq hTree hDistinct hFunctions
    exact ⟨_, _, _, rfl, ⟨rfl, rfl⟩, hLinked world⟩
  -- it is run now: definitions run to their table
  | none =>
    have hRun := Program.eval_definitions registry.context fuel hDistinct world
    simp only [Script.run_of_ok hTree hRun]
    exact ⟨_, _, _, rfl, ⟨rfl, rfl⟩, hLinked _⟩

end Library

/-- **Linking agrees with inlining.** A library of definitions with distinct
names can always be linked, without the embedding program noticing. A program
that defines none of these names then runs as the program does that has the
library's definitions at its start, against the registry as it was: with the
same value or fault, the same host calls and the same host state, for every
limit on active calls and every amount of fuel. -/
theorem Registry.link_agrees_with_inlining {registry : Registry σ}
    {library script inlined : Script} {defs : List FunctionDef} {program : Program}
    (hRegistry : registry.Built) (hLibrary : library.Built σ) (hScript : script.Built σ)
    (hDefs : library.tree = some (defs.map FunctionDef.toStmt))
    (hDistinct : (defs.map (·.name)).Nodup) (hProgram : script.tree = some program)
    (hApart : ∀ f : FunctionDef, f.toStmt ∈ program → f.name ∉ defs.map (·.name))
    (hInlined : inlined.tree = some (defs.map FunctionDef.toStmt ++ program))
    (linkFuel : Nat) (world : World σ) :
    ∃ linked library' later,
      registry.link library linkFuel world = (.ok (), linked, library', later) ∧
      world.SameHost later ∧
      ∀ (maxDepth fuel : Nat) (world₁ world₂ : World σ), world₁.SameHost world₂ →
        let apart := script.run ⟨some linked, maxDepth⟩ fuel world₁
        let together := inlined.run ⟨some registry, maxDepth⟩ fuel world₂
        apart.1 = together.1 ∧ apart.2.2.SameHost together.2.2 := by
  obtain ⟨linked, library', later, hLink, hLater, hLinked⟩ := Registry.link_definitions
    hRegistry.flat hLibrary.sound hDefs hDistinct linkFuel world
  refine ⟨linked, library', later, hLink, hLater, fun maxDepth fuel world₁ world₂ hWorld => ?_⟩
  have hStart : (RunState.start world₁).Moved (FunctionDef.table defs)
      ((RunState.start world₂).withFunctions (FunctionDef.table defs)) :=
    ⟨rfl, rfl, fun _ => rfl, fun _ _ => rfl, nofun, rfl, hWorld⟩
  -- names of the program are none of the library's
  have hNew : ∀ f : FunctionDef, f.toStmt ∈ program →
      (FunctionDef.table defs).find? f.name = none := by
    intro f hf
    rw [Table.find?_eq_none_iff, FunctionDef.names_table]
    exact hApart f hf
  have hEnd := Program.eval_linked (hLinked maxDepth) (hScript.sound.tree program hProgram) hNew
    fuel hStart
  -- definitions at the start of a program do what their table does
  rw [← Program.eval_definitions_append _ fuel hDistinct program world₂] at hEnd
  generalize hApartRun : program.eval ⟨some linked, maxDepth⟩ fuel (.start world₁) = end₁ at hEnd
  generalize hWholeRun : Program.eval (defs.map FunctionDef.toStmt ++ program)
    ⟨some registry, maxDepth⟩ fuel (.start world₂) = end₂ at hEnd
  cases hEnd with
  | ok hMoved =>
    rw [Script.run_of_ok hProgram hApartRun, Script.run_of_ok hInlined hWholeRun]
    exact ⟨rfl, hMoved.world.host, hMoved.world.hostCalls⟩
  | error hMoved =>
    obtain ⟨later₁, hLater₁, hRun₁⟩ := Script.run_of_error hProgram hApartRun
    obtain ⟨later₂, hLater₂, hRun₂⟩ := Script.run_of_error hInlined hWholeRun
    rw [hRun₁, hRun₂]
    exact ⟨rfl, hLater₁.symm.trans (hMoved.world.trans hLater₂)⟩
  | escaped hEscape => exact hEscape.elim

set_option maxRecDepth 20000 in
/-- The library's function calls one of the program, which calls the host. -/
theorem Registry.link_agrees_with_inlining_note :
    let note : HostFunction Unit := ⟨"note", fun _ host => (.returned (.int 7), host)⟩
    let registry := (Registry.empty 9).register note
    let library := ((Script.ofSource "def f() do g(); end;").compile (World.start ())).2.1
    let script := ((Script.ofSource "def g() do note(); end; f();").compile (World.start ())).2.1
    let f : FunctionDef := ⟨"f", [], [.expr ⟨none, .call "g" [] 1, [], 1⟩], 1⟩
    let program : Program := [.define "g" [] [.expr ⟨none, .call "note" [] 1, [], 1⟩] 1,
      .expr ⟨none, .call "f" [] 1, [], 1⟩]
    let inlined : Script := ⟨"", some (f.toStmt :: program), none⟩
    library.tree = some [f.toStmt] ∧ script.tree = some program ∧
    ∃ linked library' later,
      registry.link library 5 (.start ()) = (.ok (), linked, library', later) ∧
      (World.start ()).SameHost later ∧
      ∀ (maxDepth fuel : Nat) (world₁ world₂ : World Unit), world₁.SameHost world₂ →
        let apart := script.run ⟨some linked, maxDepth⟩ fuel world₁
        let together := inlined.run ⟨some registry, maxDepth⟩ fuel world₂
        apart.1 = together.1 ∧ apart.2.2.SameHost together.2.2 := by
  have hLibrary : ((Script.ofSource "def f() do g(); end;").compile (World.start ())).2.1.tree =
      some [.define "f" [] [.expr ⟨none, .call "g" [] 1, [], 1⟩] 1] := by
    cbv
  have hScript : ((Script.ofSource "def g() do note(); end; f();").compile
      (World.start ())).2.1.tree = some [.define "g" [] [.expr ⟨none, .call "note" [] 1, [], 1⟩] 1,
        .expr ⟨none, .call "f" [] 1, [], 1⟩] := by
    cbv
  intro note registry library script f program inlined
  have hApart : ∀ g : FunctionDef, g.toStmt ∈ program → g.name ∉ [f].map (·.name) := by
    intro g hg
    rcases List.mem_cons.mp hg with hFirst | hRest
    · have hName : g.name = "g" := by
        injection hFirst
      rw [hName]
      decide
    · rcases List.mem_singleton.mp hRest with ⟨⟩
  exact ⟨hLibrary, hScript, Registry.link_agrees_with_inlining
    (.register (.empty 9) note) (.compile (.ofSource _) _) (.compile (.ofSource _) _)
    (show library.tree = some ([f].map FunctionDef.toStmt) from hLibrary) (by decide) hScript
    hApart rfl 5 (.start ())⟩

end Scriptlet
