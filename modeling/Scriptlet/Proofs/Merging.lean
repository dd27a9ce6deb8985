import Scriptlet.Proofs.Invariant
import Scriptlet.Proofs.Linking

/-!
# Scriptlet — what a link does

A link runs the script if the functions of a successful run are not at hand,
and then adds them all, or it changes nothing. Functions that were linked
earlier under the same names give way but leave their places, with a warning
for each; new names go last.

* `Registry.LinkEnd` — the four ways in which a link ends;
* `Registry.Merged`, `Registry.adopt_merged` — the registry after functions
  were added to it;
* `Script.isSome_functions_afterAll` — as long as a script is not run by itself,
  its functions are at hand once a link has succeeded;
* `Registry.link_is_all_or_nothing` — what a link does to the registry, to the
  log and to the embedding program, after any number of earlier links.
-/

namespace Scriptlet

-- ---------------------------------------------------------------------------
-- Distinct names
-- ---------------------------------------------------------------------------

/-- A table has an entry under a name exactly if it is one of its names. -/
theorem Table.contains_eq_true_iff {α : Type} {table : Table α} {name : String} :
    table.contains name = true ↔ name ∈ table.names := by
  rw [Table.contains, Option.isSome_iff_ne_none, ne_eq, Table.find?_eq_none_iff, not_not]

/-- Names stay distinct, since an entry that is there is replaced. -/
theorem Table.nodup_names_insert {α : Type} {table : Table α} (h : table.names.Nodup)
    (name : String) (entry : α) : (table.insert name entry).names.Nodup := by
  rw [Table.names_insert]
  cases hContains : table.contains name with
  | true => exact h
  | false =>
    have hNew : name ∉ table.names := by
      rw [← Table.contains_eq_true_iff, hContains]
      exact Bool.false_ne_true
    exact List.nodup_append.mpr
      ⟨h, List.nodup_singleton name, fun a ha b hb hab =>
        hNew (List.mem_singleton.mp hb ▸ hab ▸ ha)⟩

/-- To insert what is there already changes nothing. -/
theorem Table.insertEntry_same {α : Type} {name : String} {entry : α}
    {entries : List (String × α)} (h : entries.lookup name = some entry) :
    Table.insertEntry name entry entries = entries := by
  -- up to the place where the name stands
  induction entries with
  | nil => cases h
  | cons head rest ih =>
    obtain ⟨other, old⟩ := head
    cases hName : name == other with
    | true =>
      rw [List.lookup_cons, hName] at h
      cases h
      rw [Table.insertEntry, hName, if_pos rfl, beq_iff_eq.mp hName]
    | false =>
      rw [List.lookup_cons, hName] at h
      rw [Table.insertEntry, hName, if_neg Bool.false_ne_true, ih h]

/-- An entry that is there already is not inserted twice. -/
theorem Table.insert_same {α : Type} {table : Table α} {name : String} {entry : α}
    (h : table.find? name = some entry) : table.insert name entry = table := by
  rw [Table.insert, Table.insertEntry_same h]

/-- Where names are distinct, an entry is found under its name. -/
theorem Table.find?_of_mem {α : Type} {table : Table α} (hDistinct : table.names.Nodup)
    {entry : String × α} (h : entry ∈ table.entries) : table.find? entry.1 = some entry.2 := by
  obtain ⟨entries⟩ := table
  show entries.lookup entry.1 = some entry.2
  replace hDistinct : (entries.map (·.1)).Nodup := hDistinct
  -- behind the first entry, the name is another
  induction entries with
  | nil => cases h
  | cons head rest ih =>
    rw [List.map_cons, List.nodup_cons] at hDistinct
    rcases List.mem_cons.mp h with rfl | hRest
    · rw [List.lookup_cons, beq_self_eq_true]
    · have hName : (entry.1 == head.1) = false := by
        rw [beq_eq_false_iff_ne]
        intro hSame
        exact hDistinct.1 (hSame ▸ List.mem_map_of_mem hRest)
      rw [List.lookup_cons, hName]
      exact ih hRest hDistinct.2

variable {σ : Type}

/-- The functions that a program defines have distinct names. -/
theorem Invariant.distinct_functions (maxDepth : Nat) :
    Invariant maxDepth fun _ (s : RunState σ) => s.chain.main.functions.names.Nodup where
  set := by
    intro active s hs name value
    show (s.chain.set name value).main.functions.names.Nodup
    unfold Chain.set
    cases Chain.setFirst? name value s.chain.calls <;> exact hs
  define := by
    intro active s hs f main hMain
    unfold Frame.defineFunction at hMain
    split at hMain
    · cases hMain
    · cases hMain
      exact Table.nodup_names_insert hs f.name f
  world := fun hs _ => hs
  enter := fun hs _ _ _ _ => hs
  leave := fun hs => hs

-- ---------------------------------------------------------------------------
-- Adding functions
-- ---------------------------------------------------------------------------

section Merge

variable {entries : List (String × FunctionDef)}

/-- Names other than the inserted one are not affected. -/
theorem Table.contains_insert_of_mem {α : Type} {names : List String} {name : String}
    (h : name ∉ names) (table : Table α) (entry : α) :
    ∀ other ∈ names, (table.insert name entry).contains other = table.contains other := by
  intro other hOther
  have hDistinct : (other == name) = false := by
    rw [beq_eq_false_iff_ne]
    rintro rfl
    exact h hOther
  rw [Table.contains_insert, hDistinct, Bool.false_or]

/-- New names go last, in their order. -/
theorem Registry.names_merge (hDistinct : (entries.map (·.1)).Nodup) (table : Table FunctionDef)
    (log : Log) :
    (Registry.merge table log entries).1.names =
      table.names ++ (entries.map (·.1)).filter fun name => !table.contains name := by
  induction entries generalizing table log with
  | nil => exact (List.append_nil _).symm
  | cons entry rest ih =>
    obtain ⟨name, f⟩ := entry
    rw [List.map_cons, List.nodup_cons] at hDistinct
    -- the later names differ from this one, so it does not make them old
    have hRest : (rest.map (·.1)).filter (fun other => !(table.insert name f).contains other) =
        (rest.map (·.1)).filter fun other => !table.contains other :=
      List.filter_congr fun other hOther =>
        congrArg not (Table.contains_insert_of_mem hDistinct.1 table f other hOther)
    rw [Registry.merge, ih hDistinct.2, hRest, Table.names_insert, List.map_cons]
    cases hContains : table.contains name <;> simp [hContains]

/-- There is a warning for each name that was there before. -/
theorem Registry.log_merge (hDistinct : (entries.map (·.1)).Nodup) (table : Table FunctionDef)
    (log : Log) :
    (Registry.merge table log entries).2.toList =
      log.toList ++ ((entries.map (·.1)).filter table.contains).map Event.shadowed := by
  induction entries generalizing table log with
  | nil => exact (List.append_nil _).symm
  | cons entry rest ih =>
    obtain ⟨name, f⟩ := entry
    rw [List.map_cons, List.nodup_cons] at hDistinct
    have hRest := List.filter_congr (Table.contains_insert_of_mem hDistinct.1 table f)
    rw [Registry.merge, ih hDistinct.2, hRest, List.map_cons]
    cases hContains : table.contains name <;> simp [hContains]

/-- Functions that are all there already change nothing. -/
theorem Registry.merge_same {table : Table FunctionDef} (log : Log)
    (h : ∀ entry ∈ entries, table.find? entry.1 = some entry.2) :
    (Registry.merge table log entries).1 = table := by
  induction entries generalizing log with
  | nil => rfl
  | cons entry rest ih =>
    obtain ⟨name, f⟩ := entry
    obtain ⟨hFirst, hRest⟩ := List.forall_mem_cons.mp h
    rw [Registry.merge, Table.insert_same hFirst]
    exact ih _ hRest

end Merge

/-- The second registry is the first with the given functions added: they come
before those that were linked, whose names keep their places. -/
structure Registry.Merged (registry : Registry σ) (functions : Table FunctionDef)
    (linked : Registry σ) : Prop where
  hosts : linked.hosts = registry.hosts
  maxDepth : linked.maxDepth = registry.maxDepth
  find? : ∀ name,
    linked.functions.find? name = (functions.find? name).or (registry.functions.find? name)
  names : linked.functions.names =
    registry.functions.names ++ functions.names.filter fun name => !registry.functions.contains name

/-- **Adding functions merges them**, and warns of those that are replaced. -/
theorem Registry.adopt_merged (registry : Registry σ) {functions : Table FunctionDef}
    (hDistinct : functions.names.Nodup) (world : World σ) :
    registry.Merged functions (registry.adopt functions world).1 ∧
      ∃ size, (registry.adopt functions world).2.log.toList = world.log.toList ++
        (functions.names.filter registry.functions.contains).map Event.shadowed ++
          [.linked size] := by
  refine ⟨⟨rfl, rfl, ?_, Registry.names_merge hDistinct registry.functions world.log⟩, ?_⟩
  · exact Registry.find?_merge hDistinct registry.functions world.log
  · refine ⟨(registry.adopt functions world).1.functions.size, ?_⟩
    show (Log.push _ _).toList = _
    rw [Log.toList_push]
    exact congrArg (· ++ _) (Registry.log_merge hDistinct registry.functions world.log)

/-- Functions that are added a second time change nothing. -/
theorem Registry.Merged.adopt_again {registry linked : Registry σ}
    {functions : Table FunctionDef} (h : registry.Merged functions linked)
    (hDistinct : functions.names.Nodup) (world : World σ) :
    (linked.adopt functions world).1 = linked := by
  have hThere : ∀ entry ∈ functions.entries, linked.functions.find? entry.1 = some entry.2 := by
    intro entry hEntry
    rw [h.find?, Table.find?_of_mem hDistinct hEntry, Option.some_or]
  show { linked with functions := _ } = linked
  rw [Registry.merge_same world.log hThere]

-- ---------------------------------------------------------------------------
-- The log
-- ---------------------------------------------------------------------------

/-- **Evaluation reports nothing above the level of traces.** -/
theorem WorldInvariant.atLevel (context : Context σ) (level : Level) (hLevel : level ≠ .trace)
    (events : List Event) :
    WorldInvariant context fun world => world.log.atLevel level = events where
  report := by
    intro world hs event hTrace
    -- traces are the lowest level, which no other level lets through
    have hBelow : ¬ event.level.rank ≤ level.rank := by
      rw [hTrace]
      cases level with
      | warn => decide
      | debug => decide
      | trace => exact absurd rfl hLevel
    rw [← hs, World.report, Log.atLevel_push, if_neg hBelow, List.append_nil]
  host := by
    intro world hs own name f _ args line
    rw [← hs]
    unfold HostFunction.invoke
    cases f.respond args world.host with
    | mk reply host => cases reply <;> rfl

/-- Whether the event is the end of a run. -/
def Event.endsRun : Event → Bool
  | .runFinished _ | .runFailed _ => true
  | _ => false

/-- The number of runs of scripts that have ended. -/
def World.runs (world : World σ) : Nat :=
  (world.log.atLevel .debug).countP Event.endsRun

/-- What a run of a compiled script leaves behind, besides what it did itself:
the functions of a successful run, no warnings, and a note that it has ended. -/
structure Script.Ended (script : Script) (world : World σ) (result : Except Stop Value)
    (script' : Script) (later : World σ) : Prop where
  tree : script'.tree = script.tree
  functions : ∀ value, result = .ok value →
    ∃ functions, script'.functions = some functions ∧ functions.names.Nodup
  discarded : ∀ stop, result = .error stop → script'.functions = none
  warnings : later.log.atLevel .warn = world.log.atLevel .warn
  runs : result ≠ .error .outOfFuel → later.runs = world.runs + 1

/-- A run of a compiled script leaves what it should, whichever way it ends. -/
theorem Script.run_ended {script script' : Script} {context : Context σ} {fuel : Nat}
    {world later : World σ} {result : Except Stop Value} (hCompiled : script.isCompiled = true)
    (hRun : script.run context fuel world = (result, script', later)) :
    script.Ended world result script' later := by
  obtain ⟨program, hTree⟩ := Option.isSome_iff_exists.mp hCompiled
  -- what holds at the start of a run, and of the log at each level, holds at its end
  have hDistinct := (Invariant.distinct_functions context.maxDepth).program_final fuel program
    (s := .start world) List.nodup_nil
  have hWarnings := (WorldInvariant.atLevel context .warn nofun _).program_final fuel
    program (s := .start world) rfl
  have hEvents := (WorldInvariant.atLevel context .debug nofun _).program_final fuel
    program (s := .start world) rfl
  have hRuns : ∀ event : Event, event.level = .debug → event.endsRun = true →
      ((final (program.eval context fuel (.start world))).world.report event).runs =
        world.runs + 1 := by
    intro event hLevel hEnds
    rw [World.runs, World.report, Log.atLevel_push, hEvents, hLevel, if_pos (Nat.le_refl _),
      List.countP_append, List.countP_singleton, hEnds]
    rfl
  have hQuiet : ∀ event : Event, event.level = .debug →
      ((final (program.eval context fuel (.start world))).world.report event).log.atLevel .warn =
        world.log.atLevel .warn := by
    intro event hLevel
    rw [World.report, Log.atLevel_push, hLevel, if_neg (by decide), List.append_nil]
    exact hWarnings
  simp only [Script.run, hTree] at hRun
  cases hEval : program.eval context fuel (.start world) with
  | ok value state =>
    rw [hEval] at hRun hDistinct hRuns hQuiet
    cases hRun
    refine ⟨hTree.symm, fun _ _ => ⟨_, rfl, hDistinct⟩, ?_, hQuiet _ rfl, fun _ => hRuns _ rfl rfl⟩
    rintro _ ⟨⟩
  | error stop state =>
    rw [hEval] at hRun hWarnings hRuns hQuiet
    -- a run that is out of fuel is not noted
    cases stop with
    | fault fault =>
      cases hRun
      refine ⟨hTree.symm, ?_, fun _ _ => rfl, hQuiet _ rfl, fun _ => hRuns _ rfl rfl⟩
      rintro _ ⟨⟩
    | outOfFuel =>
      cases hRun
      refine ⟨hTree.symm, ?_, fun _ _ => rfl, hWarnings, fun hFuel => absurd rfl hFuel⟩
      rintro _ ⟨⟩

-- ---------------------------------------------------------------------------
-- The ends of a link
-- ---------------------------------------------------------------------------

/-- The ways in which a link ends. -/
inductive Registry.LinkEnd (registry : Registry σ) (script : Script) (fuel : Nat)
    (world : World σ) : Except Stop Unit × Registry σ × Script × World σ → Prop
  | notCompiled (h : script.isCompiled = false) :
    registry.LinkEnd script fuel world
      (.error (.fault ⟨.linkNotCompiled, none⟩), registry, script, world)
  /-- The functions of an earlier run are added. -/
  | known {functions : Table FunctionDef} (hCompiled : script.isCompiled = true)
    (h : script.functions = some functions) :
    registry.LinkEnd script fuel world
      (.ok (), (registry.adopt functions world).1, script, (registry.adopt functions world).2)
  | failed {stop : Stop} {script' : Script} {later : World σ}
    (hCompiled : script.isCompiled = true) (hNone : script.functions = none)
    (hRun : script.run registry.context fuel world = (.error stop, script', later)) :
    registry.LinkEnd script fuel world (.error stop, registry, script', later)
  /-- The functions of the run that the link has started are added. -/
  | ran {value : Value} {functions : Table FunctionDef} {script' : Script} {later : World σ}
    (hCompiled : script.isCompiled = true) (hNone : script.functions = none)
    (hRun : script.run registry.context fuel world = (.ok value, script', later))
    (h : script'.functions = some functions) :
    registry.LinkEnd script fuel world
      (.ok (), (registry.adopt functions later).1, script', (registry.adopt functions later).2)

/-- **There are no other ways.** -/
theorem Registry.link_end (registry : Registry σ) (script : Script) (fuel : Nat)
    (world : World σ) :
    registry.LinkEnd script fuel world (registry.link script fuel world) := by
  unfold Registry.link
  by_cases hCompiled : script.isCompiled = true
  · rw [if_pos hCompiled]
    cases hFunctions : script.functions with
    | some functions => exact .known hCompiled hFunctions
    | none =>
      cases hRun : script.run registry.context fuel world with
      | mk result rest =>
        obtain ⟨script', later⟩ := rest
        cases result with
        | error stop => exact .failed hCompiled hFunctions hRun
        | ok value =>
          obtain ⟨functions, hLeft, _⟩ := (Script.run_ended hCompiled hRun).functions value rfl
          have hEnd := LinkEnd.ran hCompiled hFunctions hRun hLeft
          simp only [hLeft, Option.getD_some]
          exact hEnd
  · rw [if_neg hCompiled]
    exact .notCompiled (Bool.not_eq_true _ ▸ hCompiled)

-- ---------------------------------------------------------------------------
-- Links of one script
-- ---------------------------------------------------------------------------

namespace Script

/-- What may happen to a script that is not run by itself. It may be linked
anywhere, at any time. -/
inductive LinkStep (σ : Type) where
  | compile (world : World σ)
  | link (registry : Registry σ) (fuel : Nat) (world : World σ)

/-- The script after a step. -/
def after (script : Script) : LinkStep σ → Script
  | .compile world => (script.compile world).2.1
  | .link registry fuel world => (registry.link script fuel world).2.2.1

/-- Whether the step is a link, and succeeds. -/
def linkedBy (script : Script) : LinkStep σ → Bool
  | .compile _ => false
  | .link registry fuel world => (registry.link script fuel world).1.isOk

/-- The script after some steps. -/
def afterAll (script : Script) (steps : List (LinkStep σ)) : Script :=
  steps.foldl after script

/-- Whether a link among the steps succeeds. -/
def linkedIn (script : Script) : List (LinkStep σ) → Bool
  | [] => false
  | step :: steps => script.linkedBy step || (script.after step).linkedIn steps

/-- The functions that are at hand have distinct names. -/
def Distinct (script : Script) : Prop :=
  ∀ functions, script.functions = some functions → functions.names.Nodup

/-- A compilation does not touch the functions. -/
theorem functions_compile (script : Script) (world : World σ) :
    (script.compile world).2.1.functions = script.functions := by
  unfold compile
  cases script.tree with
  | some program => rfl
  | none => cases Program.parse script.source <;> rfl

/-- A step leaves functions at hand if they were, or if it is a link that
succeeds. -/
theorem isSome_functions_after (script : Script) (step : LinkStep σ) :
    (script.after step).functions.isSome = (script.functions.isSome || script.linkedBy step) := by
  cases step with
  | compile world =>
    rw [after, functions_compile, linkedBy, Bool.or_false]
  | link registry fuel world =>
    rw [after, linkedBy]
    have hEnd := registry.link_end script fuel world
    generalize registry.link script fuel world = result at hEnd ⊢
    -- only a link that runs the script changes what is at hand, and it runs it only if nothing
    -- is
    cases hEnd with
    | notCompiled _ => exact (Bool.or_false _).symm
    | known _ h =>
      rw [h]
      rfl
    | failed hCompiled hNone hRun =>
      rw [(Script.run_ended hCompiled hRun).discarded _ rfl, hNone]
      rfl
    | ran hCompiled hNone hRun h =>
      rw [h, hNone]
      rfl

/-- **Functions are at hand once a link has succeeded.** -/
theorem isSome_functions_afterAll (script : Script) (steps : List (LinkStep σ)) :
    (script.afterAll steps).functions.isSome =
      (script.functions.isSome || script.linkedIn steps) := by
  -- step by step: what is at hand stays so
  induction steps generalizing script with
  | nil => exact (Bool.or_false _).symm
  | cons step steps ih =>
    show ((script.after step).afterAll steps).functions.isSome = _
    rw [ih, isSome_functions_after, linkedIn, Bool.or_assoc]

/-- One step keeps names of functions distinct. -/
theorem Distinct.after {script : Script} (h : script.Distinct) (step : LinkStep σ) :
    (script.after step).Distinct := by
  cases step with
  | compile world =>
    intro functions hFunctions
    rw [Script.after, functions_compile] at hFunctions
    exact h functions hFunctions
  | link registry fuel world =>
    rw [Script.after]
    have hEnd := registry.link_end script fuel world
    generalize registry.link script fuel world = result at hEnd ⊢
    intro functions hFunctions
    cases hEnd with
    | notCompiled _ => exact h functions hFunctions
    | known _ _ => exact h functions hFunctions
    | failed hCompiled hNone hRun =>
      rw [(Script.run_ended hCompiled hRun).discarded _ rfl] at hFunctions
      cases hFunctions
    | ran hCompiled hNone hRun _ =>
      obtain ⟨functions', hLeft, hDistinct⟩ := (Script.run_ended hCompiled hRun).functions _ rfl
      rw [hLeft] at hFunctions
      cases hFunctions
      exact hDistinct

/-- So do any steps. -/
theorem Distinct.afterAll {script : Script} (h : script.Distinct) (steps : List (LinkStep σ)) :
    (script.afterAll steps).Distinct := by
  induction steps generalizing script with
  | nil => exact h
  | cons step steps ih => exact ih (h.after step)

/-- Whatever was done to a script since it was a text, its functions have
distinct names. -/
theorem Built.distinct {script : Script} (h : script.Built σ) : script.Distinct := by
  intro functions hFunctions
  obtain ⟨program, context, fuel, world, value, state, _, _, hRun, rfl⟩ :=
    h.sound.functions functions hFunctions
  have hEnd := (Invariant.distinct_functions context.maxDepth).program_final fuel program
    (s := .start world) List.nodup_nil
  rw [hRun] at hEnd
  exact hEnd

end Script

-- ---------------------------------------------------------------------------
-- All or nothing
-- ---------------------------------------------------------------------------

/-- Adding functions runs nothing, and warns of the functions it replaces. -/
theorem Registry.adopt_log (registry : Registry σ) {functions : Table FunctionDef}
    (hDistinct : functions.names.Nodup) (world : World σ) :
    (registry.adopt functions world).2.runs = world.runs ∧
      (registry.adopt functions world).2.log.atLevel .warn = world.log.atLevel .warn ++
        (functions.names.filter registry.functions.contains).map Event.shadowed := by
  obtain ⟨_, size, hLog⟩ := registry.adopt_merged hDistinct world
  constructor
  · simp [World.runs, Log.atLevel, hLog, List.countP_append, List.countP_filter, List.countP_map,
      Event.endsRun, Level.rank, Event.level]
  · simp [Log.atLevel, hLog, List.filter_append, List.filter_map, Level.rank, Event.level]

/-- A script whose functions were just added can be linked again, and that
changes nothing. -/
theorem Registry.Merged.link_again {registry linked : Registry σ} {functions : Table FunctionDef}
    (h : registry.Merged functions linked) (hDistinct : functions.names.Nodup) {script : Script}
    (hCompiled : script.isCompiled = true) (hFunctions : script.functions = some functions)
    (fuel : Nat) (world : World σ) :
    (linked.link script fuel world).1 = .ok () ∧ (linked.link script fuel world).2.1 = linked := by
  unfold Registry.link
  rw [if_pos hCompiled, hFunctions]
  exact ⟨rfl, h.adopt_again hDistinct world⟩

/-- **A link is all or nothing, and the last link wins.** Take a script that has
come about in any way, and has since been compiled and linked, anywhere and with
any success, but not run by itself. The link runs it just if it is compiled, its
functions were not at hand at first and no link has succeeded since.
The link fails just if the script is not compiled or its run fails, and then
leaves the registry as it is.
If the link succeeds, each function of the script is what its name now stands
for, and all other names are as before; the new names follow the old ones; there
is a warning for each name that was linked already, in order, and no other; and
to link the script again at once changes nothing.
The one run that a link may start is the only one in it, and a link that starts
none does not call the embedding program. -/
theorem Registry.link_is_all_or_nothing {script : Script} (hScript : script.Built σ)
    (steps : List (Script.LinkStep σ)) (registry : Registry σ) (fuel : Nat) (world : World σ) :
    let before := script.afterAll steps
    let starts := before.isCompiled && script.functions.isNone && !script.linkedIn steps
    let link := registry.link before fuel world
    (∀ stop, link.1 = .error stop ↔
      before.isCompiled = false ∧ stop = .fault ⟨.linkNotCompiled, none⟩ ∨
      starts = true ∧ (before.run registry.context fuel world).1 = .error stop) ∧
    (∀ stop, link.1 = .error stop → link.2.1 = registry) ∧
    (link.1 = .ok () → ∃ functions, link.2.2.1.functions = some functions ∧
      functions.names.Nodup ∧ registry.Merged functions link.2.1 ∧
      link.2.2.2.log.atLevel .warn = world.log.atLevel .warn ++
        (functions.names.filter registry.functions.contains).map Event.shadowed ∧
      ∀ fuel' world', (link.2.1.link link.2.2.1 fuel' world').1 = .ok () ∧
        (link.2.1.link link.2.2.1 fuel' world').2.1 = link.2.1) ∧
    (link.1 ≠ .error .outOfFuel →
      link.2.2.2.runs = world.runs + if starts = true then 1 else 0) ∧
    (starts = false → world.SameHost link.2.2.2) := by
  intro before starts link
  have hAtHand : before.functions.isSome = (script.functions.isSome || script.linkedIn steps) :=
    script.isSome_functions_afterAll steps
  -- so the earlier links matter only through what they left of the script
  have hStarts : starts = (before.isCompiled && before.functions.isNone) := by
    show (before.isCompiled && script.functions.isNone && !script.linkedIn steps) = _
    rw [← Option.not_isSome, ← Option.not_isSome, hAtHand, Bool.not_or, Bool.and_assoc]
  have hBefore : before.Distinct := hScript.distinct.afterAll steps
  have hEnd : registry.LinkEnd before fuel world link := registry.link_end before fuel world
  clear_value link starts
  subst hStarts
  -- how the link ends settles each part
  cases hEnd with
  | notCompiled h =>
    rw [h]
    refine ⟨fun stop => ?_, fun _ _ => rfl, ?_, fun _ => rfl, fun _ => ⟨rfl, rfl⟩⟩
    · simp [eq_comm]
    · rintro ⟨⟩
  | known hCompiled h =>
    rw [hCompiled, h]
    have hNames := hBefore _ h
    obtain ⟨hRuns, hWarnings⟩ := registry.adopt_log hNames world
    obtain ⟨hMerged, _⟩ := registry.adopt_merged hNames world
    refine ⟨fun stop => ?_, ?_, fun _ => ?_, fun _ => hRuns, fun _ => ⟨rfl, rfl⟩⟩
    · simp
    · rintro _ ⟨⟩
    · exact ⟨_, rfl, hNames, hMerged, hWarnings, hMerged.link_again hNames hCompiled h⟩
  | failed hCompiled hNone hRun =>
    rw [hCompiled, hNone, hRun]
    have hEnded := Script.run_ended hCompiled hRun
    refine ⟨fun stop => ?_, fun _ _ => rfl, ?_, fun hFuel => ?_, ?_⟩
    · simp
    · rintro ⟨⟩
    · exact hEnded.runs fun hSame => hFuel (by rw [Except.error.inj hSame])
    · rintro ⟨⟩
  | ran hCompiled hNone hRun h =>
    rw [hCompiled, hNone, hRun]
    have hEnded := Script.run_ended hCompiled hRun
    obtain ⟨functions, hLeft, hNames⟩ := hEnded.functions _ rfl
    obtain rfl : functions = _ := Option.some.inj (hLeft.symm.trans h)
    have hCompiled' : Script.isCompiled _ = true :=
      (congrArg Option.isSome hEnded.tree).trans hCompiled
    obtain ⟨hRuns, hWarnings⟩ := registry.adopt_log hNames _
    obtain ⟨hMerged, _⟩ := registry.adopt_merged hNames _
    refine ⟨fun stop => ?_, ?_, fun _ => ?_, fun _ => ?_, ?_⟩
    · simp
    · rintro _ ⟨⟩
    · refine ⟨_, h, hNames, hMerged, ?_, hMerged.link_again hNames hCompiled' h⟩
      rw [hWarnings, hEnded.warnings]
    · exact hRuns.trans (hEnded.runs nofun)
    · rintro ⟨⟩

/-- The script calls the host, defines `f` anew and adds `g`. When it is linked
again, the host is not called. -/
theorem Registry.link_is_all_or_nothing_twice :
    let note : HostFunction Unit := ⟨"note", fun _ host => (.returned .zero, host)⟩
    let registry : Registry Unit := ⟨⟨[("f", ⟨"f", [], [], 7⟩)]⟩, ⟨[("note", note)]⟩, 9⟩
    let script := ((Script.ofSource "note(); def f() do g(); end; def g() do 1; end;").compile
      (World.start ())).2.1
    let link := registry.link script 9 (.start ())
    link.1 = .ok () ∧ link.2.2.2.runs = 1 ∧
    (∃ functions, link.2.2.1.functions = some functions ∧ functions.names.Nodup ∧
      registry.Merged functions link.2.1 ∧
      link.2.2.2.log.atLevel .warn =
        (functions.names.filter registry.functions.contains).map Event.shadowed ∧
      ∀ fuel' world', (link.2.1.link link.2.2.1 fuel' world').1 = .ok () ∧
        (link.2.1.link link.2.2.1 fuel' world').2.1 = link.2.1) ∧
    ∀ fuel (world : World Unit), world.SameHost (registry.link link.2.2.1 fuel world).2.2.2 := by
  intro note registry script link
  have hScript : script.Built Unit := .compile (.ofSource _) _
  have hOk : link.1 = .ok () := by decide +kernel
  have hRuns : link.2.2.2.runs = 1 := by decide +kernel
  have hLinked : script.linkedIn [.link registry 9 (.start ())] = true := by decide +kernel
  have hFirst := Registry.link_is_all_or_nothing hScript [] registry 9 (.start ())
  have hSecond := Registry.link_is_all_or_nothing hScript [.link registry 9 (.start ())] registry
  refine ⟨hOk, hRuns, hFirst.2.2.1 hOk, fun fuel world => ?_⟩
  refine (hSecond fuel world).2.2.2.2 ?_
  rw [hLinked, Bool.not_true, Bool.and_false]

end Scriptlet
