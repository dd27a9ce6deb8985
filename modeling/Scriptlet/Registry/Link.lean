import Scriptlet.Script

/-!
# Scriptlet — linking and calling from outside

Linking a script makes its functions known to every program that is run against the registry later.
A script that has not run successfully is run first. Names that are linked already get the new
function and keep their place, with a warning; new names go last. If the script's own run fails,
the registry stays as it is.
-/

namespace Scriptlet

namespace Registry

variable {σ : Type}

/-- Registers a host function and reports it. -/
def registerIn (registry : Registry σ) (f : HostFunction σ) (world : World σ) :
    Registry σ × World σ :=
  (registry.register f, world.report (.registered f.name))

/-- Adds functions to a table one after the other, with a warning for each name that is there
already. -/
def merge (table : Table FunctionDef) (log : Log) :
    List (String × FunctionDef) → Table FunctionDef × Log
  | [] => (table, log)
  | (name, f) :: rest =>
    let log := if table.contains name then log.push (.shadowed name) else log
    merge (table.insert name f) log rest

/-- Adds the functions of a script's last run to the linked ones. -/
def adopt (registry : Registry σ) (functions : Table FunctionDef) (world : World σ) :
    Registry σ × World σ :=
  let (table, log) := merge registry.functions world.log functions.entries
  ({ registry with functions := table },
    { world with log := log.push (.linked table.size) })

/-- Links a script. -/
def link (registry : Registry σ) (script : Script) (fuel : Nat) (world : World σ) :
    Except Stop Unit × Registry σ × Script × World σ :=
  if script.isCompiled then
    match script.functions with
    | some functions =>
      let (registry, world) := registry.adopt functions world
      (.ok (), registry, script, world)
    | none =>
      match script.run registry.context fuel world with
      | (.ok _, script, world) =>
        let (registry, world) := registry.adopt (script.functions.getD .empty) world
        (.ok (), registry, script, world)
      | (.error stop, script, world) => (.error stop, registry, script, world)
  else (.error (.fault ⟨.linkNotCompiled, none⟩), registry, script, world)

/-- Calls a linked function or a host function from outside a script, from a fresh start. -/
def call (registry : Registry σ) (name : String) (args : List Value) (fuel : Nat)
    (world : World σ) : Except Stop Value × World σ :=
  match registry.context.call fuel name args none (.start world) with
  | .ok value state => (.ok value, state.world)
  | .error stop state => (.error stop, state.world)

end Registry

end Scriptlet
