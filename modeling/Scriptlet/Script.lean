import Scriptlet.Evaluation.Run
import Scriptlet.Tree.Parse

/-!
# Scriptlet — scripts

A script is a source text on its way through its life: first only text, then compiled to a tree,
then run, any number of times. The last run leaves its functions behind if it succeeded. A script
is compiled at most once, since its text does not change.
-/

namespace Scriptlet

/-- A source text, with what is known of it. -/
structure Script where
  source : String
  /-- The tree, once the script is compiled. -/
  tree : Option Program
  /-- The functions that the last run defined, if it succeeded. -/
  functions : Option (Table FunctionDef)

namespace Script

variable {σ : Type}

/-- A script that is not yet compiled. -/
def ofSource (source : String) : Script := ⟨source, none, none⟩

/-- Whether the script is compiled. -/
def isCompiled (script : Script) : Bool :=
  script.tree.isSome

/-- Compiles the script, unless it is compiled already. -/
def compile (script : Script) (world : World σ) : Except Stop Unit × Script × World σ :=
  match script.tree with
  | some _ => (.ok (), script, world.report .alreadyCompiled)
  | none =>
    match Program.parse script.source with
    | .ok program scanner =>
      (.ok (), { script with tree := some program },
        (world.reportAll scanner.log).report (.compiled program.length))
    | .error stop scanner => (.error stop, script, world.reportAll scanner.log)

/-- Runs the script from a fresh start. -/
def run (script : Script) (context : Context σ) (fuel : Nat) (world : World σ) :
    Except Stop Value × Script × World σ :=
  match script.tree with
  | none => (.error (.fault ⟨.notCompiled, none⟩), script, world)
  | some program =>
    match program.eval context fuel (.start world) with
    | .ok value state =>
      (.ok value, { script with functions := some state.chain.main.functions },
        state.world.report (.runFinished value))
    | .error (.fault fault) state =>
      (.error (.fault fault), { script with functions := none },
        state.world.report (.runFailed fault))
    | .error .outOfFuel state =>
      (.error .outOfFuel, { script with functions := none }, state.world)

end Script

end Scriptlet
