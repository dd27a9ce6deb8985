import Scriptlet.Log

/-!
# Scriptlet — host functions

Functions that the embedding program offers to scripts. A host function answers a list of arguments
with a value, a failure or a crash, and may change the state `σ` of the embedding program while it
does. The `World` is that state together with what an observer sees: the host calls and the log.
-/

namespace Scriptlet

/-- How a host function answers. -/
inductive HostReply where
  | returned (value : Value)
  | failed (message : String)
  /-- The function broke off, with a reason if it gave one. -/
  | crashed (reason : Option String)
deriving Repr

/-- A function of the embedding program, under the name that scripts use. -/
structure HostFunction (σ : Type) where
  name : String
  respond : List Value → σ → HostReply × σ

/-- The short description of a host function. -/
def HostFunction.render {σ : Type} (f : HostFunction σ) : String :=
  "<host fn " ++ f.name ++ ">"

/-- One call of a host function. -/
structure HostCall where
  name : String
  args : List Value
deriving DecidableEq, Repr

/-- The state of the embedding program, and what happened to be seen from outside. -/
structure World (σ : Type) where
  host : σ
  /-- The calls of host functions, the newest first. -/
  newestCalls : List HostCall
  log : Log

namespace World

variable {σ : Type}

/-- A world in which nothing has happened yet. -/
def start (host : σ) : World σ := ⟨host, [], .empty⟩

/-- The calls of host functions, the oldest first. -/
def hostCalls (world : World σ) : List HostCall :=
  world.newestCalls.reverse

/-- Forgets the calls of host functions. -/
def forgetCalls (world : World σ) : World σ :=
  { world with newestCalls := [] }

/-- Adds an event to the log. -/
def report (world : World σ) (event : Event) : World σ :=
  { world with log := world.log.push event }

/-- Adds a later log to the log. -/
def reportAll (world : World σ) (log : Log) : World σ :=
  { world with log := world.log.append log }

/-- Adds a call of a host function. -/
def record (world : World σ) (call : HostCall) : World σ :=
  { world with newestCalls := call :: world.newestCalls }

/-- A call is recorded after those that were made before it. -/
@[simp] theorem hostCalls_record (world : World σ) (call : HostCall) :
    (world.record call).hostCalls = world.hostCalls ++ [call] := by
  simp [record, hostCalls]

end World

/-- Calls a host function. The call is recorded before the function answers, and a failure or crash
becomes a fault at the line of the call. -/
def HostFunction.invoke {σ : Type} (f : HostFunction σ) (args : List Value) (line : Option Nat) :
    EStateM Stop (World σ) Value := fun world =>
  let (reply, host) := f.respond args world.host
  let world := { world.record ⟨f.name, args⟩ with host }
  match reply with
  | .returned value => .ok value world
  | .failed message => .error (.fault ⟨.hostFailed f.name message, line⟩) world
  | .crashed reason => .error (.fault ⟨.hostCrashed f.name reason, line⟩) world

end Scriptlet
