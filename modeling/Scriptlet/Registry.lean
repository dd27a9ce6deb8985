import Scriptlet.Host
import Scriptlet.Table
import Scriptlet.Tree

/-!
# Scriptlet — the registry of shared functions

A registry holds what many programs share: the functions of linked libraries and the host
functions, together with the call depth that its own runs allow. A `Context` is what one run sees:
perhaps a registry, and a limit. Names are resolved in the program's own functions first, then in
the linked ones, then in the host's.
-/

namespace Scriptlet

/-- The call depth allowed where nothing else is said. -/
def defaultDepth : Nat := 2048

/-- Functions shared between programs. -/
structure Registry (σ : Type) where
  /-- The functions of linked libraries. -/
  functions : Table FunctionDef
  hosts : Table (HostFunction σ)
  /-- How many calls may be active in runs that the registry starts. -/
  maxDepth : Nat

/-- What a run of a program sees besides the program. -/
structure Context (σ : Type) where
  registry : Option (Registry σ)
  /-- How many calls may be active at once. -/
  maxDepth : Nat

/-- What a function name stands for. -/
inductive Callee (σ : Type) where
  | script (f : FunctionDef)
  | host (f : HostFunction σ)

namespace Registry

variable {σ : Type}

/-- The registry without functions. -/
def empty (maxDepth : Nat) : Registry σ := ⟨.empty, .empty, maxDepth⟩

/-- Adds a host function, in place of an older one of its name. -/
def register (registry : Registry σ) (f : HostFunction σ) : Registry σ :=
  { registry with hosts := registry.hosts.insert f.name f }

/-- The function that a name stands for: a linked one, or else a host function. -/
def resolve (registry : Registry σ) (name : String) : Option (Callee σ) :=
  match registry.functions.find? name with
  | some f => some (.script f)
  | none => (registry.hosts.find? name).map .host

/-- The context of runs that the registry starts. -/
def context (registry : Registry σ) : Context σ := ⟨some registry, registry.maxDepth⟩

end Registry

/-- The function that a name stands for in a program with the given functions of its own. -/
def Context.resolve {σ : Type} (context : Context σ) (own : Table FunctionDef) (name : String) :
    Option (Callee σ) :=
  match own.find? name with
  | some f => some (.script f)
  | none => context.registry.bind (·.resolve name)

end Scriptlet
