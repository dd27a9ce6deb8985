import Scriptlet.Token
import Scriptlet.Value

/-!
# Scriptlet — faults

Everything that can go wrong, as data. A `Cause` says what happened, a `Fault` adds the source line
where there is one, and a `Stop` is what ends a computation early: a fault, or the end of the fuel
that bounds it. The wording of messages is in `Scriptlet.Diagnostic`.

Scanning, parsing and evaluating are computations on a state that end with a value or stop early.
What a sequence of two of them does is settled by how the first one ends; `bind_of_ok`,
`bind_of_error` and `exists_of_bind_ok` are the steps by which runs are taken apart.
-/

namespace Scriptlet

/-- What the grammar wanted at the place of an unexpected token. -/
inductive Expectation where
  | loopBody
  | loopEnd
  | branchBody
  | branchEnd
  | endSemicolon
  | functionName
  | parametersOpen
  | parameterName
  | parametersClose
  | functionBody
  | functionEnd
  | topLevelDefinition
  | leadingAssignment
  | expressionEnd
  | groupEnd
  | operand
  | argumentsEnd
  | statement
deriving DecidableEq, Repr

/-- What went wrong. -/
inductive Cause where
  /-- Text that starts no token. -/
  | unrecognized (text : String)
  /-- A number that does not fit into 64 bits, as it is written. -/
  | literalRange (text : String)
  /-- A token that the grammar does not allow where it stands. -/
  | unexpected (token : Token) (expected : Expectation)
  /-- An expression whose operands and operators do not alternate, as it is rendered. -/
  | malformedExpression (rendered : String)
  | undefinedVariable (name : String)
  | undefinedFunction (name : String)
  /-- A call with fewer arguments than the function, defined at line `line`, has parameters. -/
  | tooFewArguments (name : String) (params : List String) (line : Nat) (received : Nat)
  | textCondition
  | operandTypes (op : Operator) (lhs rhs : ValueType)
  | divisionByZero
  | moduloByZero
  | overflow (op : Operator)
  | duplicateFunction (name : String)
  /-- A host function that reported a failure. -/
  | hostFailed (name : String) (message : String)
  /-- A host function that broke off, with its reason if it gave one. -/
  | hostCrashed (name : String) (reason : Option String)
  | callDepth (limit : Nat) (name : String)
  | notCompiled
  | linkNotCompiled
deriving DecidableEq, Repr

/-- A cause and the source line it belongs to, if there is one. -/
structure Fault where
  cause : Cause
  line : Option Nat
deriving DecidableEq, Repr

/-- A fault at a source line. -/
def Fault.at (cause : Cause) (line : Nat) : Fault := ⟨cause, some line⟩

/-- The fault of an unexpected token. The end of the input has no line. -/
def Fault.unexpected (token : Token) (expected : Expectation) : Fault :=
  ⟨.unexpected token expected, if token.isEof then none else some token.line⟩

/-- What ends a computation early. -/
inductive Stop where
  | fault (fault : Fault)
  | outOfFuel
deriving DecidableEq, Repr

-- ---------------------------------------------------------------------------
-- Computations that may stop
-- ---------------------------------------------------------------------------

section Computation

variable {σ α β : Type} {m : EStateM Stop σ α} {f : α → EStateM Stop σ β}

/-- The second computation starts where the first one ended. -/
theorem bind_of_ok {s s' : σ} {a : α} (h : m s = .ok a s') : (m >>= f) s = f a s' := by
  show EStateM.bind m f s = f a s'
  rw [EStateM.bind, h]

/-- A computation that stops is not followed by another. -/
theorem bind_of_error {s s' : σ} {stop : Stop} (h : m s = .error stop s') :
    (m >>= f) s = .error stop s' := by
  show EStateM.bind m f s = .error stop s'
  rw [EStateM.bind, h]

/-- A sequence that ends with a value has two parts that do. -/
theorem exists_of_bind_ok {s s'' : σ} {b : β} (h : (m >>= f) s = .ok b s'') :
    ∃ a s', m s = .ok a s' ∧ f a s' = .ok b s'' := by
  cases hFirst : m s with
  | ok a s' => exact ⟨a, s', rfl, (bind_of_ok hFirst).symm.trans h⟩
  | error stop s' => cases (bind_of_error hFirst).symm.trans h

/-- What follows a look at the state starts in that state. -/
theorem bind_get {f : σ → EStateM Stop σ β} (s : σ) : (get >>= f) s = f s s :=
  bind_of_ok rfl

/-- The way a run ends, without the state it leaves. -/
def outcome : EStateM.Result Stop σ α → Except Stop α
  | .ok a _ => .ok a
  | .error stop _ => .error stop

/-- The state in which a run ends, however it ends. -/
def final : EStateM.Result Stop σ α → σ
  | .ok _ s => s
  | .error _ s => s

end Computation

end Scriptlet
