import Scriptlet.Fault
import Scriptlet.Table
import Scriptlet.Tree
import Scriptlet.Value

/-!
# Scriptlet — frames and scoping

Variables live in frames: one main frame for the whole program and one frame for each active call.
A call frame hangs on the frame of its *caller*, so a name is looked up along the chain of active
calls and not where the function is written. Reading finds the nearest frame that binds the name.
Writing goes to that same frame, and to the main frame if there is none; it never adds a name to a
call frame.
-/

namespace Scriptlet

/-- The variables bound in one place, and the functions defined there. -/
structure Frame where
  bindings : Table Value
  functions : Table FunctionDef

namespace Frame

/-- The frame that binds nothing. -/
def empty : Frame := ⟨.empty, .empty⟩

instance : Inhabited Frame := ⟨empty⟩

/-- Whether the frame binds the variable. -/
def binds (frame : Frame) (name : String) : Bool :=
  frame.bindings.contains name

/-- The value of a variable that the frame itself binds. -/
def get? (frame : Frame) (name : String) : Option Value :=
  frame.bindings.find? name

/-- Binds a variable in this frame. -/
def define (frame : Frame) (name : String) (value : Value) : Frame :=
  { frame with bindings := frame.bindings.insert name value }

/-- The frame of a call: each parameter is bound to its argument, and surplus arguments are
dropped. -/
def ofArguments (params : List String) (args : List Value) : Frame :=
  (params.zip args).foldl (fun frame (name, value) => frame.define name value) empty

/-- Adds a function, unless one of its name is there already. -/
def defineFunction (frame : Frame) (f : FunctionDef) : Except Fault Frame :=
  if frame.functions.contains f.name then .error (.at (.duplicateFunction f.name) f.line)
  else .ok { frame with functions := frame.functions.insert f.name f }

/-- After a write, a frame has the new value for that variable and the old one
for every other. -/
theorem get?_define (frame : Frame) (name other : String) (value : Value) :
    (frame.define name value).get? other =
      if other == name then some value else frame.get? other :=
  frame.bindings.find?_insert name other value

end Frame

/-- What a look-up found, which is a fault at the given line if it is nothing. -/
def demandVariable (name : String) (line : Nat) : Option Value → Except Fault Value
  | some value => .ok value
  | none => .error (.at (.undefinedVariable name) line)

/-- The frames of the active calls, and the main frame at their end. -/
structure Chain where
  /-- The frames of the active calls, the innermost first. -/
  calls : List Frame
  main : Frame

namespace Chain

/-- The chain at the start of a program: no call is active. -/
def start : Chain := ⟨[], .empty⟩

instance : Inhabited Chain := ⟨start⟩

/-- All frames, the innermost first and the main frame last. -/
def frames (chain : Chain) : List Frame :=
  chain.calls ++ [chain.main]

/-- The value of a variable in the nearest frame that binds it. -/
def get? (chain : Chain) (name : String) : Option Value :=
  match chain.calls.findSome? (·.get? name) with
  | some value => some value
  | none => chain.main.get? name

/-- Writes a variable in the first frame of a list that binds it, if one does. -/
def setFirst? (name : String) (value : Value) : List Frame → Option (List Frame)
  | [] => none
  | frame :: frames =>
    if frame.binds name then some (frame.define name value :: frames)
    else (setFirst? name value frames).map (frame :: ·)

/-- Writes a variable in the nearest frame that binds it, or else in the main frame. -/
def set (chain : Chain) (name : String) (value : Value) : Chain :=
  match setFirst? name value chain.calls with
  | some calls => { chain with calls }
  | none => { chain with main := chain.main.define name value }

/-- Puts the frame of a new call in front. -/
def enter (chain : Chain) (frame : Frame) : Chain :=
  { chain with calls := frame :: chain.calls }

/-- Drops the frame of the innermost call. -/
def leave (chain : Chain) : Chain :=
  { chain with calls := chain.calls.tail }

/-- A look-up goes through all the frames in order, the main frame last. -/
theorem get?_eq_findSome? (chain : Chain) (name : String) :
    chain.get? name = chain.frames.findSome? (·.get? name) := by
  unfold get? frames
  rw [List.findSome?_append]
  cases chain.calls.findSome? (·.get? name) <;> simp

/-- To enter a call and to leave it gives the chain back. -/
@[simp] theorem leave_enter (chain : Chain) (frame : Frame) :
    (chain.enter frame).leave = chain := rfl

/-- To write a variable is not to define a function. -/
@[simp]
theorem functions_set (chain : Chain) (name : String) (value : Value) :
    (chain.set name value).main.functions = chain.main.functions := by
  unfold set
  cases setFirst? name value chain.calls <;> rfl

/-- The two chains differ at most in the functions that are defined in the main frame. -/
structure SameVariables (chain other : Chain) : Prop where
  calls : chain.calls = other.calls
  bindings : chain.main.bindings = other.main.bindings

namespace SameVariables

variable {chain other : Chain}

/-- A variable has one value in both. -/
theorem get?_eq (h : chain.SameVariables other) (name : String) :
    chain.get? name = other.get? name := by
  unfold get? Frame.get?
  rw [h.calls, h.bindings]

/-- A write to both goes to one frame. -/
theorem set (h : chain.SameVariables other) (name : String) (value : Value) :
    (chain.set name value).SameVariables (other.set name value) := by
  unfold Chain.set
  rw [h.calls]
  cases setFirst? name value other.calls with
  | some calls => exact ⟨rfl, h.bindings⟩
  | none => exact ⟨rfl, congrArg (·.insert name value) h.bindings⟩

end SameVariables

end Chain

end Scriptlet
