import Scriptlet.Proofs.Scopes

/-!
# Scriptlet — parameters shield the caller

Under dynamic scoping a function that is called may write to the variables of
its callers. A parameter puts a stop to that for its own name: the frame of the
call binds the name, so a write to it from inside the call, however deep, finds
that frame or a nearer one and never gets behind it.

* `Chain.setFirst?_append` — a write goes to the frames in front if one of them
  binds the name, and otherwise passes them;
* `RunState.Shielded`, `Invariant.shielded` — behind a frame that binds the
  name, nothing happens to the name;
* `Context.calls_keep_parameters` — calls of a function, by name or not, leave
  the bindings of its parameters in all frames of the caller.
-/

namespace Scriptlet

-- ---------------------------------------------------------------------------
-- Writes and the frames that they pass
-- ---------------------------------------------------------------------------

/-- Both frames bind the variable to the same value, or neither binds it. -/
def Frame.SameAt (name : String) (frame later : Frame) : Prop :=
  later.get? name = frame.get? name

namespace Frame.SameAt

variable {name : String}

theorem define_of_ne {other : String} (h : other ≠ name) (frame : Frame) (value : Value) :
    frame.SameAt name (frame.define other value) := by
  rw [SameAt, get?_define, if_neg (by simpa using h.symm)]

instance : Std.Refl (SameAt name) :=
  ⟨fun _ => rfl⟩

instance : IsTrans Frame (SameAt name) :=
  ⟨fun _ _ _ h h' => h'.trans h⟩

end Frame.SameAt

namespace Chain

/-- **A write goes to the frames in front, or it passes them.** -/
theorem setFirst?_append (name : String) (value : Value) (front behind : List Frame) :
    setFirst? name value (front ++ behind) =
      match setFirst? name value front with
      | some front' => some (front' ++ behind)
      | none => (setFirst? name value behind).map (front ++ ·) := by
  -- induction on the frames in front, of which the write takes the first that binds the name
  induction front with
  | nil => simp [setFirst?]
  | cons frame front ih =>
    rw [List.cons_append, setFirst?, setFirst?, ih]
    by_cases hBinds : frame.binds name = true
    · rw [if_pos hBinds, if_pos hBinds]
      rfl
    · rw [if_neg hBinds, if_neg hBinds]
      cases setFirst? name value front with
      | some front' => rfl
      | none => cases setFirst? name value behind <;> rfl

end Chain

-- ---------------------------------------------------------------------------
-- Behind a frame that binds the variable
-- ---------------------------------------------------------------------------

variable {σ : Type}

namespace RunState

/-- In all frames of the first state, the variable is bound as it is in those of
the second. -/
def Keeps (name : String) (state later : RunState σ) : Prop :=
  List.Forall₂ (Frame.SameAt name) state.chain.frames later.chain.frames

/-- Behind the frames of the active calls stands one that binds the variable.
Behind that one stand the call frames of `base`, with the variable as it was
there, and so does the main frame. -/
structure Shielded (name : String) (base : RunState σ) (active : List Activation)
    (state : RunState σ) : Prop where
  calls : ∃ inner shield outer, state.chain.calls = inner ++ shield :: outer ∧
    inner.length = active.length ∧ shield.binds name = true ∧
    List.Forall₂ (Frame.SameAt name) base.chain.calls outer
  main : base.chain.main.SameAt name state.chain.main

/-- The state inside a call that binds the variable. -/
theorem shielded_enter {name : String} {frame : Frame} (h : frame.binds name = true)
    (base : RunState σ) : base.Shielded name [] (Eval.enter frame base) where
  calls := ⟨[], frame, base.chain.calls, rfl, rfl, h, List.forall₂_refl _⟩
  main := rfl

/-- When the call is over, its caller has the variable as before. -/
theorem Shielded.keeps_leave {name : String} {base state : RunState σ}
    (h : base.Shielded name [] state) : base.Keeps name (Eval.leave state) := by
  obtain ⟨⟨inner, shield, outer, hCalls, hLength, _, hOuter⟩, hMain⟩ := h
  -- no call is active any more, so the shield stands first and is the frame that is left
  obtain rfl := List.length_eq_zero_iff.mp hLength
  have hTail : (Eval.leave state).chain.calls = outer := by
    show state.chain.calls.tail = outer
    rw [hCalls, List.nil_append, List.tail_cons]
  rw [Keeps, Chain.frames, Chain.frames, hTail]
  exact List.rel_append hOuter (.cons hMain .nil)

/-- **A write does not get behind the frame that binds the variable.** -/
theorem Shielded.set {name : String} {base state : RunState σ} {active : List Activation}
    (h : base.Shielded name active state) (other : String) (value : Value) :
    base.Shielded name active { state with chain := state.chain.set other value } := by
  obtain ⟨⟨inner, shield, outer, hCalls, hLength, hBinds, hOuter⟩, hMain⟩ := h
  unfold Chain.set
  rw [hCalls, Chain.setFirst?_append]
  -- the write goes to an inner frame, to the shield, to a frame behind it or to the main frame
  cases hInner : Chain.setFirst? other value inner with
  | some inner' =>
    have hWritten : List.Forall₂ Frame.Written inner inner' :=
      Chain.setFirst?_forall₂ (fun _ => .write value .unchanged) hInner
    have hLength' := hWritten.length_eq.symm.trans hLength
    exact ⟨⟨inner', shield, outer, rfl, hLength', hBinds, hOuter⟩, hMain⟩
  | none =>
    rw [Chain.setFirst?]
    by_cases hShield : shield.binds other = true
    · rw [if_pos hShield]
      refine ⟨⟨inner, shield.define other value, outer, rfl, hLength, ?_, hOuter⟩, hMain⟩
      rw [Frame.binds_define, hBinds, Bool.or_true]
    · rw [if_neg hShield]
      -- the write passes the shield, so it is one to another variable
      have hOther : other ≠ name := by
        rintro rfl
        exact hShield hBinds
      cases hSet : Chain.setFirst? other value outer with
      | some outer' =>
        have hWritten : List.Forall₂ (Frame.SameAt name) outer outer' :=
          Chain.setFirst?_forall₂ (fun frame _ => .define_of_ne hOther frame value) hSet
        have hOuter' := Frame.forall₂_trans hOuter hWritten
        exact ⟨⟨inner, shield, outer', rfl, hLength, hBinds, hOuter'⟩, hMain⟩
      -- a new global, but of another name
      | none =>
        have hDefine := Frame.SameAt.define_of_ne hOther state.chain.main value
        exact ⟨⟨inner, shield, outer, rfl, hLength, hBinds, hOuter⟩, hDefine.trans hMain⟩

end RunState

/-- **Behind a frame that binds the variable nothing happens to it**, whatever
a run does. -/
theorem Invariant.shielded (name : String) (base : RunState σ) (maxDepth : Nat) :
    Invariant maxDepth (base.Shielded name) where
  set := fun h other value => h.set other value
  define := by
    intro active s h f main hMain
    -- a definition leaves the variables of the main frame as they are
    refine ⟨h.calls, ?_⟩
    unfold Frame.defineFunction at hMain
    split at hMain
    · cases hMain
    · cases hMain
      exact h.main
  world := fun h _ => ⟨h.calls, h.main⟩
  enter := by
    intro active s h _ f args _
    obtain ⟨inner, shield, outer, hCalls, hLength, hBinds, hOuter⟩ := h.calls
    -- the new frame joins the inner ones, and the shield stays where it is
    refine ⟨⟨.ofArguments f.params args :: inner, shield, outer, ?_, ?_, hBinds, hOuter⟩, h.main⟩
    · show .ofArguments f.params args :: s.chain.calls = _
      rw [hCalls, List.cons_append]
    · rw [List.length_cons, List.length_cons, hLength]
  leave := by
    intro a active s h
    obtain ⟨inner, shield, outer, hCalls, hLength, hBinds, hOuter⟩ := h.calls
    -- the frame that is left is an inner one, since the call that it belongs to is active
    obtain ⟨frame, inner, rfl⟩ := List.exists_cons_of_length_eq_add_one hLength
    refine ⟨⟨inner, shield, outer, ?_, Nat.succ.inj hLength, hBinds, hOuter⟩, h.main⟩
    show s.chain.calls.tail = _
    rw [hCalls, List.cons_append, List.tail_cons]

-- ---------------------------------------------------------------------------
-- Calls
-- ---------------------------------------------------------------------------

theorem final_bind_pure {S α β : Type} (m : EStateM Stop S α) (g : α → β) (s : S) :
    final ((m >>= fun a => pure (g a)) s) = final (m s) := by
  cases h : m s with
  | ok a s' => rw [bind_of_ok h]; rfl
  | error stop s' => rw [bind_of_error h]; rfl

/-- However the body ends, its frame is left when it does. -/
theorem Eval.final_inFrame {α : Type} (frame : Frame) (body : Eval σ α) (state : RunState σ) :
    final (Eval.inFrame frame body state) = Eval.leave (final (body (Eval.enter frame state))) := by
  unfold Eval.inFrame
  cases body (Eval.enter frame state) <;> rfl

/-- A call of a script function leaves the state alone, apart from the log, or
it is over after its body has run in a frame of its own. -/
theorem FunctionDef.final_call (f : FunctionDef) (maxDepth : Nat) (body : Eval σ Flow)
    (args : List Value) (line : Option Nat) (state : RunState σ) :
    final (f.call maxDepth body args line state) = state ∨
      f.params.length ≤ args.length ∧ ∃ world,
        final (f.call maxDepth body args line state) =
          Eval.leave
            (final (body (Eval.enter (.ofArguments f.params args) { state with world }))) := by
  unfold FunctionDef.call
  -- a call with too few arguments and one that is too deep both end before the body
  by_cases hFew : args.length < f.params.length
  · rw [if_pos hFew]
    exact Or.inl rfl
  · rw [if_neg hFew, bind_get]
    by_cases hDeep : maxDepth ≤ state.depth
    · rw [if_pos hDeep]
      exact Or.inl rfl
    · rw [if_neg hDeep]
      have hReport : Eval.report (.callingScript f.name state.depth) state =
          .ok () { state with world := state.world.report _ } := rfl
      rw [bind_of_ok hReport, final_bind_pure, Eval.final_inFrame]
      exact Or.inr ⟨Nat.not_lt.mp hFew, _, rfl⟩

section Calls

variable {context : Context σ} {f : FunctionDef} {x : String}

/-- The frame of a call is a shield for each of its parameters. -/
theorem FunctionDef.call_keeps (hParam : x ∈ f.params) (fuel : Nat) (args : List Value)
    (line : Option Nat) (state : RunState σ) :
    state.Keeps x (final (f.call context.maxDepth
      (Stmt.execAll (context.call fuel) fuel .zero f.body) args line state)) := by
  rcases f.final_call context.maxDepth (Stmt.execAll (context.call fuel) fuel .zero f.body) args
    line state with hSame | ⟨hArgs, world, hEnd⟩
  -- the call never came to its body
  · rw [hSame]
    exact List.forall₂_refl _
  · have hBinds := (Frame.binds_ofArguments hArgs x).mpr hParam
    have hInside := RunState.shielded_enter hBinds { state with world }
    have hBody := (Invariant.shielded x { state with world } context.maxDepth).block_final fuel
      .zero f.body hInside
    rw [hEnd]
    exact hBody.keeps_leave

/-- A call by a name that stands for the function keeps the variable. -/
theorem Context.call_keeps (hParam : x ∈ f.params) {name : String} {state : RunState σ}
    (hCallee : context.resolve state.chain.main.functions name = some (.script f)) (fuel : Nat)
    (args : List Value) (line : Option Nat) :
    state.Keeps x (final (context.call fuel name args line state)) := by
  cases fuel with
  | zero => exact List.forall₂_refl _
  | succ fuel =>
    rw [Context.call_succ, hCallee]
    exact FunctionDef.call_keeps hParam fuel args line state

/-- **Parameters protect the caller's variables of the same name.** In any
state, take a script function with a parameter `x` and call it, directly or by
a name that stands for it, with any arguments. Whatever its body and the
functions called from there do, and however the call ends, every frame of the
caller, the main frame included, binds `x` to the value that it had there
before, or binds it as little as before. -/
theorem Context.calls_keep_parameters (context : Context σ) (hParam : x ∈ f.params) (fuel : Nat)
    (args : List Value) (line : Option Nat) (state : RunState σ) :
    state.Keeps x (final (f.call context.maxDepth
      (Stmt.execAll (context.call fuel) fuel .zero f.body) args line state)) ∧
    ∀ name, context.resolve state.chain.main.functions name = some (.script f) →
      state.Keeps x (final (context.call fuel name args line state)) :=
  ⟨FunctionDef.call_keeps hParam fuel args line state,
    fun _ hCallee => Context.call_keeps hParam hCallee fuel args line⟩

end Calls

/-- In `def f(x) do x = 5; g(); end; def g() do x = 7; y = x; end;` the second
function writes to the parameter of the first, and not to the `x` of the call
from which `f(3)` is called, nor to the global `x`. Only `y` is new. -/
theorem Context.calls_keep_parameters_nested :
    let assign (target : String) (value : Operand) : Stmt := .expr ⟨some target, value, [], 1⟩
    let f : FunctionDef :=
      ⟨"f", ["x"], [assign "x" (.number 5), .expr ⟨none, .call "g" [] 1, [], 1⟩], 1⟩
    let g : FunctionDef := ⟨"g", [], [assign "x" (.number 7), assign "y" (.ident "x" 1)], 1⟩
    let context : Context Unit := ⟨none, 9⟩
    let state : RunState Unit :=
      ⟨⟨[.ofArguments ["x"] [.int 2]], ⟨⟨[("x", .int 1)]⟩, ⟨[("f", f), ("g", g)]⟩⟩⟩, 1, .start ()⟩
    let later := final (context.call 5 "f" [.int 3] none state)
    later.chain.main.get? "y" = some (.int 7) ∧ "x" ∈ f.params ∧
      context.resolve state.chain.main.functions "f" = some (.script f) ∧
      state.Keeps "x" later := by
  intro assign f g context state later
  have hParam : "x" ∈ f.params := List.mem_singleton.mpr rfl
  exact ⟨by decide +kernel, hParam, rfl,
    (Context.calls_keep_parameters context hParam 5 [.int 3] none state).2 "f" rfl⟩

end Scriptlet
