import Scriptlet.Proofs.Invariant
import Scriptlet.Session

/-!
# Scriptlet — frames and active calls

A call takes its frame away with it however it ends, so every evaluation ends
in the frame in which it began. A frame is told from others by what can happen
to it: it is the same frame, *written*, if nothing was done to it but to give
new values to variables that it binds.

* `Frame.Written`, `Chain.set_written` — a write through a chain of frames
  leaves every call frame the same frame;
* `RunState.Within` — where a run stands that began in some state: the frames
  of the calls that are active since then, in front of those that were there;
* `Invariant.within` — a run is always there, so it comes back to where it
  began;
* `Session.after_keeps` — what a run keeps, the steps of a session keep;
* `Session.evaluation_restores_frames` — for sessions as a whole.
-/

namespace Scriptlet

-- ---------------------------------------------------------------------------
-- Frame by frame
-- ---------------------------------------------------------------------------

section Frames

variable {R : Frame → Frame → Prop}

/-- If frames can be related in two steps, so can chains of them. -/
theorem Frame.forall₂_trans [IsTrans Frame R] {frames₁ frames₂ frames₃ : List Frame}
    (h₁ : List.Forall₂ R frames₁ frames₂) (h₂ : List.Forall₂ R frames₂ frames₃) :
    List.Forall₂ R frames₁ frames₃ := by
  -- induction on the first step, whose frames pair off with those of the second
  induction h₁ generalizing frames₃ with
  | nil => exact h₂
  | cons hFirst _ ih =>
    cases h₂ with
    | cons hFirst' hRest' => exact .cons (IsTrans.trans _ _ _ hFirst hFirst') (ih hRest')

/-- A write that finds its variable changes the first frame that binds it, and
no other. -/
theorem Chain.setFirst?_forall₂ [Std.Refl R] {name : String} {value : Value}
    (hWrite : ∀ frame : Frame, frame.binds name = true → R frame (frame.define name value))
    {frames frames' : List Frame} (h : Chain.setFirst? name value frames = some frames') :
    List.Forall₂ R frames frames' := by
  -- induction on the frames, passing those that do not bind the name
  induction frames generalizing frames' with
  | nil => cases h
  | cons frame frames ih =>
    rw [Chain.setFirst?] at h
    by_cases hBinds : frame.binds name = true
    · rw [if_pos hBinds] at h
      cases h
      exact .cons (hWrite frame hBinds) (List.forall₂_refl frames)
    · rw [if_neg hBinds] at h
      obtain ⟨later, hLater, rfl⟩ := Option.map_eq_some_iff.mp h
      exact .cons (Std.Refl.refl frame) (ih hLater)

end Frames

-- ---------------------------------------------------------------------------
-- The same frame
-- ---------------------------------------------------------------------------

/-- The second frame is the first after some writes to variables that it
binds. -/
inductive Frame.Written (frame : Frame) : Frame → Prop
  | unchanged : Frame.Written frame frame
  | write {later : Frame} {name : String} (value : Value) (h : Frame.Written frame later)
    (hBinds : later.binds name = true) : Frame.Written frame (later.define name value)

namespace Frame.Written

/-- What is done to a frame in two steps could be done in one. -/
theorem trans {frame₁ frame₂ frame₃ : Frame} (h₁ : Written frame₁ frame₂)
    (h₂ : Written frame₂ frame₃) : Written frame₁ frame₃ := by
  induction h₂ with
  | unchanged => exact h₁
  | write value _ hBinds ih => exact ih.write value hBinds

instance : Std.Refl Written :=
  ⟨fun _ => .unchanged⟩

instance : IsTrans Frame Written :=
  ⟨fun _ _ _ => .trans⟩

end Frame.Written

/-- **A write leaves every call frame the same frame.** -/
theorem Chain.set_written (chain : Chain) (name : String) (value : Value) :
    List.Forall₂ Frame.Written chain.calls (chain.set name value).calls := by
  unfold Chain.set
  cases h : Chain.setFirst? name value chain.calls with
  | some calls => exact Chain.setFirst?_forall₂ (fun _ => .write value .unchanged) h
  | none => exact List.forall₂_refl chain.calls

-- ---------------------------------------------------------------------------
-- Where a run stands
-- ---------------------------------------------------------------------------

/-- The frame with which a call begins. -/
def Activation.frame (a : Activation) : Frame :=
  .ofArguments a.f.params a.args

variable {σ : Type}

namespace RunState

/-- A run that began in the state `base` stands in `state` while the given
calls, made since then, are active. -/
structure Within (base : RunState σ) (maxDepth : Nat) (active : List Activation)
    (state : RunState σ) : Prop where
  depth : state.depth = base.depth + active.length
  frames : List.Forall₂ Frame.Written (active.map Activation.frame ++ base.chain.calls)
    state.chain.calls
  limit : state.depth ≤ max base.depth maxDepth

/-- The state is in the main frame, and no call is active. -/
structure AtMain (state : RunState σ) : Prop where
  calls : state.chain.calls = []
  depth : state.depth = 0

/-- The chain of frames leads to the main frame in as many steps as calls are
counted, these are no more than allowed, and the frames are those of the active
calls in order. -/
structure Inside (maxDepth : Nat) (active : List Activation) (state : RunState σ) : Prop where
  steps : state.chain.calls.length = state.depth
  limit : state.depth ≤ maxDepth
  frames : List.Forall₂ Frame.Written (active.map Activation.frame) state.chain.calls

/-- The second state is in the same frames as the first, and as deep. -/
structure SameFrames (state later : RunState σ) : Prop where
  depth : later.depth = state.depth
  frames : List.Forall₂ Frame.Written state.chain.calls later.chain.calls

/-- A run stands in the state in which it begins, with no active call. -/
theorem within_self (base : RunState σ) (maxDepth : Nat) : base.Within maxDepth [] base where
  depth := rfl
  frames := List.forall₂_refl base.chain.calls
  limit := Nat.le_max_left _ _

/-- A run with no active call left is back in the frames in which it began. -/
theorem Within.sameFrames {base state : RunState σ} {maxDepth : Nat}
    (h : base.Within maxDepth [] state) : base.SameFrames state :=
  ⟨h.depth, h.frames⟩

theorem SameFrames.atMain {state later : RunState σ} (h : state.SameFrames later)
    (hMain : state.AtMain) : later.AtMain := by
  have hFrames := h.frames
  rw [hMain.calls] at hFrames
  exact ⟨List.forall₂_nil_left_iff.mp hFrames, h.depth.trans hMain.depth⟩

/-- For a run that began in the main frame. -/
theorem AtMain.within_iff {base state : RunState σ} (hMain : base.AtMain) (maxDepth : Nat)
    (active : List Activation) :
    base.Within maxDepth active state ↔ state.Inside maxDepth active := by
  -- a run from the main frame has no call frames but those of its own calls
  have hCalls : active.map Activation.frame ++ base.chain.calls = active.map Activation.frame := by
    rw [hMain.calls, List.append_nil]
  constructor
  · rintro ⟨hDepth, hFrames, hLimit⟩
    rw [hCalls] at hFrames
    rw [hMain.depth] at hDepth hLimit
    -- there are as many frames as active calls, and every one was counted
    have hLength := hFrames.length_eq
    rw [List.length_map] at hLength
    exact ⟨by omega, by omega, hFrames⟩
  · rintro ⟨hSteps, hLimit, hFrames⟩
    have hLength := hFrames.length_eq
    rw [List.length_map] at hLength
    rw [← hCalls] at hFrames
    have hDepth := hMain.depth
    exact ⟨by omega, hFrames, by omega⟩

end RunState

/-- **A run stands where its active calls have led it.** -/
theorem Invariant.within (base : RunState σ) (maxDepth : Nat) :
    Invariant maxDepth (base.Within maxDepth) where
  set := by
    intro active s h name value
    exact ⟨h.depth, Frame.forall₂_trans h.frames (s.chain.set_written name value), h.limit⟩
  define := by
    intro active s h f main _
    exact ⟨h.depth, h.frames, h.limit⟩
  world := by
    intro active s h world
    exact ⟨h.depth, h.frames, h.limit⟩
  enter := by
    intro active s h hDepth f args _
    have hCount : (Eval.enter (.ofArguments f.params args) s).depth = s.depth + 1 := rfl
    -- the new call is counted, its frame stands first, and the limit was checked before it
    refine ⟨?_, ?_, ?_⟩
    · rw [hCount, h.depth, List.length_cons]
      omega
    · exact .cons .unchanged h.frames
    · rw [hCount]
      omega
  leave := by
    intro a active s h
    -- the depth is at least one, since the call that is left is still counted
    have hDepth := h.depth
    rw [List.length_cons] at hDepth
    have hLimit := h.limit
    have hCount : (Eval.leave s).depth = s.depth - 1 := rfl
    refine ⟨by omega, ?_, by omega⟩
    have hTail : (Eval.leave s).chain.calls = s.chain.calls.tail := rfl
    have hFrames := h.frames
    rw [List.map_cons, List.cons_append] at hFrames
    -- the chain cannot be empty, for it holds the frame of the call that is left
    cases hCalls : s.chain.calls with
    | nil =>
      rw [hCalls] at hFrames
      cases hFrames
    | cons frame calls =>
      rw [hCalls] at hFrames
      rw [hTail, hCalls, List.tail_cons]
      cases hFrames with
      | cons _ hRest => exact hRest

/-- If it began in the main frame, these are all the calls there are. -/
theorem Invariant.inside {base : RunState σ} (hMain : base.AtMain) (maxDepth : Nat) :
    Invariant maxDepth fun active (state : RunState σ) => state.Inside maxDepth active := by
  have hSame : base.Within maxDepth = fun active state => state.Inside maxDepth active := by
    funext active state
    exact propext (hMain.within_iff maxDepth active)
  exact hSame ▸ Invariant.within base maxDepth

-- ---------------------------------------------------------------------------
-- Sessions
-- ---------------------------------------------------------------------------

namespace Session

/-- A step of a session. -/
inductive Step where
  | source (source : String) (fuel : Nat)
  | program (program : Program) (fuel : Nat)
  | call (name : String) (args : List Value) (line : Option Nat) (fuel : Nat)
  | get (name : String) (line : Nat)
  | set (name : String) (value : Value)

/-- The session after a step, be it successful or not. -/
def after (session : Session σ) : Step → Session σ
  | .source source fuel => (session.eval source fuel).2
  | .program program fuel => (session.perform (program.eval session.context fuel)).2
  | .call name args line fuel => (session.call name args line fuel).2
  | .get _ _ => session
  | .set name value => session.set name value

/-- The session after some steps. -/
def afterAll (session : Session σ) (steps : List Step) : Session σ :=
  steps.foldl after session

theorem perform_eq {α : Type} (session : Session σ) (action : Eval σ α) :
    (session.perform action).2 = { session with state := final (action session.state) } := by
  unfold perform
  cases action session.state <;> rfl

/-- **What a run keeps, a step of a session keeps**, if it is not lost when a
variable is set from outside. -/
theorem after_keeps {P : List Activation → RunState σ → Prop} {session : Session σ}
    (h : Invariant session.context.maxDepth P)
    (hSet : ∀ name value, P [] (session.set name value).state) (hs : P [] session.state)
    (step : Step) : P [] (session.after step).state := by
  cases step with
  | source source fuel =>
    rw [after, Session.eval, perform_eq]
    show P [] (final (EStateM.bind (parse source) _ session.state))
    unfold EStateM.bind parse
    -- parsing changes nothing but the log
    cases Program.parse source with
    | ok program scanner => exact h.program_final fuel program (h.world hs _)
    | error stop scanner => exact h.world hs _
  | program program fuel =>
    rw [after, perform_eq]
    exact h.program_final fuel program hs
  | call name args line fuel =>
    rw [after, Session.call, perform_eq]
    exact h.call_final fuel name args line hs
  | get name line => exact hs
  | set name value => exact hSet name value

/-- One step leaves the session in its frames. -/
theorem after_sameFrames (session : Session σ) (step : Step) :
    session.state.SameFrames (session.after step).state := by
  have hStart := session.state.within_self session.context.maxDepth
  have hEnd := after_keeps (Invariant.within session.state session.context.maxDepth)
    (fun _ _ => ⟨hStart.depth, hStart.frames, hStart.limit⟩) hStart step
  exact hEnd.sameFrames

/-- Between its steps a session is in the main frame. -/
theorem afterAll_atMain (session : Session σ) (hMain : session.state.AtMain) (steps : List Step) :
    (session.afterAll steps).state.AtMain := by
  -- induction on the steps: each begins in the main frame, where the one before it ended
  induction steps generalizing session with
  | nil => exact hMain
  | cons step steps ih =>
    have hStep := (session.after_sameFrames step).atMain hMain
    exact ih (session.after step) hStep

open Classical in
/-- **Every evaluation ends where it began, and a session is always back in
the main frame.** After any steps, failed ones included, the session is in the
main frame with no active call. Evaluation from there, of any program or call,
would not notice if every expression, statement and call in it were guarded by
a check that the frames are those of the active calls in order, as many as are
counted, and no more than allowed. And wherever an expression, a statement, a
block or a call is evaluated, it ends in the frames and at the depth with which
it began, whether with a value, a `return` or a fault. -/
theorem evaluation_restores_frames (context : Context σ) (world : World σ) (steps : List Step) :
    ((Session.start context world).afterAll steps).state.AtMain ∧
    (∀ (alarm : Hook σ) (fuel : Nat),
      let state := ((Session.start context world).afterAll steps).state
      let guarded := Watch.guard (fun active s => s.Inside context.maxDepth active) alarm
      (∀ program : Program,
        program.evalWith context guarded fuel state = program.eval context fuel state) ∧
      ∀ name args line, context.callWith guarded fuel [] name args line state =
        context.call fuel name args line state) ∧
    ∀ (fuel : Nat) (state : RunState σ),
      (∀ e : Expr, state.SameFrames (final (e.eval (context.call fuel) state))) ∧
      (∀ s : Stmt, state.SameFrames (final (s.exec (context.call fuel) fuel state))) ∧
      (∀ last ss, state.SameFrames (final (Stmt.execAll (context.call fuel) fuel last ss state))) ∧
      ∀ name args line, state.SameFrames (final (context.call fuel name args line state)) := by
  have hMain := afterAll_atMain (Session.start context world) ⟨rfl, rfl⟩ steps
  refine ⟨hMain, ?_, ?_⟩
  · intro alarm fuel state guarded
    have hInside := Invariant.inside hMain context.maxDepth
    have hStart : state.Inside context.maxDepth [] :=
      (hMain.within_iff context.maxDepth []).mp (state.within_self context.maxDepth)
    exact ⟨fun program => hInside.program_guarded alarm fuel program hStart,
      fun name args line => hInside.call_guarded alarm fuel [] name args line hStart⟩
  · intro fuel state
    have hWithin := Invariant.within state context.maxDepth
    have hStart := state.within_self context.maxDepth
    exact ⟨fun e => (hWithin.expr_final fuel e hStart).sameFrames,
      fun s => (hWithin.stmt_final fuel s hStart).sameFrames,
      fun last ss => (hWithin.block_final fuel last ss hStart).sameFrames,
      fun name args line => (hWithin.call_final fuel name args line hStart).sameFrames⟩

end Session

end Scriptlet
