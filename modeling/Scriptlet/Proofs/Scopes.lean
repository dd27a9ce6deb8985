import Scriptlet.Proofs.ActiveCalls

/-!
# Scriptlet — what frames bind

The frame of a call binds the parameters of its function from the beginning,
and no other name is ever added to it or taken away: a write either finds the
name bound or goes to the main frame. So what is bound in the main frame grows,
and a variable that no active call has as a parameter is global as soon as
something is assigned to it.

* `Frame.binds_ofArguments`, `Frame.Written.binds_eq` — the names of a call
  frame, when it is made and when it is written to;
* `RunState.Scoped`, `Invariant.scoped` — the frames of the active calls bind
  their parameters, and what was global still is;
* `RunState.SameNames` — what an evaluation leaves of the names that are bound;
* `Session.frames_bind_parameters` — for sessions as a whole.
-/

namespace Scriptlet

-- ---------------------------------------------------------------------------
-- Names of a frame
-- ---------------------------------------------------------------------------

namespace Frame

@[simp] theorem binds_define (frame : Frame) (name other : String) (value : Value) :
    (frame.define name value).binds other = (other == name || frame.binds other) :=
  frame.bindings.contains_insert name other value

/-- Values given to names one after the other add these names. -/
theorem binds_foldl_define (arguments : List (String × Value)) (frame : Frame) (name : String) :
    (arguments.foldl (fun frame (name, value) => frame.define name value) frame).binds name =
        true ↔
      name ∈ arguments.map Prod.fst ∨ frame.binds name = true := by
  -- induction on the pairs: the frame they are written to is another one each time
  induction arguments generalizing frame with
  | nil => simp
  | cons argument arguments ih =>
    rw [List.foldl_cons, ih, binds_define, List.map_cons, List.mem_cons, Bool.or_eq_true,
      beq_iff_eq]
    tauto

/-- The frame binds the given names and no others. -/
def BindsExactly (frame : Frame) (names : List String) : Prop :=
  ∀ name, frame.binds name = true ↔ name ∈ names

/-- **The frame of a call binds the parameters**, if there are enough
arguments. -/
theorem binds_ofArguments {params : List String} {args : List Value}
    (h : params.length ≤ args.length) : (ofArguments params args).BindsExactly params := by
  intro name
  have hEmpty : empty.binds name = false := rfl
  rw [ofArguments, binds_foldl_define, List.map_fst_zip h, hEmpty]
  simp

/-- Writes to variables that a frame binds do not change what it binds. -/
theorem Written.binds_eq {frame later : Frame} (h : Written frame later) (name : String) :
    later.binds name = frame.binds name := by
  induction h with
  | unchanged => rfl
  | @write later other value _ hBinds ih =>
    rw [binds_define]
    cases hName : name == other with
    | false => exact ih
    | true =>
      -- the name that was written is one that the frame bound
      rw [beq_iff_eq.mp hName] at ih ⊢
      rw [← ih, hBinds]
      rfl

/-- Call frames that are written to still bind the parameters and no more. -/
theorem Written.forall₂_bindsExactly {active : List Activation} {frames later : List Frame}
    (h : List.Forall₂ (fun a frame => BindsExactly frame a.f.params) active frames)
    (hWritten : List.Forall₂ Written frames later) :
    List.Forall₂ (fun a frame => BindsExactly frame a.f.params) active later := by
  induction h generalizing later with
  | nil =>
    cases hWritten
    exact .nil
  | cons hFirst _ ih =>
    cases hWritten with
    | cons hFirst' hRest' =>
      refine .cons (fun name => ?_) (ih hRest')
      rw [hFirst'.binds_eq name]
      exact hFirst name

/-- If none of the call frames binds a name, none does after they are written
to. -/
theorem Written.forall₂_free {name : String} {frames later : List Frame}
    (hWritten : List.Forall₂ Written frames later)
    (h : ∀ frame ∈ frames, frame.binds name = false) :
    ∀ frame ∈ later, frame.binds name = false := by
  induction hWritten with
  | nil => exact h
  | cons hFirst _ ih =>
    obtain ⟨hFree, hRest⟩ := List.forall_mem_cons.mp h
    refine List.forall_mem_cons.mpr ⟨?_, ih hRest⟩
    rw [hFirst.binds_eq name]
    exact hFree

end Frame

-- ---------------------------------------------------------------------------
-- Names of a chain
-- ---------------------------------------------------------------------------

namespace Chain

/-- What the main frame binds, it still binds after a write. -/
theorem main_binds_set (chain : Chain) (name : String) (value : Value) {other : String}
    (h : chain.main.binds other = true) : (chain.set name value).main.binds other = true := by
  unfold set
  cases setFirst? name value chain.calls with
  | some calls => exact h
  | none =>
    show (chain.main.define name value).binds other = true
    rw [Frame.binds_define, h, Bool.or_true]

/-- A write that finds its variable in a call frame leaves a frame that binds
it. -/
theorem setFirst?_binds {name : String} {value : Value} {frames frames' : List Frame}
    (h : setFirst? name value frames = some frames') :
    ∃ frame ∈ frames', frame.binds name = true := by
  -- induction on the frames, since the first that binds the name is the one written to
  induction frames generalizing frames' with
  | nil => cases h
  | cons frame frames ih =>
    rw [setFirst?] at h
    by_cases hBinds : frame.binds name = true
    · rw [if_pos hBinds] at h
      cases h
      refine ⟨_, List.mem_cons_self, ?_⟩
      rw [Frame.binds_define, hBinds, Bool.or_true]
    · rw [if_neg hBinds] at h
      obtain ⟨later, hLater, rfl⟩ := Option.map_eq_some_iff.mp h
      obtain ⟨frame', hMem, hBinds'⟩ := ih hLater
      exact ⟨frame', List.mem_cons_of_mem _ hMem, hBinds'⟩

/-- **A variable that no call frame binds after it was written is global.** -/
theorem main_binds_of_set {chain : Chain} {name : String} {value : Value}
    (h : ∀ frame ∈ (chain.set name value).calls, frame.binds name = false) :
    (chain.set name value).main.binds name = true := by
  unfold set at h ⊢
  -- the write went to the main frame, since `h` denies that a call frame binds the name
  cases hSet : setFirst? name value chain.calls with
  | some calls =>
    rw [hSet] at h
    obtain ⟨frame, hMem, hBinds⟩ := setFirst?_binds hSet
    rw [h frame hMem] at hBinds
    cases hBinds
  | none =>
    show (chain.main.define name value).binds name = true
    rw [Frame.binds_define, beq_self_eq_true, Bool.true_or]

end Chain

-- ---------------------------------------------------------------------------
-- Names in a run
-- ---------------------------------------------------------------------------

variable {σ : Type}

namespace RunState

/-- What was global in the state `base` is global. -/
def GlobalsKept (base : RunState σ) (_ : List Activation) (state : RunState σ) : Prop :=
  ∀ name, base.chain.main.binds name = true → state.chain.main.binds name = true

/-- The frames of the active calls bind just the parameters of their functions,
and what was global in the state `base` is global. -/
structure Scoped (base : RunState σ) (active : List Activation) (state : RunState σ) : Prop where
  frames : List.Forall₂ (fun (a : Activation) (frame : Frame) => frame.BindsExactly a.f.params)
    active state.chain.calls
  globals : base.GlobalsKept active state

/-- The call frames of the second state are those of the first and bind the same
names, and what is global in the first is global in the second. -/
structure SameNames (state later : RunState σ) : Prop where
  frames : List.Forall₂ (fun frame frame' : Frame => ∀ name, frame'.binds name = frame.binds name)
    state.chain.calls later.chain.calls
  globals : ∀ name, state.chain.main.binds name = true → later.chain.main.binds name = true

theorem globalsKept_self (base : RunState σ) : base.GlobalsKept [] base :=
  fun _ hName => hName

/-- In the main frame no call frame has to bind anything. -/
theorem AtMain.scoped_self {state : RunState σ} (h : state.AtMain) : state.Scoped [] state where
  frames := by
    rw [h.calls]
    exact .nil
  globals := state.globalsKept_self

/-- In the same frames, and with the globals kept, the same names are bound. -/
theorem Within.sameNames {state later : RunState σ} {maxDepth : Nat}
    (h : state.Within maxDepth [] later) (hGlobals : state.GlobalsKept [] later) :
    state.SameNames later where
  frames := h.sameFrames.frames.imp fun _ _ hWritten => hWritten.binds_eq
  globals := hGlobals

end RunState

/-- **What is global stays global**, whatever a run does. -/
theorem Invariant.globalsKept (base : RunState σ) (maxDepth : Nat) :
    Invariant maxDepth base.GlobalsKept where
  set := fun h other value name hName => Chain.main_binds_set _ other value (h name hName)
  define := by
    intro active s h f main hMain name hName
    unfold Frame.defineFunction at hMain
    split at hMain
    -- only a definition that is accepted leaves a main frame, and it adds no variable
    · cases hMain
    · cases hMain
      exact h name hName
  world := fun h _ => h
  enter := fun h _ _ _ _ => h
  leave := fun h => h

/-- **The frames of the active calls bind the parameters**, whatever a run
does. -/
theorem Invariant.scoped (base : RunState σ) (maxDepth : Nat) :
    Invariant maxDepth base.Scoped where
  set := by
    intro active s h name value
    refine ⟨?_, (Invariant.globalsKept base maxDepth).set h.globals name value⟩
    exact Frame.Written.forall₂_bindsExactly h.frames (s.chain.set_written name value)
  define := by
    intro active s h f main hMain
    exact ⟨h.frames, (Invariant.globalsKept base maxDepth).define h.globals hMain⟩
  world := fun h _ => ⟨h.frames, h.globals⟩
  -- a call has enough arguments when its frame is made
  enter := fun h _ f args hArgs => ⟨.cons (Frame.binds_ofArguments hArgs) h.frames, h.globals⟩
  leave := by
    -- the frames of the other calls stand behind the one that is left
    intro a active s h
    refine ⟨?_, h.globals⟩
    obtain ⟨frame, calls, _, hRest, hCalls⟩ := List.forall₂_cons_left_iff.mp h.frames
    show List.Forall₂ _ active s.chain.calls.tail
    rw [hCalls]
    exact hRest

/-- What is assigned to a variable that no call frame binds makes it global. -/
theorem Expr.global_of_assigned {context : Context σ} {fuel : Nat} {e : Expr} {name : String}
    (hTarget : e.target = some name) {state later : RunState σ} {value : Value}
    (hEval : e.eval (context.call fuel) state = .ok value later)
    (hFree : ∀ frame ∈ state.chain.calls, frame.binds name = false) :
    later.chain.main.binds name = true := by
  -- the write comes last, so the frames it found are those that are left
  have hWrite : ∃ mid : RunState σ, later = { mid with chain := mid.chain.set name value } := by
    obtain ⟨target, first, rest, line⟩ := e
    cases hTarget
    rw [Expr.eval, Setting.around_idle] at hEval
    obtain ⟨result, mid, _, hRest⟩ := exists_of_bind_ok hEval
    cases hRest
    exact ⟨mid, rfl⟩
  have hSame : state.SameFrames later := by
    have hEnd := (Invariant.within state context.maxDepth).expr_final fuel e
      (state.within_self context.maxDepth)
    rw [hEval] at hEnd
    exact hEnd.sameFrames
  obtain ⟨mid, rfl⟩ := hWrite
  exact Chain.main_binds_of_set (Frame.Written.forall₂_free hSame.frames hFree)

namespace Session

/-- What is global before a step is global after it. -/
theorem after_globalsKept (session : Session σ) (step : Step) :
    session.state.GlobalsKept [] (session.after step).state := by
  refine after_keeps (Invariant.globalsKept session.state session.context.maxDepth) ?_
    session.state.globalsKept_self step
  intro other value name hName
  show (session.state.chain.main.define other value).binds name = true
  rw [Frame.binds_define, hName, Bool.or_true]

/-- And so over any number of steps. -/
theorem afterAll_globalsKept (session : Session σ) (steps : List Step) :
    session.state.GlobalsKept [] (session.afterAll steps).state := by
  induction steps generalizing session with
  | nil => exact session.state.globalsKept_self
  | cons step steps ih =>
    intro name hName
    exact ih (session.after step) name (session.after_globalsKept step name hName)

open Classical in
/-- **The frame of a call binds the parameters of its function and nothing
else, at all times, and the globals only become more.** Take a session after
any steps, failed ones included. Evaluation from there, of any program or call,
would not notice if every expression, statement and call in it were guarded by
a check that each frame of an active call binds the parameters of the called
function and no other name, and that what the session had as a global still is
one. Wherever an expression, a statement, a block or a call is evaluated, and
however it ends, the call frames are left with the names that they bound, and
the main frame with those or more. The main frame loses no name at any moment
of a run, nor over any further steps of the session. So if something is
assigned to a variable that the frame of no active call binds, the variable is
a global from then on. -/
theorem frames_bind_parameters (context : Context σ) (world : World σ) (steps : List Step) :
    let session := (Session.start context world).afterAll steps
    (∀ (alarm : Hook σ) (fuel : Nat),
      let guarded := Watch.guard session.state.Scoped alarm
      (∀ program : Program, program.evalWith context guarded fuel session.state =
        program.eval context fuel session.state) ∧
      ∀ name args line, context.callWith guarded fuel [] name args line session.state =
        context.call fuel name args line session.state) ∧
    (∀ (fuel : Nat) (state : RunState σ),
      (∀ e : Expr, state.SameNames (final (e.eval (context.call fuel) state))) ∧
      (∀ s : Stmt, state.SameNames (final (s.exec (context.call fuel) fuel state))) ∧
      (∀ last ss, state.SameNames (final (Stmt.execAll (context.call fuel) fuel last ss state))) ∧
      ∀ name args line, state.SameNames (final (context.call fuel name args line state))) ∧
    (∀ base : RunState σ, Invariant context.maxDepth base.GlobalsKept) ∧
    (∀ (more : List Step) (name : String), session.state.chain.main.binds name = true →
      ((Session.start context world).afterAll (steps ++ more)).state.chain.main.binds name =
        true) ∧
    ∀ (fuel : Nat) (state later : RunState σ) (e : Expr) (name : String) (value : Value),
      e.target = some name → e.eval (context.call fuel) state = .ok value later →
      (∀ frame ∈ state.chain.calls, frame.binds name = false) →
      later.chain.main.binds name = true := by
  intro session
  refine ⟨?_, ?_, fun base => Invariant.globalsKept base context.maxDepth, ?_, ?_⟩
  · intro alarm fuel guarded
    have hMain := afterAll_atMain (Session.start context world) ⟨rfl, rfl⟩ steps
    have hScoped := Invariant.scoped session.state context.maxDepth
    exact ⟨fun program => hScoped.program_guarded alarm fuel program hMain.scoped_self,
      fun name args line => hScoped.call_guarded alarm fuel [] name args line hMain.scoped_self⟩
  · intro fuel state
    have hWithin := Invariant.within state context.maxDepth
    have hStart := state.within_self context.maxDepth
    have hGlobals := Invariant.globalsKept state context.maxDepth
    have hStart' := state.globalsKept_self
    refine ⟨fun e => ?_, fun s => ?_, fun last ss => ?_, fun name args line => ?_⟩
    · exact (hWithin.expr_final fuel e hStart).sameNames (hGlobals.expr_final fuel e hStart')
    · exact (hWithin.stmt_final fuel s hStart).sameNames (hGlobals.stmt_final fuel s hStart')
    · exact (hWithin.block_final fuel last ss hStart).sameNames
        (hGlobals.block_final fuel last ss hStart')
    · exact (hWithin.call_final fuel name args line hStart).sameNames
        (hGlobals.call_final fuel name args line hStart')
  · intro more name hName
    have hMore : (Session.start context world).afterAll (steps ++ more) = session.afterAll more :=
      List.foldl_append
    rw [hMore]
    exact session.afterAll_globalsKept more name hName
  · intro fuel state later e name value hTarget hEval hFree
    exact Expr.global_of_assigned hTarget hEval hFree

end Session

end Scriptlet
