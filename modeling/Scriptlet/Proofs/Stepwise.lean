import Scriptlet.Proofs.ActiveCalls
import Scriptlet.Proofs.Concatenation
import Scriptlet.Proofs.Shadowing
import Scriptlet.Proofs.Unlined

/-!
# Scriptlet — step by step or all at once

A session may be given two texts one after the other, or both at once with a
newline between them. If the first text comes to its end, the result is the
same: only lines differ, and a second text of nothing but definitions has no
value of its own, so the whole keeps the value of the first. If the first text
fails or returns, the second is not reached.

* `Stmt.execAll_append` — a block is executed part by part;
* `Stmt.execAll_last` — what it matters which value the block had before;
* `Stmt.execAll_sameButLog` — a run does not read the log;
* `Session.eval_append` — for the steps of a session.
-/

namespace Scriptlet

variable {σ α : Type}

-- ---------------------------------------------------------------------------
-- Blocks part by part
-- ---------------------------------------------------------------------------

/-- **A block is executed part by part.** The second part starts with the value
of the first, unless that fails or returns. -/
theorem Stmt.execAll_append (call : Caller σ) (fuel : Nat) (last : Value) (xs ys : List Stmt)
    (s : RunState σ) :
    Stmt.execAll call fuel last (xs ++ ys) s =
      match Stmt.execAll call fuel last xs s with
      | .ok (.value v) t => Stmt.execAll call fuel v ys t
      | result => result := by
  -- statement by statement: the value before each is that of the statements in front
  induction xs generalizing last s with
  | nil => rfl
  | cons x xs ih =>
    rw [List.cons_append, Stmt.execAll, Stmt.execAll]
    cases hRun : x.exec call fuel s with
    | error stop t => rw [bind_of_error hRun, bind_of_error hRun]
    | ok flow t =>
      rw [bind_of_ok hRun, bind_of_ok hRun]
      cases flow with
      | next => exact ih last t
      | value v => exact ih v t
      | ret v => rfl

/-- The computation does not end without a value. -/
def Valued (m : Eval σ Flow) : Prop :=
  ∀ s t, m s ≠ .ok .next t

namespace Valued

/-- A value is one. -/
theorem value (v : Value) : Valued (σ := σ) (pure (.value v)) :=
  fun _ _ => nofun

/-- So is what is returned. -/
theorem ret (v : Value) : Valued (σ := σ) (pure (.ret v)) :=
  fun _ _ => nofun

/-- What follows a computation decides whether the whole has a value. -/
theorem bind {m : Eval σ α} {k : α → Eval σ Flow} (h : ∀ a, Valued (k a)) : Valued (m >>= k) := by
  intro s t hRun
  obtain ⟨a, s', _, hNext⟩ := exists_of_bind_ok hRun
  exact h a s' t hNext

/-- A loop always has a value, if only that of no round. -/
theorem repeatWhile (condition : Eval σ Bool) (body : Eval σ Flow) (fuel : Nat) (last : Value) :
    Valued (Eval.repeatWhile condition body fuel last) := by
  induction fuel generalizing last with
  | zero => exact fun _ _ => nofun
  | succ fuel ih =>
    rw [Eval.repeatWhile]
    refine bind fun holds => ?_
    cases holds with
    | false => exact value last
    | true =>
      refine bind fun flow => ?_
      cases flow with
      | next => exact ih last
      | value v => exact ih v
      | ret v => exact ret v

/-- A block always has a value. -/
theorem execAll (setting : Setting σ) (fuel : Nat) (last : Value) (ss : List Stmt) :
    Valued (Stmt.execAll setting fuel last ss) := by
  induction ss generalizing last with
  | nil =>
    rw [Stmt.execAll]
    exact value last
  | cons s ss ih =>
    rw [Stmt.execAll]
    refine bind fun flow => ?_
    cases flow with
    | next => exact ih last
    | value v => exact ih v
    | ret v => exact ret v

end Valued

/-- Whether the statement defines a function. -/
def Stmt.isDefinition : Stmt → Bool
  | .define _ _ _ _ => true
  | _ => false

/-- Every statement but a definition has a value. -/
theorem Valued.exec (call : Caller σ) (fuel : Nat) {s : Stmt} (h : s.isDefinition = false) :
    Valued (σ := σ) (s.exec call fuel) := by
  cases s with
  | expr value =>
    rw [Stmt.exec, Setting.around_idle]
    exact .bind fun v => .value v
  | branch condition thenBody elseBody line =>
    cases elseBody with
    | none =>
      rw [Stmt.exec, Setting.around_idle]
      refine .bind fun holds => ?_
      cases holds with
      | true => exact .execAll _ fuel .zero thenBody
      | false => exact .value .zero
    | some elseBody =>
      rw [Stmt.exec, Setting.around_idle]
      refine .bind fun holds => ?_
      cases holds with
      | true => exact .execAll _ fuel .zero thenBody
      | false => exact .execAll _ fuel .zero elseBody
  | loop condition body line =>
    rw [Stmt.exec, Setting.around_idle]
    exact .repeatWhile _ _ fuel .zero
  | ret result line =>
    rw [Stmt.exec, Setting.around_idle]
    exact .bind fun v => .ret v
  | define name params body line => cases h

/-- The end of a block in which the value is replaced. -/
def withValue (v : Value) : EStateM.Result Stop (RunState σ) Flow →
    EStateM.Result Stop (RunState σ) Flow
  | .ok _ t => .ok (.value v) t
  | .error stop t => .error stop t

/-- **The value before a block matters only if the block has none of its own**,
which is so if it consists of definitions. -/
theorem Stmt.execAll_last (call : Caller σ) (fuel : Nat) (last last' : Value) (ss : List Stmt)
    (s : RunState σ) :
    Stmt.execAll call fuel last' ss s =
      if ss.all Stmt.isDefinition then withValue last' (Stmt.execAll call fuel last ss s)
      else Stmt.execAll call fuel last ss s := by
  -- definitions in front pass the value on, up to the first statement with a value of its own
  induction ss generalizing s with
  | nil => rfl
  | cons x xs ih =>
    rw [Stmt.execAll, Stmt.execAll, List.all_cons]
    cases hRun : x.exec call fuel s with
    | error stop t =>
      rw [bind_of_error hRun, bind_of_error hRun]
      split <;> rfl
    | ok flow t =>
      rw [bind_of_ok hRun, bind_of_ok hRun]
      cases hDefinition : x.isDefinition with
      | true =>
        obtain rfl : flow = .next := by
          cases x with
          | define name params body line =>
            rw [Stmt.exec, Setting.around_idle] at hRun
            obtain ⟨_, _, _, hNext⟩ := exists_of_bind_ok hRun
            cases hNext
            rfl
          | _ => cases hDefinition
        exact ih t
      | false =>
        cases flow with
        -- a statement that is no definition has a value
        | next => exact absurd hRun (Valued.exec call fuel hDefinition s t)
        | value v => rfl
        | ret v => rfl

-- ---------------------------------------------------------------------------
-- The log
-- ---------------------------------------------------------------------------

/-- The two states differ in the log only. -/
structure RunState.SameButLog (s t : RunState σ) : Prop where
  chain : s.chain = t.chain
  depth : s.depth = t.depth
  world : s.world.SameHost t.world

namespace RunState.SameButLog

theorem symm {s t : RunState σ} (h : s.SameButLog t) : t.SameButLog s :=
  ⟨h.chain.symm, h.depth.symm, h.world.symm⟩

theorem trans {s t u : RunState σ} (h : s.SameButLog t) (h' : t.SameButLog u) : s.SameButLog u :=
  ⟨h.chain.trans h'.chain, h.depth.trans h'.depth, h.world.trans h'.world⟩

/-- States that differ in the log only have the same variables, functions and
calls, lines included. -/
theorem sameButLines {s t : RunState σ} (h : s.SameButLog t) : s.SameButLines t :=
  ⟨by rw [h.chain], by rw [h.chain], by rw [h.chain], h.depth, h.world⟩

/-- More may be reported. -/
theorem reportAll (s : RunState σ) (log : Log) :
    s.SameButLog { s with world := s.world.reportAll log } :=
  ⟨rfl, rfl, rfl, rfl⟩

end RunState.SameButLog

/-- **A run does not read the log.** -/
theorem Simulation.of_log (context : Context σ) :
    Simulation (fun _ => False) (fun _ => True) context context Watch.idle Watch.idle
      (fun _ => RunState.SameButLog) where
  get := fun h name => by rw [h.chain]
  set := fun h name value => { h with chain := congrArg (·.set name value) h.chain }
  define := by
    intro _ f _ s t h
    unfold Eval.define
    rw [h.chain]
    cases t.chain.main.defineFunction f with
    | ok main => exact .ok { h with chain := rfl }
    | error fault => exact .error h
  report := fun h event _ => { h with world := ⟨h.world.host, h.world.hostCalls⟩ }
  host := by
    intro _ s t h _ f _ args line
    have hEnd := h.world.invoke f args line
    unfold Eval.onWorld
    generalize f.invoke args line s.world = end₁ at hEnd
    generalize f.invoke args line t.world = end₂ at hEnd
    cases hEnd with
    | ok hWorld => exact .ok { h with world := hWorld }
    | error hWorld => exact .error { h with world := hWorld }
    | escaped hEscape => exact hEscape.elim
  resolve := fun h name => by rw [h.chain]
  body := fun _ _ _ _ _ _ => trivial
  depth := fun h => h.depth
  limit := Or.inl rfl
  enter := by
    intro _ s t h _ f args _
    refine { h with chain := ?_, depth := congrArg (· + 1) h.depth }
    exact congrArg (Chain.enter · (.ofArguments f.params args)) h.chain
  leave := by
    intro _ _ s t h
    exact { h with chain := congrArg Chain.leave h.chain, depth := congrArg (· - 1) h.depth }
  watch := fun _ _ _ _ hLockstep => hLockstep

/-- Blocks end together from states that differ in the log only. -/
theorem Stmt.execAll_sameButLog (context : Context σ) (fuel : Nat) (last : Value) (ss : List Stmt)
    {s t : RunState σ} (h : s.SameButLog t) :
    Together (fun _ => False) RunState.SameButLog
      (Stmt.execAll (context.call fuel) fuel last ss s)
      (Stmt.execAll (context.call fuel) fuel last ss t) := by
  have hDefine : ∀ f ∈ Stmt.definitionsAll ss, True := fun _ _ => trivial
  have hLockstep := (Simulation.of_log context).block (.refl fuel) [] last hDefine
  rw [Context.callWith_idle] at hLockstep
  exact hLockstep s t h

-- ---------------------------------------------------------------------------
-- Host calls
-- ---------------------------------------------------------------------------

/-- Calls of host functions are not forgotten. -/
theorem WorldInvariant.hostCalls (context : Context σ) (calls : List HostCall) :
    WorldInvariant context fun world => calls <+: world.hostCalls where
  report := fun h _ _ => h
  host := by
    intro world h _ _ f _ args line
    rw [HostFunction.hostCalls_invoke]
    exact h.trans (List.prefix_append _ _)

-- ---------------------------------------------------------------------------
-- Steps of a session
-- ---------------------------------------------------------------------------

/-- A program ends as its block does. -/
theorem Program.eval_visible (program : Program) (context : Context σ) (fuel : Nat)
    (s : RunState σ) :
    outcome (program.eval context fuel s) =
        (outcome (Stmt.execAll (context.call fuel) fuel .zero program s)).map Flow.result ∧
      final (program.eval context fuel s) =
        final (Stmt.execAll (context.call fuel) fuel .zero program s) := by
  rw [Program.eval_eq_execAll]
  cases hRun : Stmt.execAll (context.call fuel) fuel .zero program s with
  | ok flow t =>
    rw [bind_of_ok hRun]
    exact ⟨rfl, rfl⟩
  | error stop t =>
    rw [bind_of_error hRun]
    exact ⟨rfl, rfl⟩

namespace Session

/-- How the block of a program ends in the session: with a value, with a
`return`, or early. -/
def flow (session : Session σ) (program : Program) (fuel : Nat) : Except Stop Flow :=
  outcome (Stmt.execAll (session.context.call fuel) fuel .zero program session.state)

/-- To evaluate a text is to execute its block, from a state in which more is
reported. -/
theorem eval_of_parse (session : Session σ) {source : String} {program : Program}
    (h : outcome (Program.parse source) = .ok program) (fuel : Nat) :
    ∃ s, session.state.SameButLog s ∧
      (session.eval source fuel).1 =
        (outcome (Stmt.execAll (session.context.call fuel) fuel .zero program s)).map
          Flow.result ∧
      (session.eval source fuel).2 =
        { session with
          state := final (Stmt.execAll (session.context.call fuel) fuel .zero program s) } := by
  cases hParse : Program.parse source with
  | error stop scanner =>
    rw [hParse] at h
    cases h
  | ok found scanner =>
    rw [hParse] at h
    cases h
    have hStep : Session.parse source session.state =
        .ok program { session.state with world := session.state.world.reportAll scanner.log } := by
      rw [Session.parse, hParse]
    refine ⟨_, .reportAll session.state scanner.log, ?_⟩
    obtain ⟨hOutcome, hFinal⟩ := program.eval_visible session.context fuel
      { session.state with world := session.state.world.reportAll scanner.log }
    rw [← hOutcome, ← hFinal, Session.eval, perform, bind_of_ok hStep]
    cases program.eval session.context fuel _ <;> exact ⟨rfl, rfl⟩

/-- A step adds host calls to those before it. -/
theorem hostCalls_eval (session : Session σ) (source : String) (fuel : Nat) :
    session.state.world.hostCalls <+: (session.eval source fuel).2.state.world.hostCalls := by
  rw [Session.eval, perform_eq]
  show _ <+: (final (EStateM.bind (parse source) _ session.state)).world.hostCalls
  -- a text that does not parse calls nobody
  unfold EStateM.bind parse
  cases Program.parse source with
  | ok program scanner =>
    exact (WorldInvariant.hostCalls session.context _).program_final fuel program
      (List.prefix_refl _)
  | error stop scanner => exact List.prefix_refl _

end Session

/-- Outcomes that agree up to lines do so for anything that is made of their
values. -/
theorem OutcomesAgree.map {β : Type} {x y : Except Stop α} (h : OutcomesAgree x y) (g : α → β) :
    OutcomesAgree (x.map g) (y.map g) := by
  cases h with
  | ok a => exact .ok (g a)
  | fault hLines hKind hMessage => exact .fault hLines hKind hMessage
  | outOfFuel => exact .outOfFuel

/-- To replace the value of an end leaves its state and whether there is a
value. -/
theorem withValue_visible (v : Value) (r : EStateM.Result Stop (RunState σ) Flow) :
    final (withValue v r) = final r ∧
      (outcome (withValue v r)).map Flow.result =
        ((outcome r).map Flow.result).map fun _ => v := by
  cases r <;> exact ⟨rfl, rfl⟩

/-- **A block after another ends as it does alone**, on other lines, and with
the value of the other in place of its own zero if it consists of
definitions. -/
theorem Stmt.execAll_after (context : Context σ) (fuel : Nat) (v : Value) (f : Nat → Nat)
    (ss : List Stmt) {s t : RunState σ} (h : s.SameButLines t) :
    let alone := Stmt.execAll (context.call fuel) fuel .zero ss s
    let after := Stmt.execAll (context.call fuel) fuel v (Program.mapLines f ss) t
    (final alone).SameButLines (final after) ∧
      OutcomesAgree
        (((outcome alone).map Flow.result).map fun w => if ss.all Stmt.isDefinition then v else w)
        ((outcome after).map Flow.result) ∧
      (ss.all Stmt.isDefinition = true →
        ∀ w, (outcome alone).map Flow.result = .ok w → w = .zero) := by
  intro alone after
  -- from states that differ in lines the two blocks end alike, and only their first values
  -- differ
  have hAlike := Stmt.execAll_sameButLines context fuel v (Program.unlined_mapLines f ss).symm h
  rw [Stmt.execAll_last (context.call fuel) fuel .zero v ss s] at hAlike
  have hZero := Stmt.execAll_last (context.call fuel) fuel .zero .zero ss s
  cases hDefinitions : ss.all Stmt.isDefinition with
  | true =>
    rw [hDefinitions, if_pos rfl] at hAlike hZero
    obtain ⟨hOutcomes, hFinals⟩ := hAlike.visible
    obtain ⟨hFinal, hOutcome⟩ := withValue_visible v alone
    refine ⟨hFinal ▸ hFinals, hOutcome ▸ hOutcomes.map Flow.result, fun _ w hw => ?_⟩
    have hAlone : alone = withValue .zero alone := hZero
    rw [hAlone, (withValue_visible .zero alone).2] at hw
    cases hResult : (outcome alone).map Flow.result with
    | ok result =>
      rw [hResult] at hw
      exact (Except.ok.inj hw).symm
    | error stop =>
      rw [hResult] at hw
      cases hw
  | false =>
    rw [hDefinitions, if_neg Bool.false_ne_true] at hAlike
    obtain ⟨hOutcomes, hFinals⟩ := hAlike.visible
    refine ⟨hFinals, ?_, nofun⟩
    have hMap : (((outcome alone).map Flow.result).map fun w => if false = true then v else w) =
        (outcome alone).map Flow.result := by
      cases outcome alone <;> rfl
    rw [hMap]
    exact hOutcomes.map Flow.result

/-- Runs in lockstep that cannot escape have one outcome. -/
theorem Together.visible {S T : Type} {R : S → T → Prop} {r : EStateM.Result Stop S α}
    {r' : EStateM.Result Stop T α} (h : Together (fun _ => False) R r r') :
    outcome r = outcome r' ∧ R (final r) (final r') := by
  cases h with
  | ok hR => exact ⟨rfl, hR⟩
  | error hR => exact ⟨rfl, hR⟩
  | escaped hEscape => exact hEscape.elim

/-- An end with a known value is known up to its state. -/
theorem eq_ok_of_outcome {S : Type} {r : EStateM.Result Stop S α} {a : α}
    (h : outcome r = .ok a) : r = .ok a (final r) := by
  cases r with
  | ok b s =>
    cases h
    rfl
  | error stop s => cases h

namespace Session

section Steps

variable (session : Session σ) {a b : String} {first second : Program}
  (hFirst : outcome (Program.parse a) = .ok first)
  (hSecond : outcome (Program.parse b) = .ok second) (fuel : Nat)

include hFirst

/-- The step of a text ends as the block of its program does in the session. -/
theorem eval_eq_flow : (session.eval a fuel).1 = (session.flow first fuel).map Flow.result := by
  obtain ⟨s₁, hs₁, hOutcome, _⟩ := session.eval_of_parse hFirst fuel
  have hTogether := Stmt.execAll_sameButLog session.context fuel .zero first hs₁
  rw [hOutcome, flow, hTogether.visible.1]

include hSecond

/-- Behind a text that fails or returns, another text is not reached. -/
theorem eval_append_of_stopped (h : ∀ v, session.flow first fuel ≠ .ok (.value v)) :
    (session.eval (a ++ "\n" ++ b) fuel).1 = (session.eval a fuel).1 ∧
      (session.eval a fuel).2.state.SameButLog
        (session.eval (a ++ "\n" ++ b) fuel).2.state := by
  obtain ⟨s₁, hs₁, hOne, hOneState⟩ := session.eval_of_parse hFirst fuel
  obtain ⟨s₃, hs₃, hWhole, hWholeState⟩ :=
    session.eval_of_parse (parse_append_of_ok hFirst hSecond) fuel
  have hStart := Stmt.execAll_sameButLog session.context fuel .zero first hs₃
  have hTogether := Stmt.execAll_sameButLog session.context fuel .zero first (hs₁.symm.trans hs₃)
  -- the first part does not come to its end, so that nothing of the second is executed
  have hSkip : Stmt.execAll (session.context.call fuel) fuel .zero
      (first ++ Program.mapLines (· + (a.toList.count '\n' + 1)) second) s₃ =
        Stmt.execAll (session.context.call fuel) fuel .zero first s₃ := by
    rw [Stmt.execAll_append]
    split
    · next v t hRun =>
      refine absurd ?_ (h v)
      rw [flow, hStart.visible.1, hRun]
      rfl
    · rfl
  rw [hSkip] at hWhole hWholeState
  rw [hWhole, hWholeState, hOne, hOneState, hTogether.visible.1]
  exact ⟨rfl, hTogether.visible.2⟩

/-- Behind a text that comes to its end, another text does what it does in the
next step. -/
theorem eval_append_of_value {v : Value} (h : session.flow first fuel = .ok (.value v)) :
    let two := (session.eval a fuel).2.eval b fuel
    let whole := session.eval (a ++ "\n" ++ b) fuel
    two.2.state.SameButLines whole.2.state ∧
      OutcomesAgree (two.1.map fun w => if second.all Stmt.isDefinition then v else w) whole.1 ∧
      (second.all Stmt.isDefinition = true → ∀ w, two.1 = .ok w → w = .zero) := by
  intro two whole
  obtain ⟨s₁, hs₁, _, hOneState⟩ := session.eval_of_parse hFirst fuel
  obtain ⟨s₂, hs₂, hTwo, hTwoState⟩ : ∃ s, _ ∧ two.1 = _ ∧ two.2 = _ :=
    (session.eval a fuel).2.eval_of_parse hSecond fuel
  obtain ⟨s₃, hs₃, hWhole, hWholeState⟩ : ∃ s, _ ∧ whole.1 = _ ∧ whole.2 = _ :=
    session.eval_of_parse (parse_append_of_ok hFirst hSecond) fuel
  have hStart := Stmt.execAll_sameButLog session.context fuel .zero first hs₃
  have hTogether := Stmt.execAll_sameButLog session.context fuel .zero first (hs₁.symm.trans hs₃)
  have hRun : Stmt.execAll (session.context.call fuel) fuel .zero first s₃ = _ :=
    eq_ok_of_outcome (hStart.visible.1.symm.trans h)
  rw [Stmt.execAll_append, hRun] at hWhole hWholeState
  -- the second step starts where the first part of the whole has got to
  have hStates : s₂.SameButLog
      (final (Stmt.execAll (session.context.call fuel) fuel .zero first s₃)) := by
    rw [hOneState] at hs₂
    exact hs₂.symm.trans hTogether.visible.2
  rw [hTwo, hTwoState, hWhole, hWholeState, hOneState]
  exact Stmt.execAll_after session.context fuel v (· + (a.toList.count '\n' + 1)) second
    hStates.sameButLines

end Steps

/-- **Texts can be evaluated step by step or all at once.** Let two texts parse.
If the block of the first comes to its end, then the second text, evaluated in
the next step, leaves the variables, functions and host calls that the two texts
leave when they are evaluated as one, up to lines. The outcome of the second
step is that of the whole, up to lines, except that a text of nothing but
definitions yields zero, where the whole keeps the value of the first. If the
first text fails or returns, then the whole does nothing but that. -/
theorem eval_append (session : Session σ) {a b : String} {first second : Program}
    (hFirst : outcome (Program.parse a) = .ok first)
    (hSecond : outcome (Program.parse b) = .ok second) (fuel : Nat) :
    let one := session.eval a fuel
    let two := one.2.eval b fuel
    let whole := session.eval (a ++ "\n" ++ b) fuel
    match session.flow first fuel with
    | .ok (.value v) =>
      one.1 = .ok v ∧
      two.2.state.SameButLines whole.2.state ∧
      two.2.functionNames = whole.2.functionNames ∧
      (∃ calls calls',
        one.2.state.world.hostCalls = session.state.world.hostCalls ++ calls ∧
        two.2.state.world.hostCalls = one.2.state.world.hostCalls ++ calls' ∧
        whole.2.state.world.hostCalls = session.state.world.hostCalls ++ (calls ++ calls')) ∧
      OutcomesAgree (two.1.map fun w => if second.all Stmt.isDefinition then v else w) whole.1 ∧
      (second.all Stmt.isDefinition = true → ∀ w, two.1 = .ok w → w = .zero)
    | _ => whole.1 = one.1 ∧ one.2.state.SameButLog whole.2.state := by
  intro one two whole
  have hOne : one.1 = (session.flow first fuel).map Flow.result := session.eval_eq_flow hFirst fuel
  have hStopped := session.eval_append_of_stopped hFirst hSecond fuel
  -- the first text comes to its end, or it is all that happens
  split
  · next v hFlow =>
    obtain ⟨hStates, hOutcomes, hZero⟩ := session.eval_append_of_value hFirst hSecond fuel hFlow
    obtain ⟨calls, hCalls⟩ := session.hostCalls_eval a fuel
    obtain ⟨calls', hCalls'⟩ := one.2.hostCalls_eval b fuel
    refine ⟨by rw [hOne, hFlow]; rfl, hStates, hStates.names_eq,
      ⟨calls, calls', hCalls.symm, hCalls'.symm, ?_⟩, hOutcomes, hZero⟩
    rw [← hStates.world.hostCalls, ← hCalls', ← hCalls, List.append_assoc]
  · next hOther => exact hStopped hOther

set_option maxRecDepth 20000 in
/-- A definition in the second step has no value, and the whole keeps the four
of the first. -/
theorem eval_append_definition :
    let session : Session Unit := .start ⟨none, 8⟩ (.start ())
    let two := (session.eval "x = 4;" 9).2.eval "def f() do x; end;" 9
    let whole := session.eval ("x = 4;" ++ "\n" ++ "def f() do x; end;") 9
    outcome (Program.parse "x = 4;") = .ok [.expr ⟨some "x", .number 4, [], 1⟩] ∧
      outcome (Program.parse "def f() do x; end;") =
        .ok [.define "f" [] [.expr ⟨none, .ident "x" 1, [], 1⟩] 1] ∧
      (session.eval "x = 4;" 9).1 = .ok (.int 4) ∧
      two.2.functionNames = whole.2.functionNames ∧
      OutcomesAgree (two.1.map fun _ => Value.int 4) whole.1 ∧
      ∀ w, two.1 = .ok w → w = .zero := by
  intro session two whole
  have hFirst : outcome (Program.parse "x = 4;") =
      .ok [.expr ⟨some "x", .number 4, [], 1⟩] := by cbv
  have hSecond : outcome (Program.parse "def f() do x; end;") =
      .ok [.define "f" [] [.expr ⟨none, .ident "x" 1, [], 1⟩] 1] := by cbv
  have hFlow : session.flow [.expr ⟨some "x", .number 4, [], 1⟩] 9 = .ok (.value (.int 4)) := by
    cbv
  have hSteps := session.eval_append hFirst hSecond 9
  have hDefinitions : [Stmt.define "f" [] [.expr ⟨none, .ident "x" 1, [], 1⟩] 1].all
      Stmt.isDefinition = true := rfl
  simp only [hFlow, hDefinitions, if_true] at hSteps
  obtain ⟨hOne, _, hNames, _, hOutcomes, hZero⟩ := hSteps
  exact ⟨hFirst, hSecond, hOne, hNames, hOutcomes, hZero trivial⟩

end Session

end Scriptlet
