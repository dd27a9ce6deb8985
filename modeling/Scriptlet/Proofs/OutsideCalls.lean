import Scriptlet.Proofs.DeadCode
import Scriptlet.Proofs.Provenance

/-!
# Scriptlet — calls from outside

A function can be called from outside a script, or by a script that does nothing else:
one `return` of a call with the arguments written out. Both ends are the same. Only a
fault of the call itself has a line in the script and none outside; a fault in the body
of the function has the line that it has there, either way.

* `Context.Refuses`, `Context.call_of_refuses` — calls that are at fault themselves;
* `Stmt.line_of_execAll` — every other fault has a line;
* `Context.CallsAgree` — how the two calls end;
* `Program.eval_returning` — the script does nothing but call;
* `Registry.call_agrees_with_script` — the main result.
-/

namespace Scriptlet

variable {σ : Type}

-- ---------------------------------------------------------------------------
-- Calls that are refused
-- ---------------------------------------------------------------------------

/-- A call by name with these arguments is at fault itself: the name stands for nothing,
there are too few arguments or too many active calls, or it stands for a host function
that fails. -/
inductive Context.Refuses (context : Context σ) (s : RunState σ) (name : String)
    (args : List Value) : Cause → Prop
  | unresolved (hResolve : context.resolve s.chain.main.functions name = none) :
    Refuses context s name args (.undefinedFunction name)
  | tooFew {f : FunctionDef}
    (hResolve : context.resolve s.chain.main.functions name = some (.script f))
    (hArgs : args.length < f.params.length) :
    Refuses context s name args (.tooFewArguments f.name f.params f.line args.length)
  | limit {f : FunctionDef}
    (hResolve : context.resolve s.chain.main.functions name = some (.script f))
    (hArgs : f.params.length ≤ args.length) (hDepth : context.maxDepth ≤ s.depth) :
    Refuses context s name args (.callDepth context.maxDepth f.name)
  | failed {f : HostFunction σ} {message : String} {host : σ}
    (hResolve : context.resolve s.chain.main.functions name = some (.host f))
    (hReply : f.respond args s.world.host = (.failed message, host)) :
    Refuses context s name args (.hostFailed f.name message)
  | crashed {f : HostFunction σ} {reason : Option String} {host : σ}
    (hResolve : context.resolve s.chain.main.functions name = some (.host f))
    (hReply : f.respond args s.world.host = (.crashed reason, host)) :
    Refuses context s name args (.hostCrashed f.name reason)

/-- The name stands for a host function that answers with a value. -/
structure Context.Answers (context : Context σ) (s : RunState σ) (name : String)
    (args : List Value) (f : HostFunction σ) (v : Value) (host : σ) : Prop where
  resolve : context.resolve s.chain.main.functions name = some (.host f)
  reply : f.respond args s.world.host = (.returned v, host)

/-- The state after a call of a host function that leaves `host`. -/
def HostFunction.after (f : HostFunction σ) (args : List Value) (s : RunState σ) (host : σ) :
    RunState σ :=
  { s with world := { (s.world.report (.callingHost f.name)).record ⟨f.name, args⟩ with host } }

namespace Context

variable {context : Context σ} {s : RunState σ} {name : String} {args : List Value}

/-- A call is refused, it gets to the body of a function, or a host function answers. -/
theorem refuses_or_invokes_or_answers (context : Context σ) (s : RunState σ) (name : String)
    (args : List Value) :
    (∃ cause, context.Refuses s name args cause) ∨ (∃ f, context.Invokes s name args f) ∨
      ∃ f v host, context.Answers s name args f v host := by
  cases hResolve : context.resolve s.chain.main.functions name with
  | none => exact Or.inl ⟨_, .unresolved hResolve⟩
  | some callee =>
    cases callee with
    | script f =>
      -- too few arguments come first, since the depth is only read for a call that has enough
      rcases Nat.lt_or_ge args.length f.params.length with hArgs | hArgs
      · exact Or.inl ⟨_, .tooFew hResolve hArgs⟩
      · rcases Nat.lt_or_ge s.depth context.maxDepth with hDepth | hDepth
        · exact Or.inr (Or.inl ⟨f, hResolve, hArgs, hDepth⟩)
        · exact Or.inl ⟨_, .limit hResolve hArgs hDepth⟩
    | host f =>
      cases hReply : f.respond args s.world.host with
      | mk reply host =>
        cases reply with
        | returned v => exact Or.inr (Or.inr ⟨f, v, host, hResolve, hReply⟩)
        | failed message => exact Or.inl ⟨_, .failed hResolve hReply⟩
        | crashed reason => exact Or.inl ⟨_, .crashed hResolve hReply⟩

/-- A call of a host function ends with its reply. -/
theorem call_of_host {f : HostFunction σ}
    (hResolve : context.resolve s.chain.main.functions name = some (.host f)) (fuel : Nat)
    (line : Option Nat) :
    context.call (fuel + 1) name args line s =
      match f.respond args s.world.host with
      | (.returned v, host) => .ok v (f.after args s host)
      | (.failed message, host) =>
        .error (.fault ⟨.hostFailed f.name message, line⟩) (f.after args s host)
      | (.crashed reason, host) =>
        .error (.fault ⟨.hostCrashed f.name reason, line⟩) (f.after args s host) := by
  rw [call_succ, hResolve]
  show Eval.onWorld (f.invoke args line)
    { s with world := s.world.report (.callingHost f.name) } = _
  unfold Eval.onWorld HostFunction.invoke
  cases hReply : f.respond args s.world.host with
  | mk reply host =>
    have hReply' : f.respond args (s.world.report (.callingHost f.name)).host = (reply, host) :=
      hReply
    simp only [hReply']
    cases reply <;> rfl

theorem call_of_answers {f : HostFunction σ} {v : Value} {host : σ}
    (h : context.Answers s name args f v host) (fuel : Nat) (line : Option Nat) :
    context.call (fuel + 1) name args line s = .ok v (f.after args s host) := by
  rw [call_of_host h.resolve, h.reply]

/-- **A call that is refused has its fault on the line of the call.** -/
theorem call_of_refuses {cause : Cause} (h : context.Refuses s name args cause) (fuel : Nat) :
    ∃ t, ∀ line, context.call (fuel + 1) name args line s = .error (.fault ⟨cause, line⟩) t := by
  cases h with
  | unresolved hResolve =>
    -- the callee is looked up in `s`, and the line only goes into the fault
    refine ⟨s, fun line => ?_⟩
    rw [call_succ, hResolve]
    rfl
  | @tooFew f hResolve hArgs =>
    refine ⟨s, fun line => ?_⟩
    rw [call_of_script hResolve, FunctionDef.call, if_pos hArgs]
    rfl
  | @limit f hResolve hArgs hDepth =>
    refine ⟨s, fun line => ?_⟩
    rw [call_of_script hResolve, FunctionDef.call, if_neg (Nat.not_lt.mpr hArgs), bind_get,
      if_pos hDepth]
    rfl
  | failed hResolve hReply =>
    exact ⟨_, fun line => by rw [call_of_host hResolve, hReply]⟩
  | crashed hResolve hReply =>
    exact ⟨_, fun line => by rw [call_of_host hResolve, hReply]⟩

end Context

-- ---------------------------------------------------------------------------
-- Faults in the body of a function
-- ---------------------------------------------------------------------------

section Lines

variable {known : Nat → Prop}

mutual

/-- If every line will do, the lines of an operand do. -/
theorem Operand.linesIn_of_forall (h : ∀ line, known line) : (operand : Operand) →
    operand.LinesIn known
  | .ident _ line => by
    rw [Operand.LinesIn]
    exact h line
  | .number _ => by
    rw [Operand.LinesIn]
    trivial
  | .text _ => by
    rw [Operand.LinesIn]
    trivial
  | .call _ args line => by
    rw [Operand.LinesIn]
    exact ⟨h line, Expr.linesInAll_of_forall h args⟩
  | .group inner => by
    rw [Operand.LinesIn]
    exact Expr.linesIn_of_forall h inner

theorem Expr.linesIn_of_forall (h : ∀ line, known line) : (e : Expr) → e.LinesIn known
  | ⟨_, first, rest, line⟩ => by
    rw [Expr.LinesIn]
    exact ⟨h line, Operand.linesIn_of_forall h first, Expr.linesInRest_of_forall h rest⟩

theorem Expr.linesInAll_of_forall (h : ∀ line, known line) : (es : List Expr) →
    Expr.LinesInAll known es
  | [] => by
    rw [Expr.LinesInAll]
    trivial
  | e :: es => by
    rw [Expr.LinesInAll]
    exact ⟨Expr.linesIn_of_forall h e, Expr.linesInAll_of_forall h es⟩

theorem Expr.linesInRest_of_forall (h : ∀ line, known line) : (rest : List (Operator × Operand)) →
    Expr.LinesInRest known rest
  | [] => by
    rw [Expr.LinesInRest]
    trivial
  | (_, operand) :: rest => by
    rw [Expr.LinesInRest]
    exact ⟨Operand.linesIn_of_forall h operand, Expr.linesInRest_of_forall h rest⟩

end

mutual

/-- If every line will do, the lines of a statement do. -/
theorem Stmt.linesIn_of_forall (h : ∀ line, known line) : (s : Stmt) → s.LinesIn known
  | .expr value => by
    rw [Stmt.LinesIn]
    exact Expr.linesIn_of_forall h value
  | .branch condition thenBody none line => by
    rw [Stmt.LinesIn]
    exact ⟨h line, Expr.linesIn_of_forall h condition, Stmt.linesInAll_of_forall h thenBody⟩
  | .branch condition thenBody (some elseBody) line => by
    rw [Stmt.LinesIn]
    exact ⟨h line, Expr.linesIn_of_forall h condition, Stmt.linesInAll_of_forall h thenBody,
      Stmt.linesInAll_of_forall h elseBody⟩
  | .loop condition body line => by
    rw [Stmt.LinesIn]
    exact ⟨h line, Expr.linesIn_of_forall h condition, Stmt.linesInAll_of_forall h body⟩
  | .ret result line => by
    rw [Stmt.LinesIn]
    exact ⟨h line, Expr.linesIn_of_forall h result⟩
  | .define _ _ body line => by
    rw [Stmt.LinesIn]
    exact ⟨h line, Stmt.linesInAll_of_forall h body⟩

theorem Stmt.linesInAll_of_forall (h : ∀ line, known line) : (ss : List Stmt) →
    Stmt.LinesInAll known ss
  | [] => by
    rw [Stmt.LinesInAll]
    trivial
  | s :: ss => by
    rw [Stmt.LinesInAll]
    exact ⟨Stmt.linesIn_of_forall h s, Stmt.linesInAll_of_forall h ss⟩

end

end Lines

/-- **Every fault of statements has a line**, whatever they call. -/
theorem Stmt.line_of_execAll {context : Context σ} {fuel : Nat} {last : Value} {ss : List Stmt}
    {s t : RunState σ} {fault : Fault}
    (h : Stmt.execAll (context.call fuel) fuel last ss s = .error (.fault fault) t) :
    ∃ line, fault.line = some line := by
  -- a fault is placed on a line that is known, so let every line be known
  have hKnown : ∀ line : Nat, (fun _ => True) line := fun _ => trivial
  have hEnd := Stmt.execAll_placed (context.call_placed (fun _ => True) fuel) fuel last ss
    (Stmt.linesInAll_of_forall hKnown ss) s fun name f _ => Stmt.linesIn_of_forall hKnown f.toStmt
  rw [h] at hEnd
  cases hEnd with
  | fault hPlaced =>
    obtain ⟨line, hLine, _⟩ := hPlaced.line
    exact ⟨line, hLine⟩

-- ---------------------------------------------------------------------------
-- A script that only calls
-- ---------------------------------------------------------------------------

/-- A value that is written out on a line. -/
structure Literal where
  value : Value
  line : Nat

/-- The expression that stands for the value. -/
def Literal.expr : Literal → Expr
  | ⟨.int n, line⟩ => ⟨none, .number n, [], line⟩
  | ⟨.text content, line⟩ => ⟨none, .text content, [], line⟩

/-- The program that returns a call with the arguments written out: the `return` stands
on one line and the name on another, perhaps the same. -/
def Program.returning (name : String) (args : List Literal) (returnLine line : Nat) : Program :=
  [.ret ⟨none, .call name (args.map Literal.expr) line, [], line⟩ returnLine]

/-- An expression of one operand that is not assigned has the operand's value. -/
theorem Expr.eval_operand (call : Caller σ) (operand : Operand) (line : Nat) (s : RunState σ) :
    Expr.eval call ⟨none, operand, [], line⟩ s = operand.eval call s := by
  rw [Expr.eval, Setting.around_idle, Expr.terms, Postfix.ofTerms, Postfix.ofRest, List.map_nil,
    Postfix.fold]
  cases h : operand.eval call s with
  | ok v t => rw [bind_assoc, bind_of_ok h]; rfl
  | error stop t => rw [bind_assoc, bind_of_error h]

theorem Literal.eval_expr (call : Caller σ) (literal : Literal) (s : RunState σ) :
    literal.expr.eval call s = .ok literal.value s := by
  obtain ⟨value, line⟩ := literal
  cases value with
  | int n =>
    rw [Literal.expr, Expr.eval_operand, Operand.eval]
    rfl
  | text content =>
    rw [Literal.expr, Expr.eval_operand, Operand.eval]
    rfl

/-- Arguments that are written out have their values. -/
theorem Literal.evalAll_expr (call : Caller σ) (literals : List Literal) (s : RunState σ) :
    Expr.evalAll call (literals.map Literal.expr) s = .ok (literals.map Literal.value) s := by
  induction literals with
  | nil =>
    rw [List.map_nil, Expr.evalAll]
    rfl
  | cons literal literals ih =>
    rw [List.map_cons, Expr.evalAll, bind_of_ok (literal.eval_expr call s), bind_of_ok ih]
    rfl

/-- **The program ends as the call does.** -/
theorem Program.eval_returning (name : String) (args : List Literal) (returnLine line : Nat)
    (context : Context σ) (fuel : Nat) (s : RunState σ) :
    (Program.returning name args returnLine line).eval context fuel s =
      context.call fuel name (args.map Literal.value) (some line) s := by
  have hExpr : Expr.eval (context.call fuel)
      ⟨none, .call name (args.map Literal.expr) line, [], line⟩ s =
        context.call fuel name (args.map Literal.value) (some line) s := by
    rw [Expr.eval_operand, Operand.eval, bind_of_ok (Literal.evalAll_expr _ args s)]
  rw [Program.eval_eq_execAll, Program.returning, Stmt.execAll, Stmt.exec, Setting.around_idle]
  cases hCall : context.call fuel name (args.map Literal.value) (some line) s with
  | ok v t =>
    -- the `return` ends the list of statements, so nothing is left to run after it
    have hRet : (do return Flow.ret (← Expr.eval (context.call fuel)
        ⟨none, .call name (args.map Literal.expr) line, [], line⟩) : Eval σ Flow) s =
          .ok (.ret v) t :=
      bind_of_ok (hExpr.trans hCall)
    rw [bind_assoc, bind_of_ok hRet]
    rfl
  | error stop t =>
    rw [bind_assoc, bind_assoc, bind_of_error (hExpr.trans hCall)]

-- ---------------------------------------------------------------------------
-- Main result
-- ---------------------------------------------------------------------------

/-- How a call from outside ends, and the same call in a script on the given line. -/
inductive Context.CallsAgree (context : Context σ) (s : RunState σ) (name : String)
    (args : List Value) (line : Nat) : Except Stop Value → Except Stop Value → Prop
  /-- Both have the same value. -/
  | value (v : Value) : CallsAgree context s name args line (.ok v) (.ok v)
  /-- The call itself is at fault. The fault has no line outside and that of the call in
  the script. -/
  | refused {cause : Cause} (h : context.Refuses s name args cause) :
    CallsAgree context s name args line (.error (.fault ⟨cause, none⟩))
      (.error (.fault ⟨cause, some line⟩))
  /-- There is a fault in the body of the function, on a line of its own. -/
  | inside {f : FunctionDef} {cause : Cause} {bodyLine : Nat} (h : context.Invokes s name args f) :
    CallsAgree context s name args line (.error (.fault ⟨cause, some bodyLine⟩))
      (.error (.fault ⟨cause, some bodyLine⟩))
  | outOfFuel : CallsAgree context s name args line (.error .outOfFuel) (.error .outOfFuel)

/-- A call ends in the same state wherever it is written. -/
theorem Context.call_agrees (context : Context σ) (fuel : Nat) (s : RunState σ) (name : String)
    (args : List Value) (line : Nat) :
    context.CallsAgree s name args line (outcome (context.call fuel name args none s))
        (outcome (context.call fuel name args (some line) s)) ∧
      final (context.call fuel name args none s) =
        final (context.call fuel name args (some line) s) := by
  cases fuel with
  | zero => exact ⟨.outOfFuel, rfl⟩
  | succ fuel =>
    rcases context.refuses_or_invokes_or_answers s name args with
      ⟨cause, hRefused⟩ | ⟨f, hInvokes⟩ | ⟨f, v, host, hAnswers⟩
    -- refused: the call without a line and the one with it end in the one state `t`
    · obtain ⟨t, hCall⟩ := Context.call_of_refuses hRefused fuel
      rw [hCall, hCall]
      exact ⟨.refused hRefused, rfl⟩
    -- the body is run in the same state, and knows nothing of the line
    · rw [Context.call_of_invokes hInvokes, Context.call_of_invokes hInvokes]
      cases hBody : Stmt.execAll (context.call fuel) fuel .zero f.body (f.enter args s) with
      | ok flow t => exact ⟨.value flow.result, rfl⟩
      | error stop t =>
        cases stop with
        | outOfFuel => exact ⟨.outOfFuel, rfl⟩
        | fault fault =>
          obtain ⟨cause, place⟩ := fault
          -- the fault of a body has a line already, which neither call replaces
          obtain ⟨bodyLine, hLine⟩ := Stmt.line_of_execAll hBody
          obtain rfl : place = some bodyLine := hLine
          exact ⟨.inside hInvokes, rfl⟩
    -- the host function has answered
    · rw [Context.call_of_answers hAnswers, Context.call_of_answers hAnswers]
      exact ⟨.value v, rfl⟩

/-- The diagnostics of both faults are the same but for their lines. -/
theorem Context.CallsAgree.diagnostic {context : Context σ} {s : RunState σ} {name : String}
    {args : List Value} {line : Nat} {fault fault' : Fault}
    (h : context.CallsAgree s name args line (.error (.fault fault)) (.error (.fault fault'))) :
    fault.diagnostic.kind = fault'.diagnostic.kind ∧
      fault.diagnostic.message = fault'.diagnostic.message ∧
      fault.diagnostic.notes = fault'.diagnostic.notes := by
  cases h with
  | refused => exact ⟨rfl, rfl, rfl⟩
  | inside => exact ⟨rfl, rfl, rfl⟩

/-- The outcome of a call from outside is that of the call by name. -/
theorem Registry.call_visible (registry : Registry σ) (name : String) (args : List Value)
    (fuel : Nat) (world : World σ) :
    registry.call name args fuel world =
      (outcome (registry.context.call fuel name args none (.start world)),
        (final (registry.context.call fuel name args none (.start world))).world) := by
  unfold Registry.call
  cases registry.context.call fuel name args none (.start world) <;> rfl

/-- The outcome of a script's run is that of its program. -/
theorem Script.run_visible {script : Script} {program : Program}
    (hTree : script.tree = some program) (context : Context σ) (fuel : Nat) (world : World σ) :
    (script.run context fuel world).1 = outcome (program.eval context fuel (.start world)) ∧
      (final (program.eval context fuel (.start world))).world.SameHost
        (script.run context fuel world).2.2 := by
  cases hRun : program.eval context fuel (.start world) with
  | ok value state =>
    rw [Script.run_of_ok hTree hRun]
    exact ⟨rfl, rfl, rfl⟩
  | error stop state =>
    obtain ⟨later, hLater, hError⟩ := Script.run_of_error hTree hRun
    rw [hError]
    exact ⟨rfl, hLater⟩

/-- **A call from outside agrees with the same call in a script.** Take a script that only
returns a call, with the arguments written out, and run it against a registry. The run
and a call of that name from outside, with the values of the arguments, leave the same
state of the host and have made the same host calls. Both end with the same value, or
both for want of fuel, or both with a fault of the same kind, message and notes. If the
call itself is at fault, since the name stands for nothing, since there are too few
arguments or too many active calls, or since the host function of that name fails, then
the fault has no line outside and the line of the call in the script; otherwise both
faults have the same line. A fault in the body of the function always has one. -/
theorem Registry.call_agrees_with_script {script : Script} {name : String} {args : List Literal}
    {returnLine line : Nat} (hTree : script.tree = some (.returning name args returnLine line))
    (registry : Registry σ) (fuel : Nat) (world : World σ) :
    let values := args.map Literal.value
    let start := RunState.start world
    let outside := registry.call name values fuel world
    let run := script.run registry.context fuel world
    outside.2.SameHost run.2.2 ∧
    registry.context.CallsAgree start name values line outside.1 run.1 ∧
    (∀ {fault fault' : Fault}, outside.1 = .error (.fault fault) → run.1 = .error (.fault fault') →
      fault.diagnostic.kind = fault'.diagnostic.kind ∧
        fault.diagnostic.message = fault'.diagnostic.message ∧
        fault.diagnostic.notes = fault'.diagnostic.notes) ∧
    ∀ {n : Nat} {f : FunctionDef} {fault : Fault} {t : RunState σ}, fuel = n + 1 →
      registry.context.Invokes start name values f →
      Stmt.execAll (registry.context.call n) n .zero f.body (f.enter values start) =
        .error (.fault fault) t →
      outside.1 = .error (.fault fault) ∧ ∃ bodyLine, fault.line = some bodyLine := by
  intro values start outside run
  obtain ⟨hOutcome, hWorld⟩ := script.run_visible hTree registry.context fuel world
  rw [Program.eval_returning] at hOutcome hWorld
  have hOutside : outside = _ := registry.call_visible name values fuel world
  obtain ⟨hAgree, hFinal⟩ := registry.context.call_agrees fuel start name values line
  have hCalls : registry.context.CallsAgree start name values line outside.1 run.1 := by
    rw [hOutside, show run.1 = _ from hOutcome]
    exact hAgree
  have hLeft : outside.2 =
      (final (registry.context.call fuel name values (some line) start)).world := by
    rw [hOutside, ← hFinal]
  refine ⟨hLeft ▸ hWorld, hCalls, ?_, ?_⟩
  · intro fault fault' hFault hFault'
    rw [hFault, hFault'] at hCalls
    exact hCalls.diagnostic
  -- the body that is run outside is the one the claim speaks of
  · rintro n f fault t rfl hInvokes hBody
    refine ⟨?_, Stmt.line_of_execAll hBody⟩
    rw [hOutside, Context.call_of_invokes hInvokes, hBody]
    rfl

/-- The function has called the host when it is at fault on its third line. -/
theorem Registry.call_agrees_with_script_division :
    let note : HostFunction Unit := ⟨"note", fun _ host => (.returned .zero, host)⟩
    let inv : FunctionDef := ⟨"inv", ["n", "m"],
      [.expr ⟨none, .call "note" [⟨none, .ident "m" 2, [], 2⟩] 2, [], 2⟩,
        .expr ⟨none, .number 1, [(.div, .ident "n" 3)], 3⟩], 1⟩
    let registry : Registry Unit := ⟨⟨[("inv", inv)]⟩, ⟨[("note", note)]⟩, 9⟩
    let args : List Literal := [⟨.int 0, 2⟩, ⟨.text "a", 2⟩]
    let source := "return\ninv(0, \"a\");"
    let script : Script := ⟨source, some (.returning "inv" args 1 2), none⟩
    let outside := registry.call "inv" [.int 0, .text "a"] 9 (.start ())
    let run := script.run registry.context 9 (.start ())
    outcome (Program.parse source) = .ok (.returning "inv" args 1 2) ∧
    outside.1 = .error (.fault ⟨.divisionByZero, some 3⟩) ∧
    outside.2.hostCalls = [⟨"note", [.text "a"]⟩] ∧ outside.2.SameHost run.2.2 ∧
    registry.context.CallsAgree (.start (.start ())) "inv" [.int 0, .text "a"] 2 outside.1
      run.1 := by
  have hParse : outcome (Program.parse "return\ninv(0, \"a\");") =
      .ok (.returning "inv" [⟨.int 0, 2⟩, ⟨.text "a", 2⟩] 1 2) := by cbv
  intro note inv registry args source script outside run
  have hFault : outside.1 = .error (.fault ⟨.divisionByZero, some 3⟩) := by decide +kernel
  have hCalls : outside.2.hostCalls = [⟨"note", [.text "a"]⟩] := by decide +kernel
  have hTree : script.tree = some (.returning "inv" args 1 2) := rfl
  obtain ⟨hHost, hAgree, _⟩ := Registry.call_agrees_with_script hTree registry 9 (.start ())
  exact ⟨hParse, hFault, hCalls, hHost, hAgree⟩

end Scriptlet
