import Scriptlet.Proofs.Congruence

/-!
# Scriptlet — two runs in lockstep

Most of what one wants to know about runs compares two of them: with and
without a watch, with a low and a high limit, before and after a link. Two
computations are in lockstep with respect to a relation of states if from
related states they give the same value, or stop in the same way, and leave
related states. The first may also *escape*: it stops in a way after which
nothing is asked of the second.

The induction over evaluation is done here once. `Simulation` lists what a
relation has to satisfy for the primitives of evaluation, and:

* `Stmt.execAll_lockstep` — then blocks are evaluated in lockstep if calls
  by name are;
* `Context.callWith_lockstep` — and calls by name are, for every amount of
  fuel;
* `Program.evalWith_lockstep` — hence so are programs.

An invariant of one run is the case in which both runs are the same.
-/

namespace Scriptlet

-- ---------------------------------------------------------------------------
-- The relation
-- ---------------------------------------------------------------------------

/-- The ends of two runs: the same value or the same stop in related states,
or an escape of the first run. -/
inductive Together {S T α : Type} (escape : Stop → Prop) (R : S → T → Prop) :
    EStateM.Result Stop S α → EStateM.Result Stop T α → Prop
  | ok {a : α} {s : S} {t : T} (h : R s t) : Together escape R (.ok a s) (.ok a t)
  | error {stop : Stop} {s : S} {t : T} (h : R s t) :
    Together escape R (.error stop s) (.error stop t)
  | escaped {stop : Stop} {s : S} {result : EStateM.Result Stop T α} (h : escape stop) :
    Together escape R (.error stop s) result

/-- From related states the two computations end together. -/
def Lockstep {S T α : Type} (escape : Stop → Prop) (R : S → T → Prop) (m : EStateM Stop S α)
    (n : EStateM Stop T α) : Prop :=
  ∀ s t, R s t → Together escape R (m s) (n t)

namespace Lockstep

variable {S T α β : Type} {escape : Stop → Prop} {R : S → T → Prop}

theorem pure (a : α) : Lockstep escape R (Pure.pure a) (Pure.pure a) :=
  fun _ _ h => .ok h

theorem throw (stop : Stop) :
    Lockstep escape R (throw stop : EStateM Stop S α) (throw stop) :=
  fun _ _ h => .error h

/-- A sequence ends together if its first part does and the second is in
lockstep. -/
theorem bind_together {m : EStateM Stop S α} {n : EStateM Stop T α} {f : α → EStateM Stop S β}
    {g : α → EStateM Stop T β} {s : S} {t : T} (h : Together escape R (m s) (n t))
    (hNext : ∀ a, Lockstep escape R (f a) (g a)) :
    Together escape R ((m >>= f) s) ((n >>= g) t) := by
  show Together escape R (EStateM.bind m f s) (EStateM.bind n g t)
  unfold EStateM.bind
  generalize m s = first₁ at h
  generalize n t = first₂ at h
  -- an escape of the first part is one of the whole sequence
  cases h with
  | ok hR => exact hNext _ _ _ hR
  | error hR => exact .error hR
  | escaped hEscape => exact .escaped hEscape

/-- **Sequences are in lockstep if their parts are.** -/
theorem bind {m : EStateM Stop S α} {n : EStateM Stop T α} {f : α → EStateM Stop S β}
    {g : α → EStateM Stop T β} (h : Lockstep escape R m n)
    (hNext : ∀ a, Lockstep escape R (f a) (g a)) : Lockstep escape R (m >>= f) (n >>= g) :=
  fun s t hR => bind_together (h s t hR) hNext

/-- An operation on values does not touch the state. -/
theorem atLine {σ : Type} {R : RunState σ → RunState σ → Prop} (line : Nat)
    (result : Except Cause α) :
    Lockstep escape R (Eval.atLine line result) (Eval.atLine line result) := by
  cases result with
  | ok a => exact pure a
  | error cause => exact throw _

/-- An answer that is none stops both in the same way. -/
theorem malformed {σ : Type} {R : RunState σ → RunState σ → Prop} (e : Expr) :
    Lockstep escape R e.malformed e.malformed :=
  fun _ _ h => .error h

/-- A variable is read in lockstep if it has one value in related states. -/
theorem read {σ : Type} {R : RunState σ → RunState σ → Prop} {name : String}
    (hGet : ∀ s t, R s t → s.chain.get? name = t.chain.get? name) (line : Nat) :
    Lockstep escape R (Eval.read name line) (Eval.read name line) := by
  intro s t h
  unfold Eval.read
  rw [bind_get, bind_get, hGet s t h]
  -- whether there is a value does not depend on the side
  cases demandVariable name line (t.chain.get? name) with
  | ok value => exact .ok h
  | error fault => exact .error h

/-- A body that is run in lockstep in its frame ends together outside of it. -/
theorem inFrame {σ : Type} {R inside : RunState σ → RunState σ → Prop} {frame : Frame}
    {body₁ body₂ : Eval σ α} (hBody : Lockstep escape inside body₁ body₂) {s t : RunState σ}
    (hEnter : inside (Eval.enter frame s) (Eval.enter frame t))
    (hLeave : ∀ s t, inside s t → R (Eval.leave s) (Eval.leave t)) :
    Together escape R (Eval.inFrame frame body₁ s) (Eval.inFrame frame body₂ t) := by
  have hEnd := hBody _ _ hEnter
  unfold Eval.inFrame
  generalize body₁ (Eval.enter frame s) = end₁ at hEnd
  generalize body₂ (Eval.enter frame t) = end₂ at hEnd
  cases hEnd with
  | ok h => exact .ok (hLeave _ _ h)
  | error h => exact .error (hLeave _ _ h)
  | escaped hEscape => exact .escaped hEscape

end Lockstep

/-- The second run has the fuel of the first, or it has more and the first
escapes when it runs dry. -/
def FuelSuffices (escape : Stop → Prop) (fuel₁ fuel₂ : Nat) : Prop :=
  fuel₁ = fuel₂ ∨ fuel₁ ≤ fuel₂ ∧ escape .outOfFuel

theorem FuelSuffices.refl {escape : Stop → Prop} (fuel : Nat) : FuelSuffices escape fuel fuel :=
  Or.inl rfl

/-- More fuel is the same and some to spare, of which the first run may not know
if it escapes. -/
theorem FuelSuffices.exists_spare {escape : Stop → Prop} {fuel₁ fuel₂ : Nat}
    (h : FuelSuffices escape fuel₁ fuel₂) :
    ∃ spare, fuel₂ = fuel₁ + spare ∧ (spare = 0 ∨ escape .outOfFuel) := by
  rcases h with rfl | ⟨hLe, hEscape⟩
  · exact ⟨0, rfl, Or.inl rfl⟩
  · exact ⟨fuel₂ - fuel₁, (Nat.add_sub_cancel' hLe).symm, Or.inr hEscape⟩

/-- A unit of fuel is used on both sides. -/
theorem FuelSuffices.pred {escape : Stop → Prop} {fuel₁ fuel₂ : Nat}
    (h : FuelSuffices escape (fuel₁ + 1) fuel₂) :
    ∃ fuel, fuel₂ = fuel + 1 ∧ FuelSuffices escape fuel₁ fuel := by
  rcases h with rfl | ⟨hLe, hEscape⟩
  · exact ⟨fuel₁, rfl, Or.inl rfl⟩
  · exact ⟨fuel₂ - 1, by omega, Or.inr ⟨by omega, hEscape⟩⟩

-- ---------------------------------------------------------------------------
-- Loops
-- ---------------------------------------------------------------------------

namespace Lockstep

variable {σ : Type} {escape : Stop → Prop} {R : RunState σ → RunState σ → Prop}

/-- Lockstep is closed under what evaluation is built from. -/
theorem congruence : Congruence fun α (m n : Eval σ α) => Lockstep escape R m n where
  pure := pure
  bind := bind

/-- Loops are in lockstep if their conditions and bodies are. The first may
have less fuel if its running dry is an escape. -/
theorem repeatWhile {condition₁ condition₂ : Eval σ Bool} {body₁ body₂ : Eval σ Flow}
    (hCondition : Lockstep escape R condition₁ condition₂) (hBody : Lockstep escape R body₁ body₂)
    {fuel₁ fuel₂ : Nat} (hFuel : FuelSuffices escape fuel₁ fuel₂) (last : Value) :
    Lockstep escape R (Eval.repeatWhile condition₁ body₁ fuel₁ last)
      (Eval.repeatWhile condition₂ body₂ fuel₂ last) := by
  obtain ⟨spare, rfl, hSpare⟩ := hFuel.exists_spare
  refine congruence.repeatWhile hCondition hBody spare (fun last => ?_) fuel₁ last
  -- with nothing to spare, both loops run dry together; otherwise the first escapes
  rcases hSpare with rfl | hEscape
  · exact throw _
  · exact fun s t _ => .escaped hEscape

end Lockstep

-- ---------------------------------------------------------------------------
-- Expressions
-- ---------------------------------------------------------------------------

variable {σ : Type}

/-- What a relation has to satisfy for the evaluation of expressions: the
primitives, the calls by name, and whatever is done around evaluations. -/
structure ExprSimulation (escape : Stop → Prop) (R : RunState σ → RunState σ → Prop)
    (setting₁ setting₂ : Setting σ) : Prop where
  read : ∀ name line, Lockstep escape R (Eval.read name line) (Eval.read name line)
  write : ∀ name value, Lockstep escape R (Eval.write name value) (Eval.write name value)
  around : ∀ α m n, Lockstep escape R m n →
    Lockstep escape R (setting₁.around α m) (setting₂.around α n)
  call : ∀ name args line,
    Lockstep escape R (setting₁.call name args line) (setting₂.call name args line)

section Expressions

variable {escape : Stop → Prop} {R : RunState σ → RunState σ → Prop}
  {setting₁ setting₂ : Setting σ}

/-- An assignment is in lockstep if writes are. -/
theorem Eval.assign_lockstep (h : ExprSimulation escape R setting₁ setting₂)
    (target : Option String) (value : Value) :
    Lockstep escape R (Eval.assign target value) (Eval.assign target value) := by
  cases target with
  | none => exact .pure ()
  | some name => exact h.write name value

mutual

/-- An operand is evaluated in lockstep if calls by name are. -/
theorem Operand.eval_lockstep (h : ExprSimulation escape R setting₁ setting₂) :
    (operand : Operand) →
      Lockstep escape R (operand.eval setting₁) (operand.eval setting₂)
  | .ident name line => by
    rw [Operand.eval, Operand.eval]
    exact h.read name line
  | .number value => by
    rw [Operand.eval, Operand.eval]
    exact .pure _
  | .text content => by
    rw [Operand.eval, Operand.eval]
    exact .pure _
  | .call callee args line => by
    rw [Operand.eval, Operand.eval]
    exact (Expr.evalAll_lockstep h args).bind fun values => h.call callee values (some line)
  | .group inner => by
    rw [Operand.eval, Operand.eval]
    exact Expr.eval_lockstep h inner

/-- **Expressions are evaluated in lockstep** if calls by name are. -/
theorem Expr.eval_lockstep (h : ExprSimulation escape R setting₁ setting₂) :
    (e : Expr) → Lockstep escape R (e.eval setting₁) (e.eval setting₂)
  | ⟨target, first, rest, line⟩ => by
    rw [Expr.eval, Expr.eval]
    refine h.around Value _ _ ?_
    -- the operators are applied in the same order on both sides
    have hItems := Postfix.related_ofTerms (Operand.eval_lockstep h first)
      (Expr.terms_lockstep h rest)
    refine Lockstep.bind (Lockstep.congruence.fold hItems (fun op lhs rhs => .atLine line _)
      (.malformed _) []) ?_
    intro result
    exact (Eval.assign_lockstep h target result).bind fun _ => .pure result

/-- Arguments are evaluated in lockstep, one after the other. -/
theorem Expr.evalAll_lockstep (h : ExprSimulation escape R setting₁ setting₂) :
    (es : List Expr) →
      Lockstep escape R (Expr.evalAll setting₁ es) (Expr.evalAll setting₂ es)
  | [] => by
    rw [Expr.evalAll, Expr.evalAll]
    exact .pure []
  | e :: es => by
    rw [Expr.evalAll, Expr.evalAll]
    refine (Expr.eval_lockstep h e).bind fun value => ?_
    exact (Expr.evalAll_lockstep h es).bind fun values => .pure (value :: values)

/-- The operands behind operators are evaluated in lockstep, each where it
stands. -/
theorem Expr.terms_lockstep (h : ExprSimulation escape R setting₁ setting₂) :
    (rest : List (Operator × Operand)) →
      Postfix.RelatedTerms (Lockstep escape R) (Expr.terms setting₁ rest)
        (Expr.terms setting₂ rest)
  | [] => by
    rw [Expr.terms, Expr.terms]
    exact .nil
  | (op, operand) :: rest => by
    rw [Expr.terms, Expr.terms]
    exact .cons ⟨rfl, Operand.eval_lockstep h operand⟩ (Expr.terms_lockstep h rest)

end

/-- A condition is judged in lockstep. -/
theorem Expr.holds_lockstep (h : ExprSimulation escape R setting₁ setting₂)
    (condition : Expr) :
    Lockstep escape R (condition.holds setting₁) (condition.holds setting₂) := by
  rw [Expr.holds, Expr.holds]
  exact (Expr.eval_lockstep h condition).bind fun value => .atLine condition.line value.truth

end Expressions

-- ---------------------------------------------------------------------------
-- Statements
-- ---------------------------------------------------------------------------

mutual

/-- The functions that a statement may define when it is executed. Those in
the bodies of functions are not among them. -/
def Stmt.definitions : Stmt → List FunctionDef
  | .expr _ => []
  | .branch _ thenBody none _ => Stmt.definitionsAll thenBody
  | .branch _ thenBody (some elseBody) _ =>
    Stmt.definitionsAll thenBody ++ Stmt.definitionsAll elseBody
  | .loop _ body _ => Stmt.definitionsAll body
  | .ret _ _ => []
  | .define name params body line => [⟨name, params, body, line⟩]

/-- The functions that a block may define when it is executed. -/
def Stmt.definitionsAll : List Stmt → List FunctionDef
  | [] => []
  | s :: ss => s.definitions ++ Stmt.definitionsAll ss

end

section Statements

variable {escape : Stop → Prop} {R : RunState σ → RunState σ → Prop}
  {setting₁ setting₂ : Setting σ} {fuel₁ fuel₂ : Nat}

mutual

/-- A statement is executed in lockstep if calls by name are, and the functions
that it defines are defined so. -/
theorem Stmt.exec_lockstep (h : ExprSimulation escape R setting₁ setting₂)
    (hFuel : FuelSuffices escape fuel₁ fuel₂) : (s : Stmt) →
    (∀ f ∈ s.definitions, Lockstep escape R (Eval.define f) (Eval.define f)) →
      Lockstep escape R (s.exec setting₁ fuel₁) (s.exec setting₂ fuel₂)
  | .expr value, _ => by
    rw [Stmt.exec, Stmt.exec]
    exact h.around Flow _ _ ((Expr.eval_lockstep h value).bind fun v => .pure (Flow.value v))
  | .branch condition thenBody none _, hDefine => by
    rw [Stmt.definitions] at hDefine
    rw [Stmt.exec, Stmt.exec]
    refine h.around Flow _ _ ((Expr.holds_lockstep h condition).bind fun holds => ?_)
    cases holds with
    | true => exact Stmt.execAll_lockstep h hFuel .zero thenBody hDefine
    | false => exact .pure _
  | .branch condition thenBody (some elseBody) _, hDefine => by
    rw [Stmt.definitions] at hDefine
    rw [Stmt.exec, Stmt.exec]
    refine h.around Flow _ _ ((Expr.holds_lockstep h condition).bind fun holds => ?_)
    cases holds with
    | true =>
      exact Stmt.execAll_lockstep h hFuel .zero thenBody fun f hf =>
        hDefine f (List.mem_append_left _ hf)
    | false =>
      exact Stmt.execAll_lockstep h hFuel .zero elseBody fun f hf =>
        hDefine f (List.mem_append_right _ hf)
  | .loop condition body _, hDefine => by
    rw [Stmt.definitions] at hDefine
    rw [Stmt.exec, Stmt.exec]
    exact h.around Flow _ _ (.repeatWhile (Expr.holds_lockstep h condition)
      (Stmt.execAll_lockstep h hFuel .zero body hDefine) hFuel .zero)
  | .ret result _, _ => by
    rw [Stmt.exec, Stmt.exec]
    exact h.around Flow _ _ ((Expr.eval_lockstep h result).bind fun v => .pure (Flow.ret v))
  | .define name params body line, hDefine => by
    rw [Stmt.definitions] at hDefine
    rw [Stmt.exec, Stmt.exec]
    exact h.around Flow _ _ ((hDefine _ List.mem_cons_self).bind fun _ => .pure Flow.next)

/-- **Blocks are evaluated in lockstep** if calls by name are. -/
theorem Stmt.execAll_lockstep (h : ExprSimulation escape R setting₁ setting₂)
    (hFuel : FuelSuffices escape fuel₁ fuel₂) (last : Value) :
    (ss : List Stmt) →
    (∀ f ∈ Stmt.definitionsAll ss, Lockstep escape R (Eval.define f) (Eval.define f)) →
      Lockstep escape R (Stmt.execAll setting₁ fuel₁ last ss)
        (Stmt.execAll setting₂ fuel₂ last ss)
  | [], _ => by
    rw [Stmt.execAll, Stmt.execAll]
    exact .pure _
  | s :: ss, hDefine => by
    rw [Stmt.definitionsAll] at hDefine
    rw [Stmt.execAll, Stmt.execAll]
    -- what the block defines is what its statements define
    have hFirst := Stmt.exec_lockstep h hFuel s fun f hf =>
      hDefine f (List.mem_append_left _ hf)
    have hRest := fun last => Stmt.execAll_lockstep h hFuel last ss fun f hf =>
      hDefine f (List.mem_append_right _ hf)
    refine hFirst.bind fun flow => ?_
    cases flow with
    | next => exact hRest last
    | value v => exact hRest v
    | ret v => exact .pure _

end

end Statements

-- ---------------------------------------------------------------------------
-- Calls and programs
-- ---------------------------------------------------------------------------

/-- What a relation of states, which may depend on the active calls, has to
satisfy for evaluation as a whole. Only functions that are `allowed` have to
be defined in lockstep, as long as no others can be. -/
structure Simulation (escape : Stop → Prop) (allowed : FunctionDef → Prop)
    (context₁ context₂ : Context σ) (watch₁ watch₂ : Watch σ)
    (R : List Activation → RunState σ → RunState σ → Prop) : Prop where
  get : ∀ {active s t}, R active s t → ∀ name, s.chain.get? name = t.chain.get? name
  set : ∀ {active s t}, R active s t → ∀ name value,
    R active { s with chain := s.chain.set name value } { t with chain := t.chain.set name value }
  define : ∀ active f, allowed f →
    Lockstep escape (R active) (Eval.define f) (Eval.define f)
  report : ∀ {active s t}, R active s t → ∀ event, event.level = .trace →
    R active { s with world := s.world.report event } { t with world := t.world.report event }
  host : ∀ {active s t}, R active s t → ∀ {name f},
    context₁.resolve s.chain.main.functions name = some (.host f) → ∀ args line,
      Together escape (R active) (Eval.onWorld (f.invoke args line) s)
        (Eval.onWorld (f.invoke args line) t)
  resolve : ∀ {active s t}, R active s t → ∀ name,
    context₁.resolve s.chain.main.functions name = context₂.resolve t.chain.main.functions name
  body : ∀ {active s t}, R active s t → ∀ {name f},
    context₁.resolve s.chain.main.functions name = some (.script f) →
      ∀ g ∈ Stmt.definitionsAll f.body, allowed g
  depth : ∀ {active s t}, R active s t → s.depth = t.depth
  limit : context₁.maxDepth = context₂.maxDepth ∨ context₁.maxDepth ≤ context₂.maxDepth ∧
    ∀ name line, escape (.fault ⟨.callDepth context₁.maxDepth name, line⟩)
  enter : ∀ {active s t}, R active s t → s.depth < context₁.maxDepth →
    ∀ (f : FunctionDef) (args : List Value), f.params.length ≤ args.length →
      R (⟨f, args⟩ :: active) (Eval.enter (.ofArguments f.params args) s)
        (Eval.enter (.ofArguments f.params args) t)
  leave : ∀ {a active s t}, R (a :: active) s t → R active (Eval.leave s) (Eval.leave t)
  watch : ∀ active α m n, Lockstep escape (R active) m n →
    Lockstep escape (R active) (watch₁ active α m) (watch₂ active α n)

namespace Simulation

variable {escape : Stop → Prop} {allowed : FunctionDef → Prop} {context₁ context₂ : Context σ}
  {watch₁ watch₂ : Watch σ} {R : List Activation → RunState σ → RunState σ → Prop}
  {active : List Activation} {fuel₁ fuel₂ : Nat}

/-- Reading is in lockstep, as related states have the same variables. -/
theorem read_lockstep (h : Simulation escape allowed context₁ context₂ watch₁ watch₂ R)
    (name : String) (line : Nat) :
    Lockstep escape (R active) (Eval.read name line) (Eval.read name line) :=
  .read (fun _ _ hR => h.get hR name) line

/-- The evaluation of expressions inside the given calls. -/
theorem exprs (h : Simulation escape allowed context₁ context₂ watch₁ watch₂ R)
    {call₁ call₂ : Caller σ} (hCall : ∀ name args line,
      Lockstep escape (R active) (call₁ name args line) (call₂ name args line)) :
    ExprSimulation escape (R active) ⟨call₁, watch₁ active⟩ ⟨call₂, watch₂ active⟩ where
  read := h.read_lockstep
  write := fun name value _ _ hR => .ok (h.set hR name value)
  around := h.watch active
  call := hCall

/-- A body is run in lockstep inside one more call. -/
theorem inFrame_lockstep (h : Simulation escape allowed context₁ context₂ watch₁ watch₂ R)
    {f : FunctionDef} {args : List Value} {body₁ body₂ : Eval σ Flow}
    (hBody : Lockstep escape (R (⟨f, args⟩ :: active)) body₁ body₂)
    (hArgs : f.params.length ≤ args.length) {s t : RunState σ} (hR : R active s t)
    (hDepth : s.depth < context₁.maxDepth) :
    Together escape (R active) (Eval.inFrame (.ofArguments f.params args) body₁ s)
      (Eval.inFrame (.ofArguments f.params args) body₂ t) :=
  hBody.inFrame (h.enter hR hDepth f args hArgs) fun _ _ => h.leave

/-- A script function is called in lockstep if its body is run in lockstep. -/
theorem call_lockstep (h : Simulation escape allowed context₁ context₂ watch₁ watch₂ R)
    {f : FunctionDef} {args : List Value} {body₁ body₂ : Eval σ Flow}
    (hBody : Lockstep escape (R (⟨f, args⟩ :: active)) body₁ body₂) (line : Option Nat) :
    Lockstep escape (R active) (f.call context₁.maxDepth body₁ args line)
      (f.call context₂.maxDepth body₂ args line) := by
  unfold FunctionDef.call
  by_cases hFew : args.length < f.params.length
  · rw [if_pos hFew, if_pos hFew]
    exact fun _ _ hR => .error hR
  · rw [if_neg hFew, if_neg hFew]
    intro s t hR
    have hDepth := h.depth hR
    show Together escape (R active)
      ((if context₁.maxDepth ≤ s.depth then _ else _ : Eval σ Value) s)
      ((if context₂.maxDepth ≤ t.depth then _ else _ : Eval σ Value) t)
    -- the first call is refused; the second may be accepted if its limit is higher
    by_cases hDeep : context₁.maxDepth ≤ s.depth
    · rw [if_pos hDeep]
      rcases h.limit with hSame | ⟨_, hEscape⟩
      · rw [if_pos (by omega), hSame]
        exact .error hR
      · exact .escaped (hEscape f.name line)
    -- both calls are accepted, and the bodies start in related states
    · have hLimit : context₁.maxDepth ≤ context₂.maxDepth := by
        rcases h.limit with hSame | ⟨hLe, _⟩ <;> omega
      rw [if_neg hDeep, if_neg (by omega), hDepth]
      have hReported := h.report hR (.callingScript f.name t.depth) rfl
      have hBelow : s.depth < context₁.maxDepth := by omega
      have hFrame := h.inFrame_lockstep hBody (Nat.not_lt.mp hFew) hReported hBelow
      exact Lockstep.bind_together (f := fun flow => pure flow.result) hFrame
        fun flow => .pure flow.result

end Simulation

section Calls

variable {escape : Stop → Prop} {allowed : FunctionDef → Prop} {context₁ context₂ : Context σ}
  {watch₁ watch₂ : Watch σ} {R : List Activation → RunState σ → RunState σ → Prop}
  {fuel₁ fuel₂ : Nat}

/-- **Calls by name are in lockstep**, however deep the calls go and however
often loops go round. -/
theorem Context.callWith_lockstep
    (h : Simulation escape allowed context₁ context₂ watch₁ watch₂ R)
    (hFuel : FuelSuffices escape fuel₁ fuel₂) (active : List Activation)
    (name : String) (args : List Value) (line : Option Nat) :
    Lockstep escape (R active) (context₁.callWith watch₁ fuel₁ active name args line)
      (context₂.callWith watch₂ fuel₂ active name args line) := by
  -- the induction is for all active calls, since a body is run inside one more
  induction fuel₁ generalizing fuel₂ active name args line with
  | zero =>
    rcases hFuel with rfl | ⟨_, hEscape⟩
    · exact h.watch active Value _ _ (.throw _)
    · cases fuel₂ with
      | zero => exact h.watch active Value _ _ (.throw _)
      | succ fuel₂ => exact h.watch active Value _ _ fun s t _ => .escaped hEscape
  | succ fuel₁ ih =>
    obtain ⟨fuel₂, rfl, hFuel'⟩ := hFuel.pred
    rw [Context.callWith, Context.callWith]
    refine h.watch active Value _ _ fun s t hR => ?_
    have hResolve := h.resolve hR name
    rw [bind_get, bind_get, ← hResolve]
    cases hCallee : context₁.resolve s.chain.main.functions name with
    | none => exact .error hR
    | some callee =>
      cases callee with
      -- the body has the fuel that is left, as have the calls in it
      | script f =>
        have hInside := h.exprs (ih hFuel' (⟨f, args⟩ :: active))
        have hBody := Stmt.execAll_lockstep hInside hFuel' .zero f.body fun g hg =>
          h.define _ g (h.body hR hCallee g hg)
        exact h.call_lockstep hBody line s t hR
      | host f =>
        exact h.host (h.report hR (.callingHost f.name) rfl) hCallee args line

/-- The body of a call, or what stands outside of all calls, is evaluated in
lockstep. -/
theorem Simulation.block (h : Simulation escape allowed context₁ context₂ watch₁ watch₂ R)
    (hFuel : FuelSuffices escape fuel₁ fuel₂) (active : List Activation)
    (last : Value) {ss : List Stmt} (hDefine : ∀ f ∈ Stmt.definitionsAll ss, allowed f) :
    Lockstep escape (R active)
      (Stmt.execAll ⟨context₁.callWith watch₁ fuel₁ active, watch₁ active⟩ fuel₁ last ss)
      (Stmt.execAll ⟨context₂.callWith watch₂ fuel₂ active, watch₂ active⟩ fuel₂ last ss) :=
  Stmt.execAll_lockstep (h.exprs (Context.callWith_lockstep h hFuel active)) hFuel last ss
    fun f hf => h.define active f (hDefine f hf)

/-- **Programs are evaluated in lockstep.** -/
theorem Program.evalWith_lockstep
    (h : Simulation escape allowed context₁ context₂ watch₁ watch₂ R)
    (hFuel : FuelSuffices escape fuel₁ fuel₂) (program : Program)
    (hDefine : ∀ f ∈ Stmt.definitionsAll program, allowed f) :
    Lockstep escape (R []) (program.evalWith context₁ watch₁ fuel₁)
      (program.evalWith context₂ watch₂ fuel₂) := by
  rw [Program.evalWith, Program.evalWith]
  exact (h.block hFuel [] .zero hDefine).bind fun flow => .pure flow.result

end Calls

end Scriptlet
