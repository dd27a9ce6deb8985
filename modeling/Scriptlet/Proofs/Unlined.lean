import Scriptlet.Proofs.Linking
import Scriptlet.Proofs.Relocation

/-!
# Scriptlet — runs do not depend on lines

A run reads lines from the tree only to put them into faults. So if a program,
the functions it calls and those it has defined so far are put on other lines,
the run is the same, up to the lines of the fault that may end it.

* `Relines` — the second computation mirrors the first on other lines;
* `Expr.eval_relines`, `Stmt.execAll_relines`, `Context.call_relines` — the
  evaluator does, for every amount of fuel;
* `RunState.SameButLines`, `Stmt.execAll_sameButLines` — two blocks that differ
  in lines only, run from states that do, end alike.
-/

namespace Scriptlet

-- ---------------------------------------------------------------------------
-- Functions and faults
-- ---------------------------------------------------------------------------

/-- The function with all its parts on other lines. -/
def FunctionDef.mapLines (f : Nat → Nat) (g : FunctionDef) : FunctionDef :=
  ⟨g.name, g.params, Stmt.mapLinesAll f g.body, f g.line⟩

/-- The function without lines. -/
def FunctionDef.unlined (g : FunctionDef) : FunctionDef :=
  g.mapLines fun _ => 0

/-- The program without lines. -/
def Program.unlined (program : Program) : Program :=
  program.mapLines fun _ => 0

/-- The cause without the line that it may mention. -/
def Cause.unlined : Cause → Cause
  | .tooFewArguments name params _ received => .tooFewArguments name params 0 received
  | cause => cause

/-- The kind of a fault does not depend on lines. -/
theorem Cause.kind_unlined (cause : Cause) : cause.unlined.kind = cause.kind := by
  cases cause <;> rfl

/-- A message never names the line that its cause mentions. -/
theorem Cause.message_unlined (cause : Cause) : cause.unlined.message = cause.message := by
  cases cause <;> rfl

/-- The stop without lines. -/
def Stop.unlined : Stop → Stop
  | .fault f => .fault ⟨f.cause.unlined, f.line.map fun _ => 0⟩
  | .outOfFuel => .outOfFuel

/-- The two stops differ in lines only. -/
def Stop.SameButLines (stop other : Stop) : Prop :=
  stop.unlined = other.unlined

/-- Faults that differ in lines only are of one kind and have one message. -/
theorem Stop.SameButLines.diagnostic {fault other : Fault}
    (h : Stop.SameButLines (.fault fault) (.fault other)) :
    fault.diagnostic.kind = other.diagnostic.kind ∧
      fault.diagnostic.message = other.diagnostic.message := by
  have hCause : fault.cause.unlined = other.cause.unlined :=
    congrArg Fault.cause (Stop.fault.inj h)
  constructor
  · show fault.cause.kind = other.cause.kind
    rw [← fault.cause.kind_unlined, hCause, Cause.kind_unlined]
  · show fault.cause.message = other.cause.message
    rw [← fault.cause.message_unlined, hCause, Cause.message_unlined]

-- ---------------------------------------------------------------------------
-- Trees without lines
-- ---------------------------------------------------------------------------

mutual

/-- Lines that are mapped twice may be mapped once. -/
theorem Operand.mapLines_mapLines (g f : Nat → Nat) : (operand : Operand) →
    (operand.mapLines f).mapLines g = operand.mapLines (g ∘ f)
  | .ident name line => by simp only [Operand.mapLines, Function.comp]
  | .number value => by simp only [Operand.mapLines]
  | .text content => by simp only [Operand.mapLines]
  | .call callee args line => by
    simp only [Operand.mapLines, Expr.mapLinesAll_mapLinesAll g f args, Function.comp]
  | .group inner => by simp only [Operand.mapLines, Expr.mapLines_mapLines g f inner]

theorem Expr.mapLines_mapLines (g f : Nat → Nat) : (e : Expr) →
    (e.mapLines f).mapLines g = e.mapLines (g ∘ f)
  | ⟨target, first, rest, line⟩ => by
    simp only [Expr.mapLines, Operand.mapLines_mapLines g f first,
      Expr.mapLinesRest_mapLinesRest g f rest, Function.comp]

theorem Expr.mapLinesAll_mapLinesAll (g f : Nat → Nat) : (es : List Expr) →
    Expr.mapLinesAll g (Expr.mapLinesAll f es) = Expr.mapLinesAll (g ∘ f) es
  | [] => by simp only [Expr.mapLinesAll]
  | e :: es => by
    simp only [Expr.mapLinesAll, Expr.mapLines_mapLines g f e,
      Expr.mapLinesAll_mapLinesAll g f es]

theorem Expr.mapLinesRest_mapLinesRest (g f : Nat → Nat) : (rest : List (Operator × Operand)) →
    Expr.mapLinesRest g (Expr.mapLinesRest f rest) = Expr.mapLinesRest (g ∘ f) rest
  | [] => by simp only [Expr.mapLinesRest]
  | (op, operand) :: rest => by
    simp only [Expr.mapLinesRest, Operand.mapLines_mapLines g f operand,
      Expr.mapLinesRest_mapLinesRest g f rest]

end

mutual

theorem Stmt.mapLines_mapLines (g f : Nat → Nat) : (s : Stmt) →
    (s.mapLines f).mapLines g = s.mapLines (g ∘ f)
  | .expr value => by simp only [Stmt.mapLines, Expr.mapLines_mapLines]
  | .branch condition thenBody none line => by
    simp only [Stmt.mapLines, Expr.mapLines_mapLines, Stmt.mapLinesAll_mapLinesAll g f thenBody,
      Function.comp]
  | .branch condition thenBody (some elseBody) line => by
    simp only [Stmt.mapLines, Expr.mapLines_mapLines, Stmt.mapLinesAll_mapLinesAll g f thenBody,
      Stmt.mapLinesAll_mapLinesAll g f elseBody, Function.comp]
  | .loop condition body line => by
    simp only [Stmt.mapLines, Expr.mapLines_mapLines, Stmt.mapLinesAll_mapLinesAll g f body,
      Function.comp]
  | .ret result line => by simp only [Stmt.mapLines, Expr.mapLines_mapLines, Function.comp]
  | .define name params body line => by
    simp only [Stmt.mapLines, Stmt.mapLinesAll_mapLinesAll g f body, Function.comp]

theorem Stmt.mapLinesAll_mapLinesAll (g f : Nat → Nat) : (ss : List Stmt) →
    Stmt.mapLinesAll g (Stmt.mapLinesAll f ss) = Stmt.mapLinesAll (g ∘ f) ss
  | [] => by simp only [Stmt.mapLinesAll]
  | s :: ss => by
    simp only [Stmt.mapLinesAll, Stmt.mapLines_mapLines g f s, Stmt.mapLinesAll_mapLinesAll g f ss]

end

/-- Trees on any lines are the same without them. -/
theorem Program.unlined_mapLines (f : Nat → Nat) (program : Program) :
    Program.unlined (Program.mapLines f program) = Program.unlined program :=
  Stmt.mapLinesAll_mapLinesAll _ f program

-- ---------------------------------------------------------------------------
-- Tables and contexts
-- ---------------------------------------------------------------------------

namespace Table

variable {α β : Type}

/-- The table with all its entries changed. -/
def map (g : α → β) (table : Table α) : Table β :=
  ⟨table.entries.map fun entry => (entry.1, g entry.2)⟩

/-- A look-up finds what it found before, changed. -/
theorem find?_map (g : α → β) (table : Table α) (name : String) :
    (table.map g).find? name = (table.find? name).map g := by
  obtain ⟨entries⟩ := table
  show (entries.map fun entry => (entry.1, g entry.2)).lookup name = (entries.lookup name).map g
  induction entries with
  | nil => rfl
  | cons entry entries ih =>
    obtain ⟨other, a⟩ := entry
    rw [List.map_cons, List.lookup_cons, List.lookup_cons, ih]
    cases name == other <;> rfl

/-- No name comes or goes. -/
theorem contains_map (g : α → β) (table : Table α) (name : String) :
    (table.map g).contains name = table.contains name := by
  rw [contains, find?_map, Option.isSome_map, contains]

/-- It does not matter whether an entry is changed before it is put in or after. -/
theorem insert_map (g : α → β) (table : Table α) (name : String) (a : α) :
    (table.map g).insert name (g a) = (table.insert name a).map g := by
  obtain ⟨entries⟩ := table
  show Table.mk (insertEntry name (g a) (entries.map fun entry => (entry.1, g entry.2))) =
    ⟨(insertEntry name a entries).map fun entry => (entry.1, g entry.2)⟩
  congr 1
  induction entries with
  | nil => rfl
  | cons entry entries ih =>
    obtain ⟨other, old⟩ := entry
    rw [List.map_cons, insertEntry, insertEntry, ih]
    cases name == other <;> rfl

/-- The names are in the same order. -/
theorem names_map (g : α → β) (table : Table α) : (table.map g).names = table.names := by
  simp [names, map]

end Table

variable {σ : Type}

/-- What the name stands for, on other lines. -/
def Callee.mapLines (f : Nat → Nat) : Callee σ → Callee σ
  | .script g => .script (g.mapLines f)
  | .host g => .host g

/-- The context with all linked functions on other lines. -/
def Context.mapLines (f : Nat → Nat) (context : Context σ) : Context σ :=
  ⟨context.registry.map fun registry =>
    { registry with functions := registry.functions.map (FunctionDef.mapLines f) },
    context.maxDepth⟩

/-- Names stand for the same functions, on other lines. -/
theorem Context.resolve_mapLines (f : Nat → Nat) (context : Context σ) (own : Table FunctionDef)
    (name : String) :
    (context.mapLines f).resolve (own.map (FunctionDef.mapLines f)) name =
      (context.resolve own name).map (Callee.mapLines f) := by
  unfold Context.resolve
  rw [Table.find?_map]
  cases own.find? name with
  | some g => rfl
  | none =>
    obtain ⟨registry, maxDepth⟩ := context
    cases registry with
    | none => rfl
    | some registry =>
      show Registry.resolve _ name = (registry.resolve name).map _
      unfold Registry.resolve
      rw [Table.find?_map]
      cases registry.functions.find? name with
      | some g => rfl
      | none => cases registry.hosts.find? name <;> rfl

-- ---------------------------------------------------------------------------
-- Runs on other lines
-- ---------------------------------------------------------------------------

/-- The second state has the functions of the first on other lines, and agrees
with it in everything else but the log. -/
structure RunState.Relined (f : Nat → Nat) (s t : RunState σ) : Prop where
  calls : t.chain.calls = s.chain.calls
  bindings : t.chain.main.bindings = s.chain.main.bindings
  functions : t.chain.main.functions = s.chain.main.functions.map (FunctionDef.mapLines f)
  depth : t.depth = s.depth
  world : s.world.SameHost t.world

/-- The variables are the same, since only functions are on other lines. -/
theorem RunState.Relined.sameVariables {f : Nat → Nat} {s t : RunState σ} (h : s.Relined f t) :
    t.chain.SameVariables s.chain :=
  ⟨h.calls, h.bindings⟩

/-- On other lines, the second computation does what the first does. -/
abbrev Relines {α : Type} (f : Nat → Nat) (m n : Eval σ α) : Prop :=
  Mirrors Stop.SameButLines (RunState.Relined f) id m n

namespace Relines

variable {f : Nat → Nat} {α : Type}

/-- A fault is the same on another line, also if its cause mentions one. -/
theorem fail (cause : Cause) {cause' : Cause} (h : cause.unlined = cause'.unlined)
    (line : Option Nat) :
    Relines (σ := σ) (α := α) f (Eval.fail cause line) (Eval.fail cause' (line.map f)) := by
  refine .throw ?_
  show Stop.fault ⟨cause.unlined, line.map _⟩ = .fault ⟨cause'.unlined, (line.map f).map _⟩
  rw [h, Option.map_map]
  rfl

/-- Sequences are the same on other lines. -/
theorem congruence : Congruence fun α (m n : Eval σ α) => Relines f m n where
  pure _ := .pure rfl
  bind := .bind

/-- The fault of an operation on values belongs to a line, its value does not. -/
theorem atLine (line : Nat) (result : Except Cause α) :
    Relines (σ := σ) f (Eval.atLine line result) (Eval.atLine (f line) result) := by
  cases result with
  | ok a => exact .pure rfl
  | error cause => exact fail cause rfl (some line)

/-- The log is not compared. -/
theorem report (event : Event) :
    Relines (σ := σ) f (Eval.report event) (Eval.report event) :=
  fun _ _ h => .ok (a := ()) { h with world := ⟨h.world.host, h.world.hostCalls⟩ }

/-- A variable has one value on all lines, and its absence is a fault on one. -/
theorem read (name : String) (line : Nat) :
    Relines (σ := σ) f (Eval.read name line) (Eval.read name (f line)) := by
  intro s t h
  unfold Eval.read
  rw [bind_get, bind_get, h.sameVariables.get?_eq name]
  cases s.chain.get? name with
  | some value => exact .ok (a := value) h
  | none => exact fail (.undefinedVariable name) rfl (some line) s t h

/-- A variable is written without regard to lines. -/
theorem write (name : String) (value : Value) :
    Relines (σ := σ) f (Eval.write name value) (Eval.write name value) := by
  intro s t h
  have hSet := h.sameVariables.set name value
  refine .ok (a := ()) { h with calls := hSet.calls, bindings := hSet.bindings, functions := ?_ }
  simpa using h.functions

/-- A function is defined on other lines under the same name. -/
theorem define (g : FunctionDef) :
    Relines (σ := σ) f (Eval.define g) (Eval.define (g.mapLines f)) := by
  intro s t h
  have hContains : t.chain.main.functions.contains g.name =
      s.chain.main.functions.contains g.name := by
    rw [h.functions, Table.contains_map]
  unfold Eval.define Frame.defineFunction
  rw [show (g.mapLines f).name = g.name from rfl, hContains]
  cases s.chain.main.functions.contains g.name with
  | true => exact fail (.duplicateFunction g.name) rfl (some g.line) s t h
  -- the name is free on both sides, and the new entries match like the old ones
  | false =>
    refine .ok (a := ()) { h with functions := ?_ }
    show t.chain.main.functions.insert g.name (g.mapLines f) = _
    rw [h.functions, Table.insert_map]

/-- A host function is not told the line of the call. -/
theorem host (g : HostFunction σ) (args : List Value) (line : Option Nat) :
    Relines f (Eval.onWorld (g.invoke args line)) (Eval.onWorld (g.invoke args (line.map f))) := by
  intro s t h
  have hCalls : (s.world.record ⟨g.name, args⟩).hostCalls =
      (t.world.record ⟨g.name, args⟩).hostCalls := by
    rw [World.hostCalls_record, World.hostCalls_record, h.world.hostCalls]
  unfold Eval.onWorld HostFunction.invoke
  rw [← h.world.host]
  -- the host answers the same, and its failures are faults on the line of the call
  cases g.respond args s.world.host with
  | mk reply host =>
    cases reply with
    | returned value => exact .ok (a := value) { h with world := ⟨rfl, hCalls⟩ }
    | failed message =>
      exact fail (.hostFailed g.name message) rfl line _ _
        { h with world := ⟨rfl, hCalls⟩ }
    | crashed reason =>
      exact fail (.hostCrashed g.name reason) rfl line _ _
        { h with world := ⟨rfl, hCalls⟩ }

/-- The body of a call, in a frame of its own. -/
theorem inFrame (frame : Frame) {body body' : Eval σ α} (hBody : Relines f body body') :
    Relines f (Eval.inFrame frame body) (Eval.inFrame frame body') := by
  intro s t h
  have hInside : (Eval.enter frame s).Relined f (Eval.enter frame t) := by
    refine { h with calls := ?_, depth := ?_ }
    · exact congrArg (frame :: ·) h.calls
    · exact congrArg (· + 1) h.depth
  have hLeave : ∀ {s t : RunState σ}, s.Relined f t →
      (Eval.leave s).Relined f (Eval.leave t) := by
    intro s t h
    refine { h with calls := ?_, depth := ?_ }
    · exact congrArg List.tail h.calls
    · exact congrArg (· - 1) h.depth
  -- inside the frame the states are still related, and they are after it
  have hEnd := hBody _ _ hInside
  unfold Eval.inFrame
  generalize body (Eval.enter frame s) = end₁ at hEnd
  generalize body' (Eval.enter frame t) = end₂ at hEnd
  cases hEnd with
  | ok h => exact .ok (hLeave h)
  | error hStop h => exact .error hStop (hLeave h)

end Relines

-- ---------------------------------------------------------------------------
-- Expressions
-- ---------------------------------------------------------------------------

mutual

/-- The text of an operand shows no lines. -/
theorem Operand.render_mapLines (f : Nat → Nat) : (operand : Operand) →
    (operand.mapLines f).render = operand.render
  | .ident name line => by rw [Operand.mapLines, Operand.render, Operand.render]
  | .number value => by rw [Operand.mapLines]
  | .text content => by rw [Operand.mapLines]
  | .call callee args line => by
    rw [Operand.mapLines, Operand.render, Operand.render, Expr.renderAll_mapLines f args]
  | .group inner => by
    rw [Operand.mapLines, Operand.render, Operand.render, Expr.render_mapLines f inner]

/-- The text of a tree shows no lines. -/
theorem Expr.render_mapLines (f : Nat → Nat) : (e : Expr) → (e.mapLines f).render = e.render
  | ⟨target, first, rest, line⟩ => by
    simp only [Expr.mapLines, Expr.render, Operand.render_mapLines f first,
      Expr.renderRest_mapLines f rest]

theorem Expr.renderAll_mapLines (f : Nat → Nat) : (es : List Expr) →
    Expr.renderAll (Expr.mapLinesAll f es) = Expr.renderAll es
  | [] => by rw [Expr.mapLinesAll]
  | e :: es => by
    rw [Expr.mapLinesAll, Expr.renderAll, Expr.renderAll, Expr.render_mapLines f e,
      Expr.renderAll_mapLines f es]

theorem Expr.renderRest_mapLines (f : Nat → Nat) : (rest : List (Operator × Operand)) →
    Expr.renderRest (Expr.mapLinesRest f rest) = Expr.renderRest rest
  | [] => by rw [Expr.mapLinesRest]
  | (op, operand) :: rest => by
    rw [Expr.mapLinesRest, Expr.renderRest, Expr.renderRest, Operand.render_mapLines f operand,
      Expr.renderRest_mapLines f rest]

end

/-- The line of an expression is mapped like all others. -/
theorem Expr.line_mapLines (f : Nat → Nat) (e : Expr) : (e.mapLines f).line = f e.line := by
  obtain ⟨target, first, rest, line⟩ := e
  rw [Expr.mapLines]

/-- The fault of a malformed expression has the same text on another line. -/
theorem Expr.malformed_relines (f : Nat → Nat) (e : Expr) :
    Relines (σ := σ) f e.malformed (e.mapLines f).malformed := by
  intro s t h
  unfold Expr.malformed
  rw [Expr.render_mapLines, Expr.line_mapLines]
  exact Relines.fail (.malformedExpression e.render) rfl (some e.line) s t h

section Evaluation

variable {f : Nat → Nat} {call call' : Caller σ}

/-- The result goes to the same variable. -/
theorem Eval.assign_relines (target : Option String) (value : Value) :
    Relines (σ := σ) f (Eval.assign target value) (Eval.assign target value) := by
  cases target with
  | none => exact .pure rfl
  | some name => exact Relines.write name value

/-- Calls by name do the same on other lines. -/
def CallsReline (f : Nat → Nat) (call call' : Caller σ) : Prop :=
  ∀ name args line, Relines f (call name args line) (call' name args (line.map f))

mutual

theorem Operand.eval_relines (hCall : CallsReline f call call') : (operand : Operand) →
    Relines (σ := σ) f (operand.eval call) ((operand.mapLines f).eval call')
  | .ident name line => by
    rw [Operand.mapLines, Operand.eval, Operand.eval]
    exact Relines.read name line
  | .number value => by
    rw [Operand.mapLines, Operand.eval, Operand.eval]
    exact .pure rfl
  | .text content => by
    rw [Operand.mapLines, Operand.eval, Operand.eval]
    exact .pure rfl
  | .call callee args line => by
    rw [Operand.mapLines, Operand.eval, Operand.eval]
    exact (Expr.evalAll_relines hCall args).bind fun values => hCall callee values (some line)
  | .group inner => by
    rw [Operand.mapLines, Operand.eval, Operand.eval]
    exact Expr.eval_relines hCall inner

theorem Expr.eval_relines (hCall : CallsReline f call call') : (e : Expr) →
    Relines (σ := σ) f (e.eval call) ((e.mapLines f).eval call')
  | ⟨target, first, rest, line⟩ => by
    -- the fault comes first, since its expression has to be put on other lines as a whole
    have hMalformed := Expr.malformed_relines (σ := σ) f ⟨target, first, rest, line⟩
    rw [Expr.mapLines] at hMalformed ⊢
    rw [Expr.eval, Expr.eval, Setting.around_idle, Setting.around_idle]
    -- operators stay where they are, and operands are related one by one
    have hItems := Postfix.related_ofTerms (Operand.eval_relines hCall first)
      (Expr.terms_relines hCall rest)
    refine .bind (Relines.congruence.fold hItems (fun op lhs rhs => .atLine line _)
      hMalformed []) ?_
    intro result
    exact (Eval.assign_relines target result).bind fun _ => .pure rfl

theorem Expr.evalAll_relines (hCall : CallsReline f call call') : (es : List Expr) →
    Relines (σ := σ) f (Expr.evalAll call es) (Expr.evalAll call' (Expr.mapLinesAll f es))
  | [] => by
    rw [Expr.mapLinesAll, Expr.evalAll, Expr.evalAll]
    exact .pure rfl
  | e :: es => by
    rw [Expr.mapLinesAll, Expr.evalAll, Expr.evalAll]
    refine (Expr.eval_relines hCall e).bind fun value => ?_
    exact (Expr.evalAll_relines hCall es).bind fun values => .pure rfl

theorem Expr.terms_relines (hCall : CallsReline f call call') :
    (rest : List (Operator × Operand)) →
      Postfix.RelatedTerms (Relines (σ := σ) f) (Expr.terms call rest)
        (Expr.terms call' (Expr.mapLinesRest f rest))
  | [] => by
    rw [Expr.mapLinesRest, Expr.terms, Expr.terms]
    exact .nil
  | (op, operand) :: rest => by
    rw [Expr.mapLinesRest, Expr.terms, Expr.terms]
    exact .cons ⟨rfl, Operand.eval_relines hCall operand⟩ (Expr.terms_relines hCall rest)

end

/-- A condition holds on all lines or on none. -/
theorem Expr.holds_relines (hCall : CallsReline f call call') (condition : Expr) :
    Relines (σ := σ) f (condition.holds call) ((condition.mapLines f).holds call') := by
  rw [Expr.holds, Expr.holds, Expr.line_mapLines]
  exact (Expr.eval_relines hCall condition).bind fun value =>
    Relines.atLine condition.line value.truth

-- ---------------------------------------------------------------------------
-- Statements
-- ---------------------------------------------------------------------------

mutual

/-- A statement does the same on other lines. -/
theorem Stmt.exec_relines (hCall : CallsReline f call call') (fuel : Nat) : (s : Stmt) →
    Relines (σ := σ) f (s.exec call fuel) ((s.mapLines f).exec call' fuel)
  | .expr value => by
    rw [Stmt.mapLines, Stmt.exec, Stmt.exec, Setting.around_idle, Setting.around_idle]
    exact (Expr.eval_relines hCall value).bind fun _ => .pure rfl
  | .branch condition thenBody none line => by
    rw [Stmt.mapLines, Stmt.exec, Stmt.exec, Setting.around_idle, Setting.around_idle]
    refine (Expr.holds_relines hCall condition).bind fun holds => ?_
    cases holds with
    | true => exact Stmt.execAll_relines hCall fuel .zero thenBody
    | false => exact .pure rfl
  | .branch condition thenBody (some elseBody) line => by
    rw [Stmt.mapLines, Stmt.exec, Stmt.exec, Setting.around_idle, Setting.around_idle]
    refine (Expr.holds_relines hCall condition).bind fun holds => ?_
    cases holds with
    | true => exact Stmt.execAll_relines hCall fuel .zero thenBody
    | false => exact Stmt.execAll_relines hCall fuel .zero elseBody
  | .loop condition body line => by
    rw [Stmt.mapLines, Stmt.exec, Stmt.exec, Setting.around_idle, Setting.around_idle]
    -- no fuel is to spare, so both loops run dry together
    exact Relines.congruence.repeatWhile (Expr.holds_relines hCall condition)
      (Stmt.execAll_relines hCall fuel .zero body) 0 (fun _ => .throw rfl) fuel .zero
  | .ret result line => by
    rw [Stmt.mapLines, Stmt.exec, Stmt.exec, Setting.around_idle, Setting.around_idle]
    exact (Expr.eval_relines hCall result).bind fun _ => .pure rfl
  | .define name params body line => by
    rw [Stmt.mapLines, Stmt.exec, Stmt.exec, Setting.around_idle, Setting.around_idle]
    exact (Relines.define ⟨name, params, body, line⟩).bind fun _ => .pure rfl

/-- **Blocks do the same on other lines** if calls by name do. -/
theorem Stmt.execAll_relines (hCall : CallsReline f call call') (fuel : Nat) (last : Value) :
    (ss : List Stmt) →
      Relines (σ := σ) f (Stmt.execAll call fuel last ss)
        (Stmt.execAll call' fuel last (Stmt.mapLinesAll f ss))
  | [] => by
    rw [Stmt.mapLinesAll, Stmt.execAll, Stmt.execAll]
    exact .pure rfl
  | s :: ss => by
    rw [Stmt.mapLinesAll, Stmt.execAll, Stmt.execAll]
    refine (Stmt.exec_relines hCall fuel s).bind fun flow => ?_
    cases flow with
    | next => exact Stmt.execAll_relines hCall fuel last ss
    | value v => exact Stmt.execAll_relines hCall fuel v ss
    | ret v => exact .pure rfl

end

end Evaluation

-- ---------------------------------------------------------------------------
-- Calls
-- ---------------------------------------------------------------------------

/-- A call of a script function does the same on other lines if its body does. -/
theorem FunctionDef.call_relines {f : Nat → Nat} (g : FunctionDef) (maxDepth : Nat)
    {body body' : Eval σ Flow} (hBody : Relines f body body') (args : List Value)
    (line : Option Nat) :
    Relines f (g.call maxDepth body args line)
      ((g.mapLines f).call maxDepth body' args (line.map f)) := by
  unfold FunctionDef.call
  show Relines f (if args.length < g.params.length then _ else _)
    (if args.length < g.params.length then _ else _)
  by_cases hFew : args.length < g.params.length
  · rw [if_pos hFew, if_pos hFew]
    -- the cause mentions the line of the definition
    have hCause : Cause.unlined (.tooFewArguments g.name g.params g.line args.length) =
        Cause.unlined (.tooFewArguments g.name g.params (f g.line) args.length) := rfl
    exact .fail _ hCause line
  · rw [if_neg hFew, if_neg hFew]
    intro s t h
    rw [bind_get, bind_get, h.depth]
    by_cases hDeep : maxDepth ≤ s.depth
    · rw [if_pos hDeep, if_pos hDeep]
      exact Relines.fail (.callDepth maxDepth g.name) rfl line s t h
    · rw [if_neg hDeep, if_neg hDeep]
      -- below the limit, both bodies are run in the same frame
      have hCall : Relines f
          (Eval.report (.callingScript g.name s.depth) >>= fun _ =>
            Eval.inFrame (.ofArguments g.params args) body >>= fun flow => pure flow.result)
          (Eval.report (.callingScript g.name s.depth) >>= fun _ =>
            Eval.inFrame (.ofArguments g.params args) body' >>= fun flow => pure flow.result) :=
        (Relines.report _).bind fun _ => (hBody.inFrame _).bind fun _ => .pure rfl
      exact hCall s t h

/-- **Calls by name do the same on other lines**, however deep they go. -/
theorem Context.call_relines (f : Nat → Nat) (context : Context σ) (fuel : Nat) :
    CallsReline f (context.call fuel) ((context.mapLines f).call fuel) := by
  -- the induction is on fuel: a body is run with what is left of it
  induction fuel with
  | zero =>
    intro name args line
    exact .throw rfl
  | succ fuel ih =>
    intro name args line s t h
    rw [Context.call_succ, Context.call_succ, h.functions, Context.resolve_mapLines]
    cases context.resolve s.chain.main.functions name with
    | none => exact Relines.fail (.undefinedFunction name) rfl line s t h
    | some callee =>
      cases callee with
      | script g =>
        exact g.call_relines context.maxDepth (Stmt.execAll_relines ih fuel .zero g.body) args line
          s t h
      | host g =>
        have hHost : Relines f
            (Eval.report (.callingHost g.name) >>= fun _ => Eval.onWorld (g.invoke args line))
            (Eval.report (.callingHost g.name) >>= fun _ =>
              Eval.onWorld (g.invoke args (line.map f))) :=
          (Relines.report _).bind fun _ => Relines.host g args line
        exact hHost s t h

-- ---------------------------------------------------------------------------
-- Two runs that differ in lines
-- ---------------------------------------------------------------------------

/-- The two states differ only in the lines of the functions defined so far, and
in the log. -/
structure RunState.SameButLines (s t : RunState σ) : Prop where
  calls : s.chain.calls = t.chain.calls
  bindings : s.chain.main.bindings = t.chain.main.bindings
  functions : s.chain.main.functions.map FunctionDef.unlined =
    t.chain.main.functions.map FunctionDef.unlined
  depth : s.depth = t.depth
  world : s.world.SameHost t.world

namespace RunState.SameButLines

theorem refl (s : RunState σ) : s.SameButLines s :=
  ⟨rfl, rfl, rfl, rfl, rfl, rfl⟩

/-- States that differ in lines only have the same names of functions. -/
theorem names_eq {s t : RunState σ} (h : s.SameButLines t) :
    s.chain.main.functions.names = t.chain.main.functions.names := by
  rw [← Table.names_map FunctionDef.unlined, h.functions, Table.names_map]

/-- Without their lines, the two states are one. -/
theorem exists_relined {s t : RunState σ} (h : s.SameButLines t) :
    ∃ u : RunState σ, s.Relined (fun _ => 0) u ∧ t.Relined (fun _ => 0) u := by
  refine ⟨⟨⟨s.chain.calls, s.chain.main.bindings, s.chain.main.functions.map FunctionDef.unlined⟩,
    s.depth, s.world⟩, ⟨rfl, rfl, rfl, rfl, rfl, rfl⟩, ?_⟩
  exact ⟨h.calls, h.bindings, h.functions, h.depth, h.world.symm⟩

/-- States that are the same without their lines differ in nothing else. -/
theorem of_relined {s t u : RunState σ} (hs : s.Relined (fun _ => 0) u)
    (ht : t.Relined (fun _ => 0) u) : s.SameButLines t where
  calls := hs.calls.symm.trans ht.calls
  bindings := hs.bindings.symm.trans ht.bindings
  functions := hs.functions.symm.trans ht.functions
  depth := hs.depth.symm.trans ht.depth
  world := hs.world.trans ht.world.symm

end RunState.SameButLines

/-- Two runs end alike: with the same value or with stops that differ in lines
only, in states that differ in lines only. -/
abbrev EndsAlike {α : Type} : EStateM.Result Stop (RunState σ) α →
    EStateM.Result Stop (RunState σ) α → Prop :=
  Mirrored Stop.SameButLines RunState.SameButLines id

/-- Runs that are mirrored by one run end alike. -/
theorem EndsAlike.of_mirrored {α : Type} {r r' r'' : EStateM.Result Stop (RunState σ) α}
    (h : Mirrored Stop.SameButLines (RunState.Relined fun _ => 0) id r r'')
    (h' : Mirrored Stop.SameButLines (RunState.Relined fun _ => 0) id r' r'') :
    EndsAlike r r' := by
  cases h with
  | ok hs =>
    cases h' with
    | ok ht => exact .ok (.of_relined hs ht)
  | error hStop hs =>
    cases h' with
    | error hStop' ht => exact .error (hStop.trans hStop'.symm) (.of_relined hs ht)

/-- Two outcomes that differ in lines only: the same value, faults of one kind
with one message, or the end of the fuel. -/
inductive OutcomesAgree {α : Type} : Except Stop α → Except Stop α → Prop
  | ok (a : α) : OutcomesAgree (.ok a) (.ok a)
  | fault {fault other : Fault} (hLines : Stop.SameButLines (.fault fault) (.fault other))
    (hKind : fault.diagnostic.kind = other.diagnostic.kind)
    (hMessage : fault.diagnostic.message = other.diagnostic.message) :
    OutcomesAgree (.error (.fault fault)) (.error (.fault other))
  | outOfFuel : OutcomesAgree (.error .outOfFuel) (.error .outOfFuel)

/-- Stops that differ in lines only agree as outcomes. -/
theorem OutcomesAgree.of_sameButLines {α : Type} {stop other : Stop}
    (h : stop.SameButLines other) : OutcomesAgree (α := α) (.error stop) (.error other) := by
  cases stop with
  | fault f =>
    cases other with
    | fault g => exact .fault h h.diagnostic.1 h.diagnostic.2
    | outOfFuel => cases h
  | outOfFuel =>
    cases other with
    | fault g => cases h
    | outOfFuel => exact .outOfFuel

/-- Runs that end alike have outcomes and final states that differ in lines
only. -/
theorem EndsAlike.visible {α : Type} {r r' : EStateM.Result Stop (RunState σ) α}
    (h : EndsAlike r r') :
    OutcomesAgree (outcome r) (outcome r') ∧ (final r).SameButLines (final r') := by
  cases h with
  | ok hStates => exact ⟨.ok _, hStates⟩
  | error hStop hStates => exact ⟨.of_sameButLines hStop, hStates⟩

/-- **Two blocks that differ in lines only end alike.** -/
theorem Stmt.execAll_sameButLines (context : Context σ) (fuel : Nat) (last : Value)
    {ss ss' : List Stmt} (h : Program.unlined ss = Program.unlined ss') {s t : RunState σ}
    (hStates : s.SameButLines t) :
    EndsAlike (Stmt.execAll (context.call fuel) fuel last ss s)
      (Stmt.execAll (context.call fuel) fuel last ss' t) := by
  -- both runs are mirrored by the run that has no lines at all
  obtain ⟨u, hs, ht⟩ := hStates.exists_relined
  have hCall := context.call_relines (fun _ => 0) fuel
  have hFirst := Stmt.execAll_relines hCall fuel last ss s u hs
  have hSecond := Stmt.execAll_relines hCall fuel last ss' t u ht
  rw [show Stmt.mapLinesAll (fun _ => 0) ss = Stmt.mapLinesAll (fun _ => 0) ss' from h] at hFirst
  exact .of_mirrored hFirst hSecond

/-- Two programs that differ in lines only end alike. -/
theorem Program.eval_sameButLines (context : Context σ) (fuel : Nat) {p q : Program}
    (h : Program.unlined p = Program.unlined q) {s t : RunState σ} (hStates : s.SameButLines t) :
    EndsAlike (p.eval context fuel s) (q.eval context fuel t) :=
  Mirrors.bind_mirrored (Stmt.execAll_sameButLines context fuel .zero h hStates) fun _ => .pure rfl

end Scriptlet
