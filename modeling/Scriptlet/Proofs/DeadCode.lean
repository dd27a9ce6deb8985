import Scriptlet.Proofs.Stepwise

/-!
# Scriptlet — what stands behind a return

A `return` ends every block around it up to the call or the program, so what
stands behind it in its block is never executed. Deleting it, or putting
something else in its place, changes nothing that a run does, be it in the
program itself, in a function of its own or in a linked one. The call that is
ended has the value of the `return`, and its caller goes on.

* `Stmt.SameButDead`, `Stmt.SameButDeadAll` — the same statements but for what
  stands behind a `return`;
* `Stmt.execAll_sameButDead`, `Context.call_sameButDead` — they are executed in
  lockstep, by recursion on the statements and on the fuel;
* `Registry.SameButDead.link` — linked functions may differ in the same way;
* `Context.call_of_invokes` — a call ends as the body of the function does;
* `Stmt.execAll_goes_on`, `Context.call_of_return` — a `return` reaches no
  further than the call;
* `Program.eval_ignores_dead_code` — the main result.
-/

namespace Scriptlet

-- ---------------------------------------------------------------------------
-- The same but for dead code
-- ---------------------------------------------------------------------------

mutual

/-- The two statements are the same but for what stands behind a `return` in a
block of theirs. -/
inductive Stmt.SameButDead : Stmt → Stmt → Prop
  | expr (value : Expr) : Stmt.SameButDead (.expr value) (.expr value)
  | branch {condition : Expr} {body body' : List Stmt} {line : Nat}
    (hBody : Stmt.SameButDeadAll body body') :
    Stmt.SameButDead (.branch condition body none line) (.branch condition body' none line)
  | branchElse {condition : Expr} {body body' other other' : List Stmt} {line : Nat}
    (hBody : Stmt.SameButDeadAll body body') (hOther : Stmt.SameButDeadAll other other') :
    Stmt.SameButDead (.branch condition body (some other) line)
      (.branch condition body' (some other') line)
  | loop {condition : Expr} {body body' : List Stmt} {line : Nat}
    (hBody : Stmt.SameButDeadAll body body') :
    Stmt.SameButDead (.loop condition body line) (.loop condition body' line)
  | ret (result : Expr) (line : Nat) : Stmt.SameButDead (.ret result line) (.ret result line)
  | define {name : String} {params : List String} {body body' : List Stmt} {line : Nat}
    (hBody : Stmt.SameButDeadAll body body') :
    Stmt.SameButDead (.define name params body line) (.define name params body' line)

/-- The two blocks are the same but for what stands behind a `return`. -/
inductive Stmt.SameButDeadAll : List Stmt → List Stmt → Prop
  | nil : Stmt.SameButDeadAll [] []
  | cons {s s' : Stmt} {ss ss' : List Stmt} (hFirst : Stmt.SameButDead s s')
    (hRest : Stmt.SameButDeadAll ss ss') : Stmt.SameButDeadAll (s :: ss) (s' :: ss')
  /-- Whatever stands behind the `return` of one block and of the other. -/
  | behind (result : Expr) (line : Nat) (dead dead' : List Stmt) :
    Stmt.SameButDeadAll (.ret result line :: dead) (.ret result line :: dead')

end

/-- The bodies of the two functions are the same but for dead code, and all else
is the same. -/
structure FunctionDef.SameButDead (f g : FunctionDef) : Prop where
  name : f.name = g.name
  params : f.params = g.params
  body : Stmt.SameButDeadAll f.body g.body
  line : f.line = g.line

mutual

/-- Every statement is the same as itself: this is what lets two scripts share
the parts without dead code. -/
theorem Stmt.SameButDead.refl : (s : Stmt) → s.SameButDead s
  | .expr value => .expr value
  | .branch _ body none _ => .branch (Stmt.SameButDeadAll.refl body)
  | .branch _ body (some other) _ =>
    .branchElse (Stmt.SameButDeadAll.refl body) (Stmt.SameButDeadAll.refl other)
  | .loop _ body _ => .loop (Stmt.SameButDeadAll.refl body)
  | .ret result line => .ret result line
  | .define _ _ body _ => .define (Stmt.SameButDeadAll.refl body)

theorem Stmt.SameButDeadAll.refl : (ss : List Stmt) → Stmt.SameButDeadAll ss ss
  | [] => .nil
  | s :: ss => .cons (Stmt.SameButDead.refl s) (Stmt.SameButDeadAll.refl ss)

end

/-- Statements that directly follow a `return` may be deleted. -/
theorem Stmt.SameButDeadAll.delete (before : List Stmt) (result : Expr) (line : Nat)
    (dead rest : List Stmt) :
    Stmt.SameButDeadAll (before ++ .ret result line :: (dead ++ rest))
      (before ++ .ret result line :: rest) := by
  induction before with
  | nil => exact .behind result line (dead ++ rest) rest
  | cons s before ih => exact .cons (.refl s) ih

theorem FunctionDef.SameButDead.refl (f : FunctionDef) : f.SameButDead f :=
  ⟨rfl, rfl, .refl f.body, rfl⟩

-- ---------------------------------------------------------------------------
-- Tables with related entries
-- ---------------------------------------------------------------------------

namespace Table

variable {α β : Type} {Q : α → β → Prop} {table : Table α} {other : Table β}

/-- The two tables have the same names in the same order, and related entries
under them. -/
def Related (Q : α → β → Prop) (table : Table α) (other : Table β) : Prop :=
  List.Forall₂ (fun entry entry' => entry.1 = entry'.1 ∧ Q entry.2 entry'.2) table.entries
    other.entries

theorem Related.refl {Q : α → α → Prop} (h : ∀ a, Q a a) (table : Table α) :
    table.Related Q table :=
  List.forall₂_same.mpr fun entry _ => ⟨rfl, h entry.2⟩

/-- Lookups of one name find related entries in related tables, or nothing in
both. -/
theorem Related.find? (h : table.Related Q other) (name : String) :
    Option.Rel Q (table.find? name) (other.find? name) := by
  obtain ⟨entries⟩ := table
  obtain ⟨entries'⟩ := other
  show Option.Rel Q (entries.lookup name) (entries'.lookup name)
  have hEntries : List.Forall₂ _ entries entries' := h
  induction hEntries with
  | nil => exact .none
  | @cons entry entry' entries entries' hEntry hRest ih =>
    -- the names agree entry by entry, so that the two lookups stop at the same entry
    obtain ⟨key, a⟩ := entry
    obtain ⟨key', b⟩ := entry'
    obtain ⟨hKey, hValue⟩ := hEntry
    have hSame : key = key' := hKey
    subst hSame
    rw [List.lookup_cons, List.lookup_cons]
    cases name == key with
    | true => exact .some hValue
    | false => exact ih hRest

/-- Related tables have the same names. -/
theorem Related.contains_eq (h : table.Related Q other) (name : String) :
    table.contains name = other.contains name := by
  have hFind := h.find? name
  rw [contains, contains]
  generalize table.find? name = found at hFind
  generalize other.find? name = found' at hFind
  cases hFind <;> rfl

/-- Related entries under one name keep the tables related, also when they
replace older ones. -/
theorem Related.insert (h : table.Related Q other) (name : String) {a : α} {b : β} (hNew : Q a b) :
    (table.insert name a).Related Q (other.insert name b) := by
  obtain ⟨entries⟩ := table
  obtain ⟨entries'⟩ := other
  show List.Forall₂ _ (insertEntry name a entries) (insertEntry name b entries')
  have hEntries : List.Forall₂ _ entries entries' := h
  induction hEntries with
  | nil => exact .cons ⟨rfl, hNew⟩ .nil
  | @cons entry entry' entries entries' hEntry hRest ih =>
    obtain ⟨key, old⟩ := entry
    obtain ⟨key', old'⟩ := entry'
    have hSame : key = key' := hEntry.1
    subst hSame
    rw [insertEntry, insertEntry]
    cases name == key with
    | true => exact .cons ⟨rfl, hNew⟩ hRest
    | false => exact .cons hEntry (ih hRest)

theorem Related.size_eq (h : table.Related Q other) : table.size = other.size :=
  h.length_eq

end Table

-- ---------------------------------------------------------------------------
-- States and contexts
-- ---------------------------------------------------------------------------

variable {σ : Type}

/-- The functions of the two states are the same but for dead code, and all else
is the same. -/
structure RunState.SameButDead (s t : RunState σ) : Prop where
  calls : s.chain.calls = t.chain.calls
  bindings : s.chain.main.bindings = t.chain.main.bindings
  functions : s.chain.main.functions.Related FunctionDef.SameButDead t.chain.main.functions
  depth : s.depth = t.depth
  world : s.world = t.world

/-- The linked functions are the same but for dead code, and all else is the
same. -/
structure Registry.SameButDead (registry other : Registry σ) : Prop where
  functions : registry.functions.Related FunctionDef.SameButDead other.functions
  hosts : registry.hosts = other.hosts
  maxDepth : registry.maxDepth = other.maxDepth

/-- The functions known outside of the program are the same but for dead code,
and all else is the same. -/
structure Context.SameButDead (context other : Context σ) : Prop where
  registry : Option.Rel Registry.SameButDead context.registry other.registry
  maxDepth : context.maxDepth = other.maxDepth

/-- What two names stand for is the same but for dead code. -/
inductive Callee.SameButDead : Callee σ → Callee σ → Prop
  | script {f g : FunctionDef} (h : f.SameButDead g) :
    Callee.SameButDead (.script f) (.script g)
  | host (f : HostFunction σ) : Callee.SameButDead (.host f) (.host f)

theorem Registry.SameButDead.refl (registry : Registry σ) : registry.SameButDead registry :=
  ⟨.refl .refl registry.functions, rfl, rfl⟩

/-- One name is resolved on both sides, to the same host or to functions with
the same live code. -/
theorem Registry.SameButDead.resolve {registry other : Registry σ}
    (h : registry.SameButDead other) (name : String) :
    Option.Rel Callee.SameButDead (registry.resolve name) (other.resolve name) := by
  have hFind := h.functions.find? name
  unfold Registry.resolve
  rw [← h.hosts]
  generalize registry.functions.find? name = found at hFind
  generalize other.functions.find? name = found' at hFind
  cases hFind with
  | some hSame => exact .some (.script hSame)
  | none =>
    cases registry.hosts.find? name with
    | none => exact .none
    | some f => exact .some (.host f)

/-- Own functions come before linked ones on both sides, hence a name that is
resolved here is resolved there. -/
theorem Context.SameButDead.resolve {context other : Context σ} (h : context.SameButDead other)
    {own own' : Table FunctionDef} (hOwn : own.Related FunctionDef.SameButDead own')
    (name : String) :
    Option.Rel Callee.SameButDead (context.resolve own name) (other.resolve own' name) := by
  have hFind := hOwn.find? name
  have hRegistry := h.registry
  unfold Context.resolve
  generalize own.find? name = found at hFind
  generalize own'.find? name = found' at hFind
  cases hFind with
  | some hSame => exact .some (.script hSame)
  | none =>
    generalize context.registry = registry at hRegistry
    generalize other.registry = registry' at hRegistry
    cases hRegistry with
    | none => exact .none
    | some hSame => exact hSame.resolve name

-- ---------------------------------------------------------------------------
-- Primitives of evaluation
-- ---------------------------------------------------------------------------

/-- From states that are the same but for dead code the two computations end
together. -/
abbrev Eval.SameButDead {α : Type} (m n : Eval σ α) : Prop :=
  Lockstep (fun _ => False) RunState.SameButDead m n

namespace RunState.SameButDead

variable {s t : RunState σ}

theorem start (world : World σ) : SameButDead (RunState.start world) (.start world) :=
  ⟨rfl, rfl, .nil, rfl, rfl⟩

/-- The two states have the same variables; only functions differ. -/
theorem sameVariables (h : s.SameButDead t) : s.chain.SameVariables t.chain :=
  ⟨h.calls, h.bindings⟩

/-- An assignment writes the same variable of both states. -/
theorem set (h : s.SameButDead t) (name : String) (value : Value) :
    SameButDead { s with chain := s.chain.set name value }
      { t with chain := t.chain.set name value } where
  calls := (h.sameVariables.set name value).calls
  bindings := (h.sameVariables.set name value).bindings
  functions := by simpa using h.functions
  depth := h.depth
  world := h.world

/-- A call is entered on both sides, since frames hold no functions of their
own. -/
theorem enter (h : s.SameButDead t) (frame : Frame) :
    SameButDead (Eval.enter frame s) (Eval.enter frame t) where
  calls := congrArg (frame :: ·) h.calls
  bindings := h.bindings
  functions := h.functions
  depth := congrArg (· + 1) h.depth
  world := h.world

theorem leave (h : s.SameButDead t) : SameButDead (Eval.leave s) (Eval.leave t) where
  calls := congrArg List.tail h.calls
  bindings := h.bindings
  functions := h.functions
  depth := congrArg (· - 1) h.depth
  world := h.world

end RunState.SameButDead

namespace Eval.SameButDead

/-- The two functions are defined, or both names are taken. -/
theorem define {f g : FunctionDef} (hSame : f.SameButDead g) :
    SameButDead (σ := σ) (Eval.define f) (Eval.define g) := by
  intro s t h
  unfold Eval.define Frame.defineFunction
  rw [h.functions.contains_eq, hSame.name, hSame.line]
  cases t.chain.main.functions.contains g.name with
  | true => exact .error h
  | false => exact .ok { h with functions := h.functions.insert g.name hSame }

/-- An event is logged on both sides. -/
theorem report (event : Event) : SameButDead (σ := σ) (Eval.report event) (Eval.report event) :=
  fun _ _ h => .ok { h with world := congrArg (World.report · event) h.world }

/-- The world is the same on both sides, so that what a host does to it is too. -/
theorem onWorld {α : Type} (action : EStateM Stop (World σ) α) :
    SameButDead (Eval.onWorld action) (Eval.onWorld action) := by
  intro s t h
  unfold Eval.onWorld
  rw [h.world]
  cases action t.world with
  | ok a world => exact .ok { h with world := rfl }
  | error stop world => exact .error { h with world := rfl }

/-- Bodies that end together do so in a frame of a call as well. -/
theorem inFrame {α : Type} (frame : Frame) {body body' : Eval σ α}
    (hBody : SameButDead body body') :
    SameButDead (Eval.inFrame frame body) (Eval.inFrame frame body') :=
  fun _ _ h => Lockstep.inFrame hBody (h.enter frame) fun _ _ => RunState.SameButDead.leave

end Eval.SameButDead

/-- Calls by name end together if the names stand for functions that are the same
but for dead code. -/
def Caller.SameButDead (call call' : Caller σ) : Prop :=
  ∀ name args line, Eval.SameButDead (call name args line) (call' name args line)

-- ---------------------------------------------------------------------------
-- Statements
-- ---------------------------------------------------------------------------

section Statements

variable {call call' : Caller σ}

theorem Caller.SameButDead.exprs (h : Caller.SameButDead call call') :
    ExprSimulation (σ := σ) (fun _ => False) RunState.SameButDead call call' where
  read := fun name line => .read (fun _ _ hSame => hSame.sameVariables.get?_eq name) line
  write := fun name value _ _ hSame => .ok (hSame.set name value)
  around := fun _ _ _ hLockstep => hLockstep
  call := h

/-- Expressions hold no statements, hence no dead code: only the calls in them
need a hypothesis. -/
theorem Expr.eval_sameButDead (h : Caller.SameButDead call call') (e : Expr) :
    Eval.SameButDead (σ := σ) (e.eval call) (e.eval call') :=
  Expr.eval_lockstep h.exprs e

theorem Expr.holds_sameButDead (h : Caller.SameButDead call call') (condition : Expr) :
    Eval.SameButDead (σ := σ) (condition.holds call) (condition.holds call') :=
  Expr.holds_lockstep h.exprs condition

mutual

theorem Stmt.exec_sameButDead (h : Caller.SameButDead call call') (fuel : Nat) : {s s' : Stmt} →
    s.SameButDead s' → Eval.SameButDead (σ := σ) (s.exec call fuel) (s'.exec call' fuel)
  | _, _, .expr value => by
    rw [Stmt.exec, Stmt.exec, Setting.around_idle, Setting.around_idle]
    exact (Expr.eval_sameButDead h value).bind fun v => .pure (Flow.value v)
  | _, _, .branch hBody => by
    rw [Stmt.exec, Stmt.exec, Setting.around_idle, Setting.around_idle]
    refine (Expr.holds_sameButDead h _).bind fun holds => ?_
    cases holds with
    | true => exact Stmt.execAll_sameButDead h fuel .zero hBody
    | false => exact .pure _
  | _, _, .branchElse hBody hOther => by
    rw [Stmt.exec, Stmt.exec, Setting.around_idle, Setting.around_idle]
    refine (Expr.holds_sameButDead h _).bind fun holds => ?_
    cases holds with
    | true => exact Stmt.execAll_sameButDead h fuel .zero hBody
    | false => exact Stmt.execAll_sameButDead h fuel .zero hOther
  | _, _, .loop hBody => by
    rw [Stmt.exec, Stmt.exec, Setting.around_idle, Setting.around_idle]
    -- both loops go round equally often, since the condition holds on both sides at once
    exact .repeatWhile (Expr.holds_sameButDead h _) (Stmt.execAll_sameButDead h fuel .zero hBody)
      (.refl fuel) .zero
  | _, _, .ret result line => by
    rw [Stmt.exec, Stmt.exec, Setting.around_idle, Setting.around_idle]
    exact (Expr.eval_sameButDead h result).bind fun v => .pure (Flow.ret v)
  | .define name params body line, .define _ _ body' _, .define hBody => by
    rw [Stmt.exec, Stmt.exec, Setting.around_idle, Setting.around_idle]
    have hSame : FunctionDef.SameButDead ⟨name, params, body, line⟩ ⟨name, params, body', line⟩ :=
      ⟨rfl, rfl, hBody, rfl⟩
    exact (Eval.SameButDead.define hSame).bind fun _ => .pure Flow.next

/-- **Blocks that are the same but for dead code are executed in lockstep** if
calls by name are. -/
theorem Stmt.execAll_sameButDead (h : Caller.SameButDead call call') (fuel : Nat) (last : Value) :
    {ss ss' : List Stmt} → Stmt.SameButDeadAll ss ss' →
      Eval.SameButDead (σ := σ) (Stmt.execAll call fuel last ss) (Stmt.execAll call' fuel last ss')
  | _, _, .nil => by
    rw [Stmt.execAll, Stmt.execAll]
    exact .pure _
  | _, _, .cons hFirst hRest => by
    rw [Stmt.execAll, Stmt.execAll]
    refine (Stmt.exec_sameButDead h fuel hFirst).bind fun flow => ?_
    cases flow with
    | next => exact Stmt.execAll_sameButDead h fuel last hRest
    | value v => exact Stmt.execAll_sameButDead h fuel v hRest
    | ret v => exact .pure _
  | _, _, .behind result line dead dead' => by
    -- the statement that comes first returns if it ends at all
    rw [Stmt.execAll, Stmt.execAll, Stmt.exec, Stmt.exec, Setting.around_idle,
      Setting.around_idle, bind_assoc, bind_assoc]
    exact (Expr.eval_sameButDead h result).bind fun v => .pure (Flow.ret v)

end

end Statements

-- ---------------------------------------------------------------------------
-- Calls and programs
-- ---------------------------------------------------------------------------

/-- Two functions with the same live code refuse the same calls, and their
bodies end together in the others. -/
theorem FunctionDef.call_sameButDead {f g : FunctionDef} (h : f.SameButDead g) (maxDepth : Nat)
    {body body' : Eval σ Flow} (hBody : Eval.SameButDead body body') (args : List Value)
    (line : Option Nat) :
    Eval.SameButDead (f.call maxDepth body args line) (g.call maxDepth body' args line) := by
  unfold FunctionDef.call
  rw [h.name, h.params, h.line]
  by_cases hFew : args.length < g.params.length
  · rw [if_pos hFew, if_pos hFew]
    exact .throw _
  · rw [if_neg hFew, if_neg hFew]
    intro s t hStates
    -- the log shows the depth at which a body starts, hence the two have to agree on it
    rw [bind_get, bind_get, hStates.depth]
    by_cases hDeep : maxDepth ≤ t.depth
    · rw [if_pos hDeep, if_pos hDeep]
      exact .error hStates
    · rw [if_neg hDeep, if_neg hDeep]
      have hCall : Eval.SameButDead
          (Eval.report (.callingScript g.name t.depth) >>= fun _ =>
            Eval.inFrame (.ofArguments g.params args) body >>= fun flow => pure flow.result)
          (Eval.report (.callingScript g.name t.depth) >>= fun _ =>
            Eval.inFrame (.ofArguments g.params args) body' >>= fun flow => pure flow.result) :=
        (Eval.SameButDead.report _).bind fun _ =>
          (Eval.SameButDead.inFrame _ hBody).bind fun flow => .pure flow.result
      exact hCall s t hStates

section Runs

variable {context context' : Context σ}

/-- **Calls by name end together**, however deep they go. -/
theorem Context.call_sameButDead (h : context.SameButDead context') (fuel : Nat) :
    Caller.SameButDead (context.call fuel) (context'.call fuel) := by
  -- the body of a called function calls with less fuel
  induction fuel with
  | zero => exact fun _ _ _ => .throw _
  | succ fuel ih =>
    intro name args line s t hStates
    rw [Context.call_succ, Context.call_succ, h.maxDepth]
    have hResolve := h.resolve hStates.functions name
    generalize context.resolve s.chain.main.functions name = found at hResolve
    generalize context'.resolve t.chain.main.functions name = found' at hResolve
    cases hResolve with
    | none => exact .error hStates
    | some hCallee =>
      cases hCallee with
      | @script f g hSame =>
        have hBody := Stmt.execAll_sameButDead ih fuel .zero hSame.body
        exact FunctionDef.call_sameButDead hSame context'.maxDepth hBody args line s t hStates
      | host f =>
        have hHost : Eval.SameButDead
            (Eval.report (.callingHost f.name) >>= fun _ => Eval.onWorld (f.invoke args line))
            (Eval.report (.callingHost f.name) >>= fun _ => Eval.onWorld (f.invoke args line)) :=
          (Eval.SameButDead.report _).bind fun _ => Eval.SameButDead.onWorld _
        exact hHost s t hStates

/-- Programs with the same live code end together. -/
theorem Program.eval_sameButDead (h : context.SameButDead context') {program program' : Program}
    (hProgram : Stmt.SameButDeadAll program program') (fuel : Nat) :
    Eval.SameButDead (program.eval context fuel) (program'.eval context' fuel) :=
  (Stmt.execAll_sameButDead (Context.call_sameButDead h fuel) fuel .zero hProgram).bind
    fun flow => .pure flow.result

end Runs

-- ---------------------------------------------------------------------------
-- Scripts and links
-- ---------------------------------------------------------------------------

/-- The trees of the two scripts, and the functions that they have left, are the
same but for dead code. -/
structure Script.SameButDead (script other : Script) : Prop where
  tree : Option.Rel Stmt.SameButDeadAll script.tree other.tree
  functions : Option.Rel (Table.Related FunctionDef.SameButDead) script.functions other.functions

section Links

variable {registry other : Registry σ} {script script' : Script}

theorem Script.SameButDead.getD_functions (h : script.SameButDead script') :
    (script.functions.getD .empty).Related FunctionDef.SameButDead
      (script'.functions.getD .empty) := by
  have hFunctions := h.functions
  generalize script.functions = functions at hFunctions
  generalize script'.functions = functions' at hFunctions
  cases hFunctions with
  | none => exact .nil
  | some hTable => exact hTable

/-- Runs of the two scripts give the same value and leave the same world, and
the functions that are left differ in dead code only. -/
theorem Script.run_sameButDead {context context' : Context σ} (h : script.SameButDead script')
    (hContext : context.SameButDead context') (fuel : Nat) (world : World σ) :
    (script.run context fuel world).1 = (script'.run context' fuel world).1 ∧
      (script.run context fuel world).2.1.SameButDead (script'.run context' fuel world).2.1 ∧
      (script.run context fuel world).2.2 = (script'.run context' fuel world).2.2 := by
  obtain ⟨source, tree, functions⟩ := script
  obtain ⟨source', tree', functions'⟩ := script'
  have hTree : Option.Rel Stmt.SameButDeadAll tree tree' := h.tree
  cases hTree with
  | none => exact ⟨rfl, h, rfl⟩
  | @some program program' hProgram =>
    have hEnd := Program.eval_sameButDead hContext hProgram fuel _ _ (.start world)
    unfold Script.run
    dsimp only
    generalize program.eval context fuel (.start world) = end₁ at hEnd
    generalize program'.eval context' fuel (.start world) = end₂ at hEnd
    cases hEnd with
    | ok hStates =>
      exact ⟨rfl, ⟨.some hProgram, .some hStates.functions⟩,
        congrArg (World.report · _) hStates.world⟩
    | @error stop _ _ hStates =>
      cases stop with
      -- a failed run leaves no functions, whatever the dead code was
      | fault fault =>
        exact ⟨rfl, ⟨.some hProgram, .none⟩, congrArg (World.report · _) hStates.world⟩
      | outOfFuel => exact ⟨rfl, ⟨.some hProgram, .none⟩, hStates.world⟩
    | escaped hEscape => exact hEscape.elim

/-- Functions that are the same but for dead code are merged with the same
warnings. -/
theorem Registry.merge_sameButDead {entries entries' : List (String × FunctionDef)}
    (hEntries : Table.Related FunctionDef.SameButDead ⟨entries⟩ ⟨entries'⟩)
    {table table' : Table FunctionDef} (h : table.Related FunctionDef.SameButDead table')
    (log : Log) :
    (merge table log entries).1.Related FunctionDef.SameButDead (merge table' log entries').1 ∧
      (merge table log entries).2 = (merge table' log entries').2 := by
  have hAll : List.Forall₂ _ entries entries' := hEntries
  induction hAll generalizing table table' log with
  | nil => exact ⟨h, rfl⟩
  | @cons entry entry' entries entries' hEntry hRest ih =>
    obtain ⟨name, f⟩ := entry
    obtain ⟨name', g⟩ := entry'
    obtain ⟨hName, hSame⟩ := hEntry
    have hNames : name = name' := hName
    subst hNames
    rw [merge, merge, h.contains_eq]
    exact ih hRest (h.insert name hSame) _

/-- A registry that adopts such tables stays the same but for dead code, with
the same entry in its log. -/
theorem Registry.SameButDead.adopt (h : registry.SameButDead other)
    {table table' : Table FunctionDef}
    (hTable : table.Related FunctionDef.SameButDead table') (world : World σ) :
    (registry.adopt table world).1.SameButDead (other.adopt table' world).1 ∧
      (registry.adopt table world).2 = (other.adopt table' world).2 := by
  obtain ⟨hFunctions, hLog⟩ := Registry.merge_sameButDead hTable h.functions world.log
  refine ⟨{ h with functions := hFunctions }, ?_⟩
  unfold Registry.adopt
  dsimp only
  rw [hLog, hFunctions.size_eq]

theorem Registry.SameButDead.context (h : registry.SameButDead other) :
    registry.context.SameButDead other.context :=
  ⟨.some h, h.maxDepth⟩

/-- **Links have the same effect**, whether the dead code of the script and of
the functions linked before is there or not. -/
theorem Registry.SameButDead.link (h : registry.SameButDead other)
    (hScript : script.SameButDead script') (fuel : Nat) (world : World σ) :
    let linked := registry.link script fuel world
    let linked' := other.link script' fuel world
    linked.1 = linked'.1 ∧ linked.2.1.SameButDead linked'.2.1 ∧
      linked.2.2.1.SameButDead linked'.2.2.1 ∧ linked.2.2.2 = linked'.2.2.2 := by
  obtain ⟨hValue, hRan, hWorld⟩ := Script.run_sameButDead hScript h.context fuel world
  obtain ⟨source, tree, functions⟩ := script
  obtain ⟨source', tree', functions'⟩ := script'
  have hTree : Option.Rel Stmt.SameButDeadAll tree tree' := hScript.tree
  have hFunctions : Option.Rel (Table.Related FunctionDef.SameButDead) functions functions' :=
    hScript.functions
  cases hTree with
  | none => exact ⟨rfl, h, hScript, rfl⟩
  | some hProgram =>
    cases hFunctions with
    | some hTable =>
      obtain ⟨hLinked, hLater⟩ := h.adopt hTable world
      exact ⟨rfl, hLinked, hScript, hLater⟩
    | none =>
      simp only [Registry.link, Script.isCompiled, Option.isSome_some, if_true]
      generalize Script.run ⟨source, _, _⟩ registry.context fuel world = ran at hValue hRan hWorld ⊢
      generalize Script.run ⟨source', _, _⟩ other.context fuel world = ran' at hValue hRan hWorld ⊢
      obtain ⟨result, left, later⟩ := ran
      obtain ⟨result', left', later'⟩ := ran'
      dsimp only at hValue hRan hWorld
      subst hValue hWorld
      cases result with
      | error stop => exact ⟨rfl, h, hRan, rfl⟩
      | ok value =>
        obtain ⟨hLinked, hLater⟩ := h.adopt hRan.getD_functions later
        exact ⟨rfl, hLinked, hRan, hLater⟩

/-- A call from outside has the same answer. -/
theorem Registry.SameButDead.call (h : registry.SameButDead other) (name : String)
    (args : List Value) (fuel : Nat) (world : World σ) :
    registry.call name args fuel world = other.call name args fuel world := by
  have hEnd := Context.call_sameButDead h.context fuel name args none _ _ (.start world)
  unfold Registry.call
  generalize registry.context.call fuel name args none (.start world) = end₁ at hEnd
  generalize other.context.call fuel name args none (.start world) = end₂ at hEnd
  cases hEnd with
  | ok hStates => exact congrArg (Prod.mk _) hStates.world
  | error hStates => exact congrArg (Prod.mk _) hStates.world
  | escaped hEscape => exact hEscape.elim

end Links

-- ---------------------------------------------------------------------------
-- How far a return goes
-- ---------------------------------------------------------------------------

mutual

/-- Whether the statement has a `return` of its own. Those in the body of a
function that it defines are not. -/
def Stmt.returns : Stmt → Bool
  | .expr _ => false
  | .branch _ thenBody none _ => Stmt.anyReturns thenBody
  | .branch _ thenBody (some elseBody) _ => Stmt.anyReturns thenBody || Stmt.anyReturns elseBody
  | .loop _ body _ => Stmt.anyReturns body
  | .ret _ _ => true
  | .define _ _ _ _ => false

/-- Whether a statement of the block has a `return` of its own. -/
def Stmt.anyReturns : List Stmt → Bool
  | [] => false
  | s :: ss => s.returns || Stmt.anyReturns ss

end

/-- The computation does not end the blocks around it. -/
def Passes (m : Eval σ Flow) : Prop :=
  ∀ s v t, m s ≠ .ok (.ret v) t

namespace Passes

theorem next : Passes (σ := σ) (pure .next) :=
  fun _ _ _ => nofun

/-- A value does not end a block. -/
theorem value (v : Value) : Passes (σ := σ) (pure (.value v)) :=
  fun _ _ _ => nofun

/-- A computation that passes may follow any other. -/
theorem bind {α : Type} {m : Eval σ α} {k : α → Eval σ Flow} (h : ∀ a, Passes (k a)) :
    Passes (m >>= k) := by
  intro s v t hRun
  obtain ⟨a, s', _, hNext⟩ := exists_of_bind_ok hRun
  exact h a s' v t hNext

/-- What follows a computation that passes need not pass after a `return`. -/
theorem bind_passing {m : Eval σ Flow} {k : Flow → Eval σ Flow} (hFirst : Passes m)
    (hNext : Passes (k .next)) (hValue : ∀ v, Passes (k (.value v))) : Passes (m >>= k) := by
  intro s v t hRun
  obtain ⟨flow, s', hEnd, hRest⟩ := exists_of_bind_ok hRun
  cases flow with
  | next => exact hNext s' v t hRest
  | value w => exact hValue w s' v t hRest
  | ret w => exact hFirst s w s' hEnd

/-- A loop passes if its body does: no round of it can return. -/
theorem repeatWhile (condition : Eval σ Bool) {body : Eval σ Flow} (hBody : Passes body)
    (fuel : Nat) (last : Value) : Passes (Eval.repeatWhile condition body fuel last) := by
  -- a round hands its value to the next, hence the induction is for any last value
  induction fuel generalizing last with
  | zero => exact fun _ _ _ => nofun
  | succ fuel ih =>
    rw [Eval.repeatWhile]
    refine bind fun holds => ?_
    cases holds with
    | false => exact value last
    | true => exact hBody.bind_passing (ih last) ih

end Passes

section HowFar

variable (call : Caller σ) (fuel : Nat)

mutual

/-- A statement without a `return` of its own passes, whatever its expressions
call. -/
theorem Stmt.exec_passes : {s : Stmt} → s.returns = false → Passes (σ := σ) (s.exec call fuel)
  | .expr value, _ => by
    rw [Stmt.exec, Setting.around_idle]
    exact .bind fun v => .value v
  | .branch condition thenBody none line, h => by
    rw [Stmt.returns] at h
    rw [Stmt.exec, Setting.around_idle]
    refine .bind fun holds => ?_
    cases holds with
    | true => exact Stmt.execAll_passes .zero h
    | false => exact .value .zero
  | .branch condition thenBody (some elseBody) line, h => by
    rw [Stmt.returns, Bool.or_eq_false_iff] at h
    rw [Stmt.exec, Setting.around_idle]
    refine .bind fun holds => ?_
    cases holds with
    | true => exact Stmt.execAll_passes .zero h.1
    | false => exact Stmt.execAll_passes .zero h.2
  | .loop condition body line, h => by
    rw [Stmt.returns] at h
    rw [Stmt.exec, Setting.around_idle]
    exact .repeatWhile _ (Stmt.execAll_passes .zero h) fuel .zero
  | .ret result line, h => by
    rw [Stmt.returns] at h
    cases h
  | .define name params body line, _ => by
    rw [Stmt.exec, Setting.around_idle]
    exact .bind fun _ => .next

/-- **Only its own `return` ends a block**, whatever the calls in it do. -/
theorem Stmt.execAll_passes (last : Value) : {ss : List Stmt} → Stmt.anyReturns ss = false →
    Passes (σ := σ) (Stmt.execAll call fuel last ss)
  | [], _ => by
    rw [Stmt.execAll]
    exact .value last
  | s :: ss, h => by
    rw [Stmt.anyReturns, Bool.or_eq_false_iff] at h
    rw [Stmt.execAll]
    exact (Stmt.exec_passes h.1).bind_passing (Stmt.execAll_passes last h.2)
      fun v => Stmt.execAll_passes v h.2

end

/-- Behind statements without a `return` of their own, the block goes on. -/
theorem Stmt.execAll_goes_on {xs : List Stmt} (h : Stmt.anyReturns xs = false) (ys : List Stmt)
    {last : Value} {s t : RunState σ} {flow : Flow}
    (hRun : Stmt.execAll call fuel last xs s = .ok flow t) :
    ∃ v, flow = .value v ∧
      Stmt.execAll call fuel last (xs ++ ys) s = Stmt.execAll call fuel v ys t := by
  rw [Stmt.execAll_append, hRun]
  cases flow with
  | next => exact absurd hRun (Valued.execAll call fuel last xs s t)
  | value v => exact ⟨v, rfl, rfl⟩
  | ret v => exact absurd hRun (Stmt.execAll_passes call fuel last h s v t)

end HowFar

/-- A call by name with these arguments gets to the body of the function. -/
structure Context.Invokes (context : Context σ) (s : RunState σ) (name : String)
    (args : List Value) (f : FunctionDef) : Prop where
  resolve : context.resolve s.chain.main.functions name = some (.script f)
  args : f.params.length ≤ args.length
  depth : s.depth < context.maxDepth

/-- The state in which the body of a called function starts. -/
def FunctionDef.enter (f : FunctionDef) (args : List Value) (s : RunState σ) : RunState σ :=
  Eval.enter (.ofArguments f.params args)
    { s with world := s.world.report (.callingScript f.name s.depth) }

/-- A body that ends with a value does so outside of its frame. -/
theorem Eval.inFrame_of_ok {α : Type} {frame : Frame} {body : Eval σ α} {s t : RunState σ} {a : α}
    (h : body (Eval.enter frame s) = .ok a t) :
    Eval.inFrame frame body s = .ok a (Eval.leave t) := by
  rw [Eval.inFrame, h]

/-- A body that stops does so outside of its frame. -/
theorem Eval.inFrame_of_error {α : Type} {frame : Frame} {body : Eval σ α} {s t : RunState σ}
    {stop : Stop} (h : body (Eval.enter frame s) = .error stop t) :
    Eval.inFrame frame body s = .error stop (Eval.leave t) := by
  rw [Eval.inFrame, h]

/-- A name that is resolved to a function is called with the fuel that is left. -/
theorem Context.call_of_script {context : Context σ} {s : RunState σ} {name : String}
    {f : FunctionDef} (h : context.resolve s.chain.main.functions name = some (.script f))
    (fuel : Nat) (args : List Value) (line : Option Nat) :
    context.call (fuel + 1) name args line s =
      f.call context.maxDepth (Stmt.execAll (context.call fuel) fuel .zero f.body) args line s := by
  rw [Context.call_succ, h]

/-- A call that gets to the body of a function ends as the body does, in the frame of
the caller. -/
theorem Context.call_of_invokes {context : Context σ} {s : RunState σ} {name : String}
    {args : List Value} {f : FunctionDef} (h : context.Invokes s name args f) (fuel : Nat)
    (line : Option Nat) :
    context.call (fuel + 1) name args line s =
      match Stmt.execAll (context.call fuel) fuel .zero f.body (f.enter args s) with
      | .ok flow t => .ok flow.result (Eval.leave t)
      | .error stop t => .error stop (Eval.leave t) := by
  rw [Context.call_of_script h.resolve, FunctionDef.call, if_neg (Nat.not_lt.mpr h.args), bind_get,
    if_neg (Nat.not_le.mpr h.depth)]
  have hReport : Eval.report (.callingScript f.name s.depth) s =
      .ok () { s with world := s.world.report (.callingScript f.name s.depth) } := rfl
  rw [bind_of_ok hReport]
  cases hBody : Stmt.execAll (context.call fuel) fuel .zero f.body (f.enter args s) with
  | ok flow t =>
    rw [bind_of_ok (Eval.inFrame_of_ok hBody)]
    rfl
  | error stop t => rw [bind_of_error (Eval.inFrame_of_error hBody)]

/-- **A call has the value that its body returns**, and goes back to the frame of
the caller. -/
theorem Context.call_of_return {context : Context σ} {s t : RunState σ} {name : String}
    {args : List Value} {f : FunctionDef} (h : context.Invokes s name args f) {fuel : Nat}
    {v : Value} (hBody : Stmt.execAll (context.call fuel) fuel .zero f.body (f.enter args s) =
      .ok (.ret v) t) (line : Option Nat) :
    context.call (fuel + 1) name args line s = .ok v (Eval.leave t) := by
  rw [Context.call_of_invokes h, hBody]
  rfl

/-- **What stands behind a `return` is dead.** Let two programs be the same but
for statements behind a `return`, at any depth and in the bodies of functions,
and let the linked functions known to them be the same in this sense, and the
states in which they start. Then the runs end alike: with the same value or the
same fault, the same world, hence the same host calls, and the same global
variables. Linked functions are the same in this sense if the scripts are, since
links of the two have the same effect. A `return` reaches no further than the
call: a call whose body returns `v` is evaluated to `v` in the frame of its
caller, and a block goes on behind statements that have no `return` of their
own, whatever they call. -/
theorem Program.eval_ignores_dead_code {program program' : Program}
    (hProgram : Stmt.SameButDeadAll program program') {context context' : Context σ}
    (hContext : context.SameButDead context') (fuel : Nat) {s t : RunState σ}
    (hStates : s.SameButDead t) :
    (let one := program.eval context fuel s
      let two := program'.eval context' fuel t
      outcome one = outcome two ∧ (final one).world = (final two).world ∧
        (final one).chain.main.bindings = (final two).chain.main.bindings ∧
        (final one).SameButDead (final two)) ∧
      (∀ {registry other : Registry σ} {library library' : Script}, registry.SameButDead other →
        library.SameButDead library' → ∀ (fuel : Nat) (world : World σ),
          let linked := registry.link library fuel world
          let linked' := other.link library' fuel world
          linked.1 = linked'.1 ∧ linked.2.2.2 = linked'.2.2.2 ∧
            linked.2.1.SameButDead linked'.2.1 ∧ linked.2.2.1.SameButDead linked'.2.2.1 ∧
            linked.2.1.context.SameButDead linked'.2.1.context ∧
            ∀ name args, linked.2.1.call name args fuel world =
              linked'.2.1.call name args fuel world) ∧
      (∀ (name : String) (operands : List Expr) (line : Nat) {s₀ s₁ t : RunState σ}
        {args : List Value} {f : FunctionDef} {v : Value},
          Expr.evalAll (context.call (fuel + 1)) operands s₀ = .ok args s₁ →
          context.Invokes s₁ name args f →
          Stmt.execAll (context.call fuel) fuel .zero f.body (f.enter args s₁) = .ok (.ret v) t →
            (Operand.call name operands line).eval (context.call (fuel + 1)) s₀ =
              .ok v (Eval.leave t)) ∧
      ∀ {xs : List Stmt} (ys : List Stmt) {last : Value} {s₀ s₁ : RunState σ} {flow : Flow},
        Stmt.anyReturns xs = false →
        Stmt.execAll (context.call fuel) fuel last xs s₀ = .ok flow s₁ →
          ∃ v, flow = .value v ∧
            Stmt.execAll (context.call fuel) fuel last (xs ++ ys) s₀ =
              Stmt.execAll (context.call fuel) fuel v ys s₁ := by
  refine ⟨?_, ?_, ?_, fun ys _ _ _ _ h => Stmt.execAll_goes_on (context.call fuel) fuel h ys⟩
  · obtain ⟨hOutcome, hFinal⟩ :=
      (Program.eval_sameButDead hContext hProgram fuel s t hStates).visible
    exact ⟨hOutcome, hFinal.world, hFinal.bindings, hFinal⟩
  · intro registry other library library' hRegistry hLibrary fuel world linked linked'
    obtain ⟨hResult, hLinked, hLeft, hWorld⟩ := hRegistry.link hLibrary fuel world
    exact ⟨hResult, hWorld, hLinked, hLeft, hLinked.context,
      fun name args => hLinked.call name args fuel world⟩
  · intro name operands line s₀ s₁ t args f v hArgs hInvokes hBody
    rw [Operand.eval, bind_of_ok hArgs]
    exact Context.call_of_return hInvokes hBody (some line)

set_option maxRecDepth 20000 in
/-- The function of the library, that of the program and the program itself each
lose a call of the host. -/
theorem Program.eval_ignores_dead_code_library :
    let note : HostFunction Unit := ⟨"note", fun _ host => (.returned (.int 7), host)⟩
    let registry := (Registry.empty 9).register note
    let compiled := fun source => ((Script.ofSource source).compile (World.start ())).2.1
    let library := compiled "def h() do return 4; note(); end;"
    let library' := compiled "def h() do return 4; end;"
    let linked := (registry.link library 9 (.start ())).2.1.context
    let linked' := (registry.link library' 9 (.start ())).2.1.context
    let program : List Stmt → Program := fun dead =>
      [.define "f" [] [.loop ⟨none, .number 1, [], 1⟩
        (.ret ⟨none, .call "h" [] 1, [], 1⟩ 1 :: dead) 1] 1,
        .expr ⟨some "y", .call "f" [] 1, [], 1⟩, .ret ⟨none, .ident "y" 1, [], 1⟩ 1] ++ dead
    let one := (program [.expr ⟨none, .call "note" [] 1, [], 1⟩]).eval linked 9 (.start (.start ()))
    let two := (program []).eval linked' 9 (.start (.start ()))
    (outcome two = .ok (.int 4) ∧ (final two).world.hostCalls = [] ∧
      (final two).chain.main.bindings.find? "y" = some (.int 4)) ∧
      outcome one = outcome two ∧ (final one).world = (final two).world ∧
      (final one).chain.main.bindings = (final two).chain.main.bindings := by
  have hTree : ((Script.ofSource "def h() do return 4; note(); end;").compile
      (World.start ())).2.1.tree = some [.define "h" [] [.ret ⟨none, .number 4, [], 1⟩ 1,
        .expr ⟨none, .call "note" [] 1, [], 1⟩] 1] := by
    cbv
  have hTree' : ((Script.ofSource "def h() do return 4; end;").compile
      (World.start ())).2.1.tree = some [.define "h" [] [.ret ⟨none, .number 4, [], 1⟩ 1] 1] := by
    cbv
  intro note registry compiled library library' linked linked' program one two
  have hLibrary : library.SameButDead library' := by
    have hNone : library.functions = none := Script.functions_compile _ _
    have hNone' : library'.functions = none := Script.functions_compile _ _
    refine ⟨?_, ?_⟩
    · rw [show library.tree = _ from hTree, show library'.tree = _ from hTree']
      exact .some (.cons (.define (.delete [] _ 1 [_] [])) .nil)
    · rw [hNone, hNone']
      exact .none
  have hContext : linked.SameButDead linked' :=
    ((Registry.SameButDead.refl registry).link hLibrary 9 (.start ())).2.1.context
  have hProgram : Stmt.SameButDeadAll (program [.expr ⟨none, .call "note" [] 1, [], 1⟩])
      (program []) :=
    .cons (.define (.cons (.loop (.delete [] _ 1 [_] [])) .nil)) (.delete [_] _ 1 [_] [])
  obtain ⟨⟨hOutcome, hWorld, hBindings, _⟩, _⟩ :=
    Program.eval_ignores_dead_code hProgram hContext 9 (.start (.start ()))
  refine ⟨?_, hOutcome, hWorld, hBindings⟩
  decide +kernel

end Scriptlet
