import Scriptlet.Proofs.Congruence
import Scriptlet.Proofs.Lifecycle
import Scriptlet.Proofs.Precedence

/-!
# Scriptlet — where faults come from

A fault of a run names a line, and that line is the line of a token: each node
of a tree has the line of one of its tokens, and evaluation takes the lines of
its faults from the nodes. It also has a kind that fits a run. An expression is
never malformed, a text is not scanned or parsed any more, and nothing but a
host function fails as one.

* `Derivation.linesIn` — the lines of a tree are those of its tokens;
* `Eval.Confined` — computations with faults of a certain sort only;
* `Expr.eval_placed`, `Stmt.execAll_placed`, `Context.call_placed` — evaluation
  has faults only on known lines, for every amount of fuel;
* `Registry.LinkedFrom` — the texts that the linked functions come from;
* `Script.faults_have_places` — the main result.
-/

namespace Scriptlet

-- ---------------------------------------------------------------------------
-- The lines of a tree
-- ---------------------------------------------------------------------------

mutual

/-- All lines in the operand are known. -/
def Operand.LinesIn (known : Nat → Prop) : Operand → Prop
  | .ident _ line => known line
  | .number _ => True
  | .text _ => True
  | .call _ args line => known line ∧ Expr.LinesInAll known args
  | .group inner => inner.LinesIn known

/-- All lines in the expression are known. -/
def Expr.LinesIn (known : Nat → Prop) : Expr → Prop
  | ⟨_, first, rest, line⟩ => known line ∧ first.LinesIn known ∧ Expr.LinesInRest known rest

/-- All lines in the expressions are known. -/
def Expr.LinesInAll (known : Nat → Prop) : List Expr → Prop
  | [] => True
  | e :: es => e.LinesIn known ∧ Expr.LinesInAll known es

/-- All lines in the operands behind the operators are known. -/
def Expr.LinesInRest (known : Nat → Prop) : List (Operator × Operand) → Prop
  | [] => True
  | (_, operand) :: rest => operand.LinesIn known ∧ Expr.LinesInRest known rest

end

/-- The line of an expression is one of its lines. -/
theorem Expr.LinesIn.line {known : Nat → Prop} {e : Expr} (h : e.LinesIn known) :
    known e.line := by
  obtain ⟨target, first, rest, line⟩ := e
  rw [Expr.LinesIn] at h
  exact h.1

mutual

/-- All lines in the statement are known. -/
def Stmt.LinesIn (known : Nat → Prop) : Stmt → Prop
  | .expr value => value.LinesIn known
  | .branch condition thenBody none line =>
    known line ∧ condition.LinesIn known ∧ Stmt.LinesInAll known thenBody
  | .branch condition thenBody (some elseBody) line =>
    known line ∧ condition.LinesIn known ∧ Stmt.LinesInAll known thenBody ∧
      Stmt.LinesInAll known elseBody
  | .loop condition body line =>
    known line ∧ condition.LinesIn known ∧ Stmt.LinesInAll known body
  | .ret result line => known line ∧ result.LinesIn known
  | .define _ _ body line => known line ∧ Stmt.LinesInAll known body

/-- All lines in the statements are known. -/
def Stmt.LinesInAll (known : Nat → Prop) : List Stmt → Prop
  | [] => True
  | s :: ss => s.LinesIn known ∧ Stmt.LinesInAll known ss

end

/-- All statements of a block are on known lines if the block is. -/
theorem Stmt.LinesInAll.of_mem {known : Nat → Prop} {ss : List Stmt}
    (h : Stmt.LinesInAll known ss) {s : Stmt} (hMem : s ∈ ss) : s.LinesIn known := by
  induction ss with
  | nil => cases hMem
  | cons first ss ih =>
    rw [Stmt.LinesInAll] at h
    rcases List.mem_cons.mp hMem with rfl | hRest
    · exact h.1
    · exact ih h.2 hRest

/-- All lines in the function are known. -/
def FunctionDef.LinesIn (known : Nat → Prop) (f : FunctionDef) : Prop :=
  f.toStmt.LinesIn known

-- ---------------------------------------------------------------------------
-- From tokens to trees
-- ---------------------------------------------------------------------------

/-- All lines in the tree of a derivation are known. -/
def Nonterminal.LinesIn (known : Nat → Prop) : (n : Nonterminal) → n.Tree → Prop
  | .factor, operand => operand.LinesIn known
  | .arguments, args => Expr.LinesInAll known args
  | .moreArguments, args => Expr.LinesInAll known args
  | .operations, rest => Expr.LinesInRest known rest
  | .expr, e => e.LinesIn known
  | .alternative, other => ∀ items, other = some items → Stmt.LinesInAll known items
  | .statement _, s => s.LinesIn known
  | .block _, items => Stmt.LinesInAll known items
  | .program, items => Stmt.LinesInAll known items
  | _, _ => True

/-- **Each node of a tree has the line of a token** from which it derives. What a
derivation leaves is on known lines, too. -/
theorem Derivation.linesIn {known : Nat → Prop} {n : Nonterminal} {input rest : List Token}
    {tree : n.Tree} (d : Derivation n input tree rest) (h : ∀ token ∈ input, known token.line) :
    n.LinesIn known tree ∧ ∀ token ∈ rest, known token.line := by
  induction d with
  -- nodes without parts take no line or that of their first token
  | noArgument | noTarget | noOperation | lookahead _ | blockEnd => exact ⟨trivial, h⟩
  | noElse => exact ⟨nofun, h⟩
  | name => exact List.forall_mem_cons.mp h
  | number | text | semicolon | lastName => exact ⟨trivial, (List.forall_mem_cons.mp h).2⟩
  | target | noParameters =>
    simp only [List.forall_mem_cons] at h
    exact ⟨trivial, h.2.2⟩
  | group _ ih =>
    simp only [List.forall_mem_cons] at h ih
    obtain ⟨hInner, _, hRest⟩ := ih h.2
    exact ⟨hInner, hRest⟩
  -- a call has the line of its name
  | call _ ih =>
    simp only [List.forall_mem_cons] at h ih
    obtain ⟨hLine, _, hInput⟩ := h
    obtain ⟨hArgs, _, hRest⟩ := ih hInput
    exact ⟨⟨hLine, hArgs⟩, hRest⟩
  | someArguments _ ih => exact ih h
  | lastArgument _ ih =>
    obtain ⟨hArg, hRest⟩ := ih h
    exact ⟨⟨hArg, trivial⟩, hRest⟩
  | argument _ _ ihArg ihMore =>
    simp only [List.forall_mem_cons] at ihArg
    obtain ⟨hArg, _, hMid⟩ := ihArg h
    obtain ⟨hMore, hRest⟩ := ihMore hMid
    exact ⟨⟨hArg, hMore⟩, hRest⟩
  | operation _ _ ihOperand ihMore =>
    obtain ⟨_, hInput⟩ := List.forall_mem_cons.mp h
    obtain ⟨hOperand, hMid⟩ := ihOperand hInput
    obtain ⟨hMore, hRest⟩ := ihMore hMid
    exact ⟨⟨hOperand, hMore⟩, hRest⟩
  -- an expression has the line of the token that it starts with, be it of the target or not
  | expr _ _ _ _ ihGoal ihOperand ihMore ihEnding =>
    obtain ⟨hLine, _⟩ := List.forall_mem_cons.mp h
    obtain ⟨_, hMid₁⟩ := ihGoal h
    obtain ⟨hFirst, hMid₂⟩ := ihOperand hMid₁
    obtain ⟨hMore, hMid₃⟩ := ihMore hMid₂
    obtain ⟨_, hRest⟩ := ihEnding hMid₃
    exact ⟨⟨hLine, hFirst, hMore⟩, hRest⟩
  | param _ ih =>
    simp only [List.forall_mem_cons] at h
    exact ih h.2.2
  | parameters _ ih =>
    simp only [List.forall_mem_cons] at h ih
    exact ⟨trivial, (ih h.2).2.2⟩
  | otherwise _ ih =>
    obtain ⟨hBody, hRest⟩ := ih (List.forall_mem_cons.mp h).2
    refine ⟨?_, hRest⟩
    rintro items ⟨⟩
    exact hBody
  | loop _ _ ihCondition ihBody =>
    simp only [List.forall_mem_cons] at h ihCondition ihBody
    obtain ⟨hCondition, _, hMid⟩ := ihCondition h.2
    obtain ⟨hBody, _, _, hRest⟩ := ihBody hMid
    exact ⟨⟨h.1, hCondition, hBody⟩, hRest⟩
  -- both branches of the definition are met here: with a second block and without
  | @branch _ _ _ other _ _ _ _ _ _ _ _ _ _ _ ihCondition ihBody ihElse =>
    simp only [List.forall_mem_cons] at h ihCondition ihElse
    obtain ⟨hCondition, _, hMid₁⟩ := ihCondition h.2
    obtain ⟨hBody, hMid₂⟩ := ihBody hMid₁
    obtain ⟨hElse, _, _, hRest⟩ := ihElse hMid₂
    refine ⟨?_, hRest⟩
    cases other with
    | none => exact ⟨h.1, hCondition, hBody⟩
    | some items => exact ⟨h.1, hCondition, hBody, hElse items rfl⟩
  | ret _ ih =>
    obtain ⟨hLine, hInput⟩ := List.forall_mem_cons.mp h
    obtain ⟨hResult, hRest⟩ := ih hInput
    exact ⟨⟨hLine, hResult⟩, hRest⟩
  | define _ _ ihParams ihBody =>
    simp only [List.forall_mem_cons] at h ihParams ihBody
    obtain ⟨hLine, _, hInput⟩ := h
    obtain ⟨_, _, hMid⟩ := ihParams hInput
    obtain ⟨hBody, _, _, hRest⟩ := ihBody hMid
    exact ⟨⟨hLine, hBody⟩, hRest⟩
  | plain _ ih =>
    obtain ⟨hValue, hRest⟩ := ih h
    exact ⟨hValue, hRest⟩
  | item _ _ ihFirst ihMore =>
    obtain ⟨hFirst, hMid⟩ := ihFirst h
    obtain ⟨hMore, hRest⟩ := ihMore hMid
    exact ⟨⟨hFirst, hMore⟩, hRest⟩
  | program _ ih => exact ⟨(ih h).1, List.forall_mem_nil _⟩

/-- The text has a token on the line. -/
def HasTokenOn (source : String) (line : Nat) : Prop :=
  ∃ tokens, outcome (tokenize source) = .ok tokens ∧
    ∃ token ∈ tokens, token.isEof = false ∧ token.line = line

/-- A text that can be scanned has its tokens on the lines of its stream. -/
theorem hasTokenOn_iff {source : String} {n : Nat}
    (hEnding : (Scanner.ofSource source).stream.ending = .ok n) {line : Nat} :
    HasTokenOn source line ↔
      ∃ token ∈ (Scanner.ofSource source).stream.tokens, token.line = line := by
  have hSpec := Scanner.tokenize_spec (.ofSource source)
  rw [hEnding] at hSpec
  obtain ⟨after, hRun⟩ := hSpec
  have hTokens : outcome (tokenize source) =
      .ok ((Scanner.ofSource source).stream.tokens ++ [⟨.eof, n⟩]) := congrArg outcome hRun
  constructor
  · rintro ⟨tokens, hOutcome, token, hMem, hEof, rfl⟩
    rw [hTokens] at hOutcome
    cases hOutcome
    -- the end of the input is no token of the text
    rcases List.mem_append.mp hMem with hToken | hLast
    · exact ⟨token, hToken, rfl⟩
    · rw [List.mem_singleton.mp hLast] at hEof
      cases hEof
  · rintro ⟨token, hMem, rfl⟩
    exact ⟨_, hTokens, token, List.mem_append_left _ hMem, Scanner.isEof_ofSource source token hMem,
      rfl⟩

/-- **The lines of a parsed program** are lines with tokens of its text, which
are counted from 1. -/
theorem Program.linesIn_of_parse {source : String} {program : Program}
    (h : outcome (Program.parse source) = .ok program) {known : Nat → Prop}
    (hKnown : ∀ line, 1 ≤ line → HasTokenOn source line → known line) :
    Stmt.LinesInAll known program := by
  obtain ⟨⟨n, hEnding⟩, ⟨d⟩⟩ := (Scanner.parse_eq_ok_iff (Scanner.isEof_ofSource source)).mp h
  refine (d.linesIn fun token hToken => hKnown token.line ?_ ?_).1
  · exact (Scanner.ahead_line 0 _ token hToken).1
  · exact (hasTokenOn_iff hEnding).mpr ⟨token, hToken, rfl⟩

-- ---------------------------------------------------------------------------
-- Computations with certain faults only
-- ---------------------------------------------------------------------------

variable {σ α β : Type}

/-- The ways in which a computation may end: with a value, in a state whose own
functions have the property, with a fault that is allowed, or for want of
fuel. -/
inductive Eval.Ends (Q : Table FunctionDef → Prop) (allowed : Fault → Prop) :
    EStateM.Result Stop (RunState σ) α → Prop
  | ok {a : α} {s : RunState σ} (h : Q s.chain.main.functions) : Eval.Ends Q allowed (.ok a s)
  | fault {fault : Fault} {s : RunState σ} (h : allowed fault) :
    Eval.Ends Q allowed (.error (.fault fault) s)
  | outOfFuel {s : RunState σ} : Eval.Ends Q allowed (.error .outOfFuel s)

/-- If the program's own functions have the property, then the computation keeps
it, and it has no faults but allowed ones. -/
def Eval.Confined (Q : Table FunctionDef → Prop) (allowed : Fault → Prop) (m : Eval σ α) : Prop :=
  ∀ s, Q s.chain.main.functions → Eval.Ends Q allowed (m s)

namespace Eval.Confined

variable {Q : Table FunctionDef → Prop} {allowed : Fault → Prop}

theorem pure (a : α) : Confined (σ := σ) Q allowed (Pure.pure a) :=
  fun _ hs => .ok hs

theorem outOfFuel : Confined (σ := σ) (α := α) Q allowed (throw .outOfFuel) :=
  fun _ _ => .outOfFuel

/-- A fault has to be allowed. -/
theorem fail {cause : Cause} {line : Option Nat} (h : allowed ⟨cause, line⟩) :
    Confined (σ := σ) (α := α) Q allowed (Eval.fail cause line) :=
  fun _ _ => .fault h

/-- A sequence ends in an allowed way if its first part does and the second is
confined. -/
theorem bind_ends {m : Eval σ α} {k : α → Eval σ β} {s : RunState σ} (h : Ends Q allowed (m s))
    (hNext : ∀ a, Confined Q allowed (k a)) : Ends Q allowed ((m >>= k) s) := by
  show Ends Q allowed (EStateM.bind m k s)
  unfold EStateM.bind
  generalize m s = result at h
  cases h with
  | ok hs => exact hNext _ _ hs
  | fault hFault => exact .fault hFault
  | outOfFuel => exact .outOfFuel

/-- **Sequences are confined if their parts are.** -/
theorem bind {m : Eval σ α} {k : α → Eval σ β} (h : Confined Q allowed m)
    (hNext : ∀ a, Confined Q allowed (k a)) : Confined Q allowed (m >>= k) :=
  fun s hs => bind_ends (h s hs) hNext

/-- An operation on values is confined if the causes that it may give are
allowed on the line. -/
theorem atLine {line : Nat} {result : Except Cause α}
    (h : ∀ cause, result = .error cause → allowed ⟨cause, some line⟩) :
    Confined (σ := σ) Q allowed (Eval.atLine line result) := by
  cases result with
  | ok a => exact pure a
  | error cause => exact fail (h cause rfl)

/-- To read a variable is confined if its absence may be reported on the line. -/
theorem read {name : String} {line : Nat} (h : allowed ⟨.undefinedVariable name, some line⟩) :
    Confined (σ := σ) Q allowed (Eval.read name line) := by
  intro s hs
  unfold Eval.read
  rw [bind_get]
  cases s.chain.get? name with
  | some value => exact .ok hs
  | none => exact .fault h

/-- To write a result does no more than to change variables. -/
theorem assign (target : Option String) (value : Value) :
    Confined (σ := σ) Q allowed (Eval.assign target value) := by
  cases target with
  | none => exact pure ()
  | some name =>
    intro s hs
    refine .ok ?_
    show Q (s.chain.set name value).main.functions
    rw [Chain.functions_set]
    exact hs

theorem report (event : Event) : Confined (σ := σ) Q allowed (Eval.report event) :=
  fun _ hs => .ok hs

/-- To define a function is confined if the property survives it, and a second
function of the name may be reported. -/
theorem define {f : FunctionDef} (hNew : ∀ table, Q table → Q (table.insert f.name f))
    (h : allowed ⟨.duplicateFunction f.name, some f.line⟩) :
    Confined (σ := σ) Q allowed (Eval.define f) := by
  intro s hs
  unfold Eval.define Frame.defineFunction
  cases s.chain.main.functions.contains f.name with
  | true => exact .fault h
  | false => exact .ok (hNew _ hs)

/-- A host function is confined if the faults of hosts are allowed on the line
of the call. -/
theorem host {f : HostFunction σ} {args : List Value} {line : Option Nat}
    (h : ∀ cause, cause.kind = .host → allowed ⟨cause, line⟩) :
    Confined Q allowed (Eval.onWorld (f.invoke args line)) := by
  intro s hs
  unfold Eval.onWorld HostFunction.invoke
  cases f.respond args s.world.host with
  | mk reply host =>
    cases reply with
    | returned value => exact .ok hs
    | failed message => exact .fault (h (.hostFailed f.name message) rfl)
    | crashed reason => exact .fault (h (.hostCrashed f.name reason) rfl)

/-- A call is confined if its body is. It begins and ends with the functions of
the main frame. -/
theorem inFrame (frame : Frame) {body : Eval σ α} (h : Confined Q allowed body) :
    Confined Q allowed (Eval.inFrame frame body) := by
  intro s hs
  have hEnd := h (Eval.enter frame s) hs
  unfold Eval.inFrame
  generalize body (Eval.enter frame s) = result at hEnd
  cases hEnd with
  | ok hs' => exact .ok hs'
  | fault hFault => exact .fault hFault
  | outOfFuel => exact .outOfFuel

/-- A property of computations is a relation that ignores the second one, and
sequences respect this one. -/
theorem congruence : Congruence fun α (m _ : Eval σ α) => Confined Q allowed m where
  pure a := pure a
  bind hFirst hNext := hFirst.bind hNext

/-- A loop is confined if its condition and its body are. -/
theorem repeatWhile {condition : Eval σ Bool} {body : Eval σ Flow}
    (hCondition : Confined Q allowed condition) (hBody : Confined Q allowed body) (fuel : Nat)
    (last : Value) : Confined Q allowed (Eval.repeatWhile condition body fuel last) :=
  -- nothing is asked of a second loop, so it may be the same one
  @Congruence.repeatWhile σ _ congruence condition condition body body hCondition hBody 0
    (fun _ => outOfFuel) fuel last

/-- A precedence tree is run in a confined way if its operands are and its
operators. -/
theorem run {tree : PrecedenceTree (Eval σ Value)}
    (h : ∀ operand ∈ tree.operands, Confined Q allowed operand)
    {apply : Operator → Value → Value → Eval σ Value}
    (hApply : ∀ op lhs rhs, Confined Q allowed (apply op lhs rhs)) :
    Confined Q allowed (tree.run apply) := by
  induction tree with
  | leaf operand => exact h operand (List.mem_singleton.mpr rfl)
  | node op lhs rhs ihLeft ihRight =>
    have hLeft := ihLeft fun operand hMem => h operand (List.mem_append_left _ hMem)
    have hRight := ihRight fun operand hMem => h operand (List.mem_append_right _ hMem)
    exact hLeft.bind fun left => hRight.bind fun right => hApply op left right

end Eval.Confined

-- ---------------------------------------------------------------------------
-- Kinds of faults
-- ---------------------------------------------------------------------------

/-- The kinds of faults that a run may end with. -/
def DiagnosticKind.ofRuns : List DiagnosticKind :=
  [.name, .arity, .type, .arithmetic, .duplicateDefinition, .host, .resourceExhausted]

/-- Only a text has no truth. -/
theorem Value.kind_of_truth {value : Value} {cause : Cause} (h : value.truth = .error cause) :
    cause.kind = .type := by
  cases value with
  | int n => cases h
  | text s =>
    cases h
    rfl

namespace Operator

variable {op : Operator} {lhs rhs : Value} {cause : Cause}

/-- A result that does not fit is an arithmetic fault. -/
theorem kind_of_exact {result : Int} (h : op.exact result = .error cause) :
    cause.kind = .arithmetic := by
  unfold exact at h
  cases hFits : int64? result with
  | some n =>
    rw [hFits] at h
    cases h
  | none =>
    rw [hFits] at h
    cases h
    rfl

/-- Arithmetic refuses operands that are no integers, and otherwise fails like
its computation. -/
theorem kind_of_arithmetic {compute : Int → Int → Except Cause Value}
    (h : op.arithmetic compute lhs rhs = .error cause)
    (hCompute : ∀ a b cause, compute a b = .error cause → cause.kind = .arithmetic) :
    cause.kind = .type ∨ cause.kind = .arithmetic := by
  cases lhs <;> cases rhs
  -- two integers are computed with
  case int.int a b => exact Or.inr (hCompute _ _ _ h)
  all_goals
    cases h
    exact Or.inl rfl

/-- An ordering refuses operands of different types. -/
theorem kind_of_ordering {holds : Ordering → Bool} (h : op.ordering holds lhs rhs = .error cause) :
    cause.kind = .type := by
  unfold ordering at h
  cases hOrder : lhs.order? rhs with
  | some order =>
    rw [hOrder] at h
    cases h
  | none =>
    rw [hOrder] at h
    cases h
    rfl

/-- A connective refuses what has no truth, on either side. -/
theorem kind_of_logical {combine : Bool → Bool → Bool}
    (h : logical combine lhs rhs = .error cause) : cause.kind = .type := by
  unfold logical at h
  cases hLeft : lhs.truth with
  | error cause' =>
    rw [hLeft] at h
    cases h
    exact Value.kind_of_truth hLeft
  | ok left =>
    cases hRight : rhs.truth with
    | error cause' =>
      rw [hLeft, hRight] at h
      cases h
      exact Value.kind_of_truth hRight
    | ok right =>
      rw [hLeft, hRight] at h
      cases h

/-- A quotient fails for a divisor of zero or if it does not fit. -/
theorem kind_of_quotient {a b : Int} (h : quotient a b = .error cause) :
    cause.kind = .arithmetic := by
  unfold quotient at h
  split at h
  · cases h
    rfl
  · exact kind_of_exact h

/-- A remainder fails for a divisor of zero or for want of a quotient. -/
theorem kind_of_remainder {a b : Int} (h : remainder a b = .error cause) :
    cause.kind = .arithmetic := by
  unfold remainder at h
  split at h
  · cases h
    rfl
  · split at h
    · exact kind_of_exact h
    · cases h
      rfl

/-- **An operator refuses types or does not compute.** -/
theorem kind_of_apply (h : op.apply lhs rhs = .error cause) :
    cause.kind = .type ∨ cause.kind = .arithmetic := by
  cases op with
  | add =>
    -- a sum has an operand that is a text, or it is one of integers
    cases lhs <;> cases rhs
    case int.int a b => exact Or.inr (kind_of_exact h)
    all_goals cases h
  | sub | mul =>
    simp only [apply] at h
    exact kind_of_arithmetic h fun _ _ _ => kind_of_exact
  | div => exact kind_of_arithmetic h fun _ _ _ => kind_of_quotient
  | mod => exact kind_of_arithmetic h fun _ _ _ => kind_of_remainder
  | less | greater | lessEqual | greaterEqual => exact Or.inl (kind_of_ordering h)
  | equal => cases h
  | and | or => exact Or.inl (kind_of_logical h)

end Operator

-- ---------------------------------------------------------------------------
-- Evaluation
-- ---------------------------------------------------------------------------

/-- There is a host function under some name. -/
def Context.HasHost (context : Context σ) : Prop :=
  ∃ registry name f, context.registry = some registry ∧ registry.hosts.find? name = some f

/-- Where a name stands for a host function, there is one. -/
theorem Context.hasHost_of_resolve {context : Context σ} {own : Table FunctionDef} {name : String}
    {f : HostFunction σ} (h : context.resolve own name = some (.host f)) : context.HasHost := by
  unfold Context.resolve at h
  cases hOwn : own.find? name with
  | some g =>
    rw [hOwn] at h
    cases h
  | none =>
    rw [hOwn] at h
    obtain ⟨registry, hRegistry, hResolve⟩ := Option.bind_eq_some_iff.mp h
    unfold Registry.resolve at hResolve
    cases hLinked : registry.functions.find? name with
    | some g =>
      rw [hLinked] at hResolve
      cases hResolve
    | none =>
      rw [hLinked] at hResolve
      obtain ⟨g, hHost, _⟩ := Option.map_eq_some_iff.mp hResolve
      exact ⟨registry, name, g, hRegistry, hHost⟩

/-- The fault is on a known line, it is of a kind that belongs to runs, and it is
a host's only if there is a host function. -/
structure Fault.Placed (context : Context σ) (known : Nat → Prop) (fault : Fault) : Prop where
  line : ∃ line, fault.line = some line ∧ known line
  kind : fault.cause.kind ∈ DiagnosticKind.ofRuns
  host : fault.cause.kind = .host → context.HasHost

/-- Names resolve to functions on known lines, and faults are placed. -/
abbrev Eval.Placed (context : Context σ) (known : Nat → Prop) (m : Eval σ α) : Prop :=
  Eval.Confined (context.Calls (FunctionDef.LinesIn known)) (Fault.Placed context known) m

/-- Calls by name are placed if they are written on known lines. -/
def Caller.Placed (context : Context σ) (known : Nat → Prop) (call : Caller σ) : Prop :=
  ∀ name args line, known line → Eval.Placed context known (call name args (some line))

section Evaluation

variable {context : Context σ} {known : Nat → Prop} {call : Caller σ}

/-- A fault on a known line that has nothing to do with host functions. -/
theorem Fault.placed_at {line : Nat} (hLine : known line) {cause : Cause} (kind : DiagnosticKind)
    (hKind : cause.kind = kind) (hRuns : kind ∈ DiagnosticKind.ofRuns ∧ kind ≠ .host := by decide) :
    Fault.Placed context known ⟨cause, some line⟩ := by
  subst hKind
  exact ⟨⟨line, rfl, hLine⟩, hRuns.1, fun h => absurd h hRuns.2⟩

/-- What an operator does with its operands is placed on the line of the
expression. -/
theorem Operator.applyAt_placed {line : Nat} (hLine : known line) (op : Operator)
    (lhs rhs : Value) : Eval.Placed context known (op.applyAt line lhs rhs) := by
  refine .atLine fun cause hCause => ?_
  rcases Operator.kind_of_apply hCause with hKind | hKind
  · exact Fault.placed_at hLine .type hKind
  · exact Fault.placed_at hLine .arithmetic hKind

mutual

/-- Operands are placed: names are read on their lines, and calls are made on
theirs. -/
theorem Operand.reference_placed (hCall : call.Placed context known) : (operand : Operand) →
    operand.LinesIn known → Eval.Placed context known (operand.reference call)
  | .ident name line, h => by
    rw [Operand.LinesIn] at h
    rw [Operand.reference]
    exact .read (Fault.placed_at h .name rfl)
  | .number value, _ => by
    rw [Operand.reference]
    exact .pure _
  | .text content, _ => by
    rw [Operand.reference]
    exact .pure _
  | .call callee args line, h => by
    rw [Operand.LinesIn] at h
    rw [Operand.reference]
    exact (Expr.referenceAll_placed hCall args h.2).bind fun values => hCall callee values line h.1
  | .group inner, h => by
    rw [Operand.LinesIn] at h
    rw [Operand.reference]
    exact Expr.reference_placed hCall inner h

/-- The operands of an expression are placed, and so is what its operators do
with their values: nothing of it is malformed. -/
theorem Expr.reference_placed (hCall : call.Placed context known) : (e : Expr) →
    e.LinesIn known → Eval.Placed context known (e.reference call)
  | ⟨target, first, rest, line⟩, h => by
    rw [Expr.LinesIn] at h
    obtain ⟨hLine, hFirst, hRest⟩ := h
    rw [Expr.reference]
    refine Eval.Confined.bind (.run ?_ (Operator.applyAt_placed hLine)) fun result =>
      (Eval.Confined.assign target result).bind fun _ => .pure result
    -- the operands of the tree are those of the expression
    rw [PrecedenceTree.operands_ofTerms]
    refine List.forall_mem_cons.mpr ⟨Operand.reference_placed hCall first hFirst, ?_⟩
    exact Expr.referenceTerms_placed hCall rest hRest

/-- Arguments are placed one by one. -/
theorem Expr.referenceAll_placed (hCall : call.Placed context known) : (es : List Expr) →
    Expr.LinesInAll known es → Eval.Placed context known (Expr.referenceAll call es)
  | [], _ => by
    rw [Expr.referenceAll]
    exact .pure []
  | e :: es, h => by
    rw [Expr.LinesInAll] at h
    rw [Expr.referenceAll]
    refine (Expr.reference_placed hCall e h.1).bind fun value => ?_
    exact (Expr.referenceAll_placed hCall es h.2).bind fun values => .pure (value :: values)

/-- The operands behind the operators are placed. -/
theorem Expr.referenceTerms_placed (hCall : call.Placed context known) :
    (rest : List (Operator × Operand)) → Expr.LinesInRest known rest →
      ∀ operand ∈ (Expr.referenceTerms call rest).map Prod.snd, Eval.Placed context known operand
  | [], _ => by
    rw [Expr.referenceTerms]
    exact List.forall_mem_nil _
  | (op, operand) :: rest, h => by
    rw [Expr.LinesInRest] at h
    rw [Expr.referenceTerms, List.map_cons]
    exact List.forall_mem_cons.mpr ⟨Operand.reference_placed hCall operand h.1,
      Expr.referenceTerms_placed hCall rest h.2⟩

end

/-- **Expressions are placed**, for their evaluation is by precedence tree. -/
theorem Expr.eval_placed (hCall : call.Placed context known) {e : Expr} (h : e.LinesIn known) :
    Eval.Placed context known (e.eval call) := by
  rw [Expr.eval_eq]
  exact Expr.reference_placed hCall e h

/-- A condition that has no truth is a fault on the line of the expression. -/
theorem Expr.holds_placed (hCall : call.Placed context known) {condition : Expr}
    (h : condition.LinesIn known) : Eval.Placed context known (condition.holds call) := by
  refine (Expr.eval_placed hCall h).bind fun value => .atLine fun cause hCause => ?_
  exact Fault.placed_at h.line .type (Value.kind_of_truth hCause)

mutual

/-- Statements are placed if calls by name are. -/
theorem Stmt.exec_placed (hCall : call.Placed context known) (fuel : Nat) : (s : Stmt) →
    s.LinesIn known → Eval.Placed context known (s.exec call fuel)
  | .expr value, h => by
    rw [Stmt.LinesIn] at h
    rw [Stmt.exec, Setting.around_idle]
    exact (Expr.eval_placed hCall h).bind fun v => .pure (Flow.value v)
  | .branch condition thenBody none line, h => by
    rw [Stmt.LinesIn] at h
    obtain ⟨_, hCondition, hThen⟩ := h
    rw [Stmt.exec, Setting.around_idle]
    refine (Expr.holds_placed hCall hCondition).bind fun holds => ?_
    cases holds with
    | true => exact Stmt.execAll_placed hCall fuel .zero thenBody hThen
    | false => exact .pure _
  | .branch condition thenBody (some elseBody) line, h => by
    rw [Stmt.LinesIn] at h
    obtain ⟨_, hCondition, hThen, hElse⟩ := h
    rw [Stmt.exec, Setting.around_idle]
    refine (Expr.holds_placed hCall hCondition).bind fun holds => ?_
    cases holds with
    | true => exact Stmt.execAll_placed hCall fuel .zero thenBody hThen
    | false => exact Stmt.execAll_placed hCall fuel .zero elseBody hElse
  | .loop condition body line, h => by
    rw [Stmt.LinesIn] at h
    obtain ⟨_, hCondition, hBody⟩ := h
    rw [Stmt.exec, Setting.around_idle]
    exact .repeatWhile (Expr.holds_placed hCall hCondition)
      (Stmt.execAll_placed hCall fuel .zero body hBody) fuel .zero
  | .ret result line, h => by
    rw [Stmt.LinesIn] at h
    rw [Stmt.exec, Setting.around_idle]
    exact (Expr.eval_placed hCall h.2).bind fun v => .pure (Flow.ret v)
  | .define name params body line, h => by
    have hFunction : FunctionDef.LinesIn known ⟨name, params, body, line⟩ := h
    rw [Stmt.LinesIn] at h
    rw [Stmt.exec, Setting.around_idle]
    refine Eval.Confined.bind (.define (fun table hTable => hTable.insert hFunction) ?_)
      fun _ => .pure Flow.next
    exact Fault.placed_at h.1 .duplicateDefinition rfl

theorem Stmt.execAll_placed (hCall : call.Placed context known) (fuel : Nat) (last : Value) :
    (ss : List Stmt) → Stmt.LinesInAll known ss →
      Eval.Placed context known (Stmt.execAll call fuel last ss)
  | [], _ => by
    rw [Stmt.execAll]
    exact .pure _
  | s :: ss, h => by
    rw [Stmt.LinesInAll] at h
    rw [Stmt.execAll]
    refine (Stmt.exec_placed hCall fuel s h.1).bind fun flow => ?_
    cases flow with
    | next => exact Stmt.execAll_placed hCall fuel last ss h.2
    | value v => exact Stmt.execAll_placed hCall fuel v ss h.2
    | ret v => exact .pure _

end

/-- A call of a script function is placed on the line of the call, and its body
on its own. -/
theorem FunctionDef.call_placed (f : FunctionDef) (maxDepth : Nat) {body : Eval σ Flow}
    (hBody : Eval.Placed context known body) (args : List Value) {line : Nat}
    (hLine : known line) : Eval.Placed context known (f.call maxDepth body args (some line)) := by
  unfold FunctionDef.call
  by_cases hFew : args.length < f.params.length
  · rw [if_pos hFew]
    exact .fail (Fault.placed_at hLine .arity rfl)
  · rw [if_neg hFew]
    intro s hs
    rw [bind_get]
    by_cases hDeep : maxDepth ≤ s.depth
    · rw [if_pos hDeep]
      exact Eval.Confined.fail (Fault.placed_at hLine .resourceExhausted rfl) s hs
    · rw [if_neg hDeep]
      have hCall := (Eval.Confined.report (.callingScript f.name s.depth)).bind fun _ =>
        (Eval.Confined.inFrame (.ofArguments f.params args) hBody).bind fun flow =>
          .pure flow.result
      exact hCall s hs

/-- **Calls by name are placed**, however deep the calls go. -/
theorem Context.call_placed (context : Context σ) (known : Nat → Prop) (fuel : Nat) :
    Caller.Placed context known (context.call fuel) := by
  -- the induction is on fuel: the lines of a body are known because the function is
  induction fuel with
  | zero => exact fun name args line _ => .outOfFuel
  | succ fuel ih =>
    intro name args line hLine s hs
    rw [Context.call_succ]
    cases hCallee : context.resolve s.chain.main.functions name with
    | none => exact Eval.Confined.fail (Fault.placed_at hLine .name rfl) s hs
    | some callee =>
      cases callee with
      | script f =>
        have hLines : Stmt.LinesInAll known f.body := (hs name f hCallee).2
        exact f.call_placed context.maxDepth (Stmt.execAll_placed ih fuel .zero f.body hLines) args
          hLine s hs
      -- a host's fault needs a host
      | host f =>
        have hHost : context.HasHost := Context.hasHost_of_resolve hCallee
        have hPlaced : ∀ cause : Cause, cause.kind = .host →
            Fault.Placed context known ⟨cause, some line⟩ := by
          intro cause hKind
          refine ⟨⟨line, rfl, hLine⟩, ?_, fun _ => hHost⟩
          show cause.kind ∈ DiagnosticKind.ofRuns
          rw [hKind]
          decide
        have hInvoke : Eval.Placed context known (do
            Eval.report (.callingHost f.name)
            Eval.onWorld (f.invoke args (some line))) :=
          (Eval.Confined.report _).bind fun _ => .host hPlaced
        exact hInvoke s hs

end Evaluation

-- ---------------------------------------------------------------------------
-- Where functions come from
-- ---------------------------------------------------------------------------

/-- The tree of the script, if it has one, is that of its text. -/
def Script.Parsed (script : Script) : Prop :=
  ∀ program, script.tree = some program → outcome (Program.parse script.source) = .ok program

/-- Whatever is done with a script, its tree stays that of its text. -/
theorem Script.Parsed.operate {script : Script} (h : script.Parsed) (operation : Operation σ) :
    (script.operate operation).Parsed := by
  cases script.effect operation with
  | ran _ _ _ hOperate =>
    rw [hOperate]
    exact h
  | parsed _ _ _ hParse hOperate =>
    rw [hOperate]
    rintro _ ⟨⟩
    exact hParse
  | nothing _ _ hOperate =>
    rw [hOperate]
    exact h

/-- No operation changes the text of a script. -/
theorem Script.source_operate (script : Script) (operation : Operation σ) :
    (script.operate operation).source = script.source := by
  cases script.effect operation with
  | ran _ _ _ hOperate => rw [hOperate]
  | parsed _ _ _ _ hOperate => rw [hOperate]
  | nothing _ _ hOperate => rw [hOperate]

/-- All scripts that can be come by have the tree of their text. -/
theorem Script.Built.parsed {script : Script} (h : Script.Built σ script) : script.Parsed := by
  -- induction on the script, with nothing to show of the registries
  refine @Script.Built.rec σ (fun script _ => script.Parsed) (fun _ _ => True) ?_ ?_ ?_ ?_
    (fun _ => trivial) (fun _ _ _ => trivial) (fun _ _ _ _ _ _ _ => trivial) script h
  · intro source program hTree
    cases hTree
  · intro script _ world ih
    exact ih.operate (.compile world)
  · intro script _ context _ fuel world ih _
    exact ih.operate (.run ⟨context, fuel, world⟩)
  · intro script _ registry _ fuel world ih _
    exact ih.operate (.link registry fuel world)

/-- The text can be parsed, and it defines the function. -/
def FunctionDef.DefinedIn (source : String) (f : FunctionDef) : Prop :=
  ∃ program, outcome (Program.parse source) = .ok program ∧ f.toStmt ∈ program

/-- A function that a text defines has no definitions inside. -/
theorem FunctionDef.DefinedIn.flat {source : String} {f : FunctionDef} (h : f.DefinedIn source) :
    f.Flat := by
  obtain ⟨program, hParse, hMem⟩ := h
  have hDefined : f ∈ Stmt.definitionsAll program :=
    Stmt.mem_definitionsAll.mpr ⟨f.toStmt, hMem, List.mem_singleton.mpr rfl⟩
  exact ((Program.flat_of_parse (eq_ok_of_outcome hParse)).mem_definitions hDefined).2

/-- The functions that a run leaves behind are defined in the text. -/
theorem Script.Sound.functions_definedIn {script : Script} (h : script.Sound σ)
    (hParsed : script.Parsed) {table : Table FunctionDef} (hTable : script.functions = some table) :
    ∀ entry ∈ table.entries, entry.2.DefinedIn script.source := by
  obtain ⟨program, context, fuel, world, value, state, hTree, hContext, hRun, rfl⟩ :=
    h.functions table hTable
  let run : Script.Run σ := ⟨context, fuel, world⟩
  have hEval : run.eval program = .ok value state := hRun
  -- the functions are the definitions that the run has got to
  obtain ⟨n, hDefined, _⟩ := Script.Run.functions_eq_defined hContext (h.tree program hTree) hEval
  rw [hDefined]
  intro entry hEntry
  obtain ⟨f, hf, rfl⟩ := List.mem_map.mp hEntry
  refine ⟨program, hParsed program hTree, ?_⟩
  obtain ⟨s, hs, hDefines⟩ := List.mem_filterMap.mp hf
  cases s with
  | define name params body line =>
    cases hDefines
    exact List.mem_of_mem_take hs
  | _ => cases hDefines

/-- Each linked function is defined in one of the libraries. -/
def Registry.LinkedFrom (libraries : List String) (registry : Registry σ) : Prop :=
  ∀ entry ∈ registry.functions.entries, ∃ source ∈ libraries, entry.2.DefinedIn source

namespace Registry.LinkedFrom

variable {registry : Registry σ} {libraries : List String}

/-- Without libraries nothing is linked. -/
theorem empty (maxDepth : Nat) : (Registry.empty (σ := σ) maxDepth).LinkedFrom [] :=
  nofun

/-- To register a host function is not to link one. -/
theorem register (h : registry.LinkedFrom libraries) (f : HostFunction σ) :
    (registry.register f).LinkedFrom libraries := h

/-- **A link adds the text of the script to the libraries.** -/
theorem link (h : registry.LinkedFrom libraries) {script : Script} (hScript : script.Built σ)
    (fuel : Nat) (world : World σ) :
    (registry.link script fuel world).2.1.LinkedFrom (script.source :: libraries) := by
  have hOlder : ∀ entry ∈ registry.functions.entries,
      ∃ source ∈ script.source :: libraries, entry.2.DefinedIn source := by
    intro entry hEntry
    obtain ⟨source, hSource, hDefined⟩ := h entry hEntry
    exact ⟨source, List.mem_cons_of_mem _ hSource, hDefined⟩
  have hFlat : registry.functions.Flat := by
    intro entry hEntry
    obtain ⟨_, _, hDefined⟩ := h entry hEntry
    exact hDefined.flat
  -- the functions that the script has after the link come from its text
  have hNewer : ∀ table, (registry.link script fuel world).2.2.1.functions = some table →
      ∀ entry ∈ table.entries,
        ∃ source ∈ script.source :: libraries, entry.2.DefinedIn source := by
    intro table hTable entry hEntry
    have hSound := (hScript.sound.link hFlat fuel world).1
    have hParsed := hScript.parsed.operate (.link registry fuel world)
    have hDefined := hSound.functions_definedIn hParsed hTable entry hEntry
    have hSource : (registry.link script fuel world).2.2.1.source = script.source :=
      script.source_operate (.link registry fuel world)
    rw [hSource] at hDefined
    exact ⟨script.source, List.mem_cons_self, hDefined⟩
  have hEnd := registry.link_end script fuel world
  generalize registry.link script fuel world = result at hEnd hNewer
  cases hEnd with
  | notCompiled | failed => exact hOlder
  | known _ hFunctions | ran _ _ _ hFunctions =>
    exact Registry.forall_merge
      (Q := fun f => ∃ source ∈ script.source :: libraries, f.DefinedIn source) hOlder
      (hNewer _ hFunctions)

end Registry.LinkedFrom

-- ---------------------------------------------------------------------------
-- Faults of scripts
-- ---------------------------------------------------------------------------

/-- **Every fault of a run has a place and a kind that belongs to runs.** Take a
compiled script, and run it without a registry, or with one whose linked functions
are all defined in some libraries. If the run ends with a fault, then its
diagnostic has a line, counted from 1, and the text of the script or of a library
has a token on that line. The diagnostic is not of a kind that belongs to scanning,
parsing or misuse, and it is a host's only if a host function is registered. -/
theorem Script.faults_have_places {script : Script} (hScript : script.Built σ)
    (hCompiled : script.isCompiled = true) {context : Context σ} {libraries : List String}
    (hLinked : ∀ registry, context.registry = some registry → registry.LinkedFrom libraries)
    {fuel : Nat} {world : World σ} {fault : Fault}
    (hRun : (script.run context fuel world).1 = .error (.fault fault)) :
    (∃ line source, fault.diagnostic.line = some line ∧ 1 ≤ line ∧
      source ∈ script.source :: libraries ∧ HasTokenOn source line) ∧
    fault.diagnostic.kind ∈ [DiagnosticKind.name, .arity, .type, .arithmetic, .duplicateDefinition,
      .host, .resourceExhausted] ∧
    (fault.diagnostic.kind = .host →
      ∃ registry name f, context.registry = some registry ∧
        registry.hosts.find? name = some f) := by
  obtain ⟨program, hTree⟩ := Option.isSome_iff_exists.mp hCompiled
  -- known are the lines with a token of the script or of a library
  let known (line : Nat) : Prop :=
    1 ≤ line ∧ ∃ source ∈ script.source :: libraries, HasTokenOn source line
  have hProgram : Stmt.LinesInAll known program :=
    Program.linesIn_of_parse (hScript.parsed program hTree) fun line hPos hToken =>
      ⟨hPos, script.source, List.mem_cons_self, hToken⟩
  have hShared : ∀ name f, context.shared name = some (.script f) → f.LinesIn known := by
    refine Context.forall_shared fun registry hRegistry entry hEntry => ?_
    obtain ⟨source, hSource, library, hParse, hMem⟩ := hLinked registry hRegistry entry hEntry
    have hLibrary : Stmt.LinesInAll known library :=
      Program.linesIn_of_parse hParse fun line hPos hToken =>
        ⟨hPos, source, List.mem_cons_of_mem _ hSource, hToken⟩
    exact hLibrary.of_mem hMem
  have hStart : context.Calls (FunctionDef.LinesIn known)
      (RunState.start world).chain.main.functions := .of_shared hShared nofun
  have hBlock := Stmt.execAll_placed (context.call_placed known fuel) fuel .zero program hProgram
  have hEval : Eval.Placed context known (program.eval context fuel) :=
    hBlock.bind fun flow => .pure flow.result
  have hEnd := hEval (.start world) hStart
  generalize hResult : program.eval context fuel (.start world) = result at hEnd
  cases hEnd with
  | ok _ =>
    rw [Script.run_of_ok hTree hResult] at hRun
    cases hRun
  | outOfFuel =>
    obtain ⟨_, _, hError⟩ := Script.run_of_error hTree hResult
    rw [hError] at hRun
    cases hRun
  | fault hPlaced =>
    obtain ⟨_, _, hError⟩ := Script.run_of_error hTree hResult
    rw [hError] at hRun
    cases hRun
    obtain ⟨line, hLine, hPos, source, hSource, hToken⟩ := hPlaced.line
    exact ⟨⟨line, source, hLine, hPos, hSource, hToken⟩, hPlaced.kind, hPlaced.host⟩

/-- The fault lies in the second line of the library, and the program has one
line only. -/
theorem Script.faults_have_places_library :
    let note : HostFunction Unit := ⟨"note", fun _ host => (.returned (.int 7), host)⟩
    let library := ((Script.ofSource "def f(x) do\n10 / x;\nend;").compile (World.start ())).2.1
    let script := ((Script.ofSource "f(0);").compile (World.start ())).2.1
    let registry := (((Registry.empty 9).register note).link library 9 (World.start ())).2.1
    let fault : Fault := ⟨.divisionByZero, some 2⟩
    script.isCompiled = true ∧ registry.LinkedFrom [library.source] ∧
    (script.run registry.context 9 (.start ())).1 = .error (.fault fault) ∧
    (∃ line source, fault.diagnostic.line = some line ∧ 1 ≤ line ∧
      source ∈ [script.source, library.source] ∧ HasTokenOn source line) ∧
    fault.diagnostic.kind ∈ [DiagnosticKind.name, .arity, .type, .arithmetic, .duplicateDefinition,
      .host, .resourceExhausted] := by
  intro note library script registry fault
  have hLibrary : library.Built Unit := .compile (.ofSource _) _
  have hScript : script.Built Unit := .compile (.ofSource _) _
  have hLinked : registry.LinkedFrom [library.source] :=
    ((Registry.LinkedFrom.empty 9).register note).link hLibrary 9 _
  have hCompiled : script.isCompiled = true := by decide +kernel
  have hRun : (script.run registry.context 9 (.start ())).1 = .error (.fault fault) := by
    decide +kernel
  have hContext : ∀ other, registry.context.registry = some other →
      other.LinkedFrom [library.source] := by
    rintro _ ⟨⟩
    exact hLinked
  have hPlace := Script.faults_have_places hScript hCompiled hContext hRun
  exact ⟨hCompiled, hLinked, hRun, hPlace.1, hPlace.2.1⟩

end Scriptlet
