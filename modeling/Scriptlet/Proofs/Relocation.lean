import Scriptlet.Tree.Parse

/-!
# Scriptlet — tokens on other lines

Tokens and trees carry the lines they come from, and nothing but messages
depends on them. To say so, `mapLines` puts all parts of a tree on other lines.
A computation *mirrors* another if it does the same up to such a change, from
states that differ in the same way.

* `Mirrors`, `Mirrors.bind` — computations that mirror each other, in general;
* `exprsMoved`, `statementsMoved` — each rule of the parser mirrors itself when
  the tokens are put on other lines;
* `parse_mapLine` — so a list of tokens on other lines parses to the same tree
  on other lines, or fails at the same token on another line.
-/

namespace Scriptlet

-- ---------------------------------------------------------------------------
-- Other lines
-- ---------------------------------------------------------------------------

/-- The token on another line. -/
def Token.mapLine (f : Nat → Nat) (token : Token) : Token :=
  ⟨token.kind, f token.line⟩

/-- Putting a token on another line leaves what it is. -/
@[simp] theorem Token.kind_mapLine (f : Nat → Nat) (token : Token) :
    (token.mapLine f).kind = token.kind := rfl

mutual

/-- The operand with all its parts on other lines. -/
def Operand.mapLines (f : Nat → Nat) : Operand → Operand
  | .ident name line => .ident name (f line)
  | .number value => .number value
  | .text content => .text content
  | .call callee args line => .call callee (Expr.mapLinesAll f args) (f line)
  | .group inner => .group (inner.mapLines f)

/-- The expression with all its parts on other lines. -/
def Expr.mapLines (f : Nat → Nat) : Expr → Expr
  | ⟨target, first, rest, line⟩ =>
    ⟨target, first.mapLines f, Expr.mapLinesRest f rest, f line⟩

/-- Expressions on other lines. -/
def Expr.mapLinesAll (f : Nat → Nat) : List Expr → List Expr
  | [] => []
  | e :: es => e.mapLines f :: Expr.mapLinesAll f es

/-- Operators, each with its operand on other lines. -/
def Expr.mapLinesRest (f : Nat → Nat) : List (Operator × Operand) → List (Operator × Operand)
  | [] => []
  | (op, operand) :: rest => (op, operand.mapLines f) :: Expr.mapLinesRest f rest

end

mutual

/-- The statement with all its parts on other lines. -/
def Stmt.mapLines (f : Nat → Nat) : Stmt → Stmt
  | .expr value => .expr (value.mapLines f)
  | .branch condition thenBody none line =>
    .branch (condition.mapLines f) (Stmt.mapLinesAll f thenBody) none (f line)
  | .branch condition thenBody (some elseBody) line =>
    .branch (condition.mapLines f) (Stmt.mapLinesAll f thenBody)
      (some (Stmt.mapLinesAll f elseBody)) (f line)
  | .loop condition body line => .loop (condition.mapLines f) (Stmt.mapLinesAll f body) (f line)
  | .ret result line => .ret (result.mapLines f) (f line)
  | .define name params body line => .define name params (Stmt.mapLinesAll f body) (f line)

/-- Statements on other lines. -/
def Stmt.mapLinesAll (f : Nat → Nat) : List Stmt → List Stmt
  | [] => []
  | s :: ss => s.mapLines f :: Stmt.mapLinesAll f ss

end

/-- The program on other lines. -/
def Program.mapLines (f : Nat → Nat) (program : Program) : Program :=
  Stmt.mapLinesAll f program

-- ---------------------------------------------------------------------------
-- Computations that mirror each other
-- ---------------------------------------------------------------------------

/-- The ends of two runs of which the second mirrors the first: its value is
the image of the other's, or it stops in a like way, and the states are
related. -/
inductive Mirrored {S T α β : Type} (like : Stop → Stop → Prop) (R : S → T → Prop) (image : α → β) :
    EStateM.Result Stop S α → EStateM.Result Stop T β → Prop
  | ok {a : α} {s : S} {t : T} (h : R s t) : Mirrored like R image (.ok a s) (.ok (image a) t)
  | error {stop stop' : Stop} {s : S} {t : T} (hStop : like stop stop') (h : R s t) :
    Mirrored like R image (.error stop s) (.error stop' t)

/-- The second run ends with a value exactly if the first does, and then with
its image. -/
theorem Mirrored.outcome_eq_ok_iff {S T α β : Type} {like : Stop → Stop → Prop} {R : S → T → Prop}
    {image : α → β} {r : EStateM.Result Stop S α} {r' : EStateM.Result Stop T β}
    (h : Mirrored like R image r r') (b : β) :
    outcome r' = .ok b ↔ ∃ a, outcome r = .ok a ∧ b = image a := by
  cases h with
  | @ok a s t h =>
    constructor
    · intro hOutcome
      exact ⟨a, rfl, (Except.ok.inj hOutcome).symm⟩
    · rintro ⟨a, ⟨⟩, rfl⟩
      rfl
  | error hStop h =>
    constructor
    · rintro ⟨⟩
    · rintro ⟨_, ⟨⟩, _⟩

/-- If the first run stops, the second stops in a like way. -/
theorem Mirrored.outcome_of_error {S T α β : Type} {like : Stop → Stop → Prop} {R : S → T → Prop}
    {image : α → β} {r : EStateM.Result Stop S α} {r' : EStateM.Result Stop T β} {stop : Stop}
    (h : Mirrored like R image r r') (hStop : outcome r = .error stop) :
    ∃ stop', like stop stop' ∧ outcome r' = .error stop' := by
  cases h with
  | ok h => cases hStop
  | error hLike h =>
    cases hStop
    exact ⟨_, hLike, rfl⟩

/-- From related states, the second computation mirrors the first. -/
def Mirrors {S T α β : Type} (like : Stop → Stop → Prop) (R : S → T → Prop) (image : α → β)
    (m : EStateM Stop S α) (n : EStateM Stop T β) : Prop :=
  ∀ s t, R s t → Mirrored like R image (m s) (n t)

namespace Mirrors

variable {S T α β γ δ : Type} {like : Stop → Stop → Prop} {R : S → T → Prop} {image : α → β}
  {image' : γ → δ}

/-- A value mirrors another if it is the image of it. -/
theorem pure {a : α} {b : β} (h : image a = b) :
    Mirrors like R image (Pure.pure a) (Pure.pure b) := by
  subst h
  exact fun _ _ hR => .ok hR

theorem throw {stop stop' : Stop} (h : like stop stop') :
    Mirrors like R image (throw stop) (throw stop') :=
  fun _ _ hR => .error h hR

/-- A sequence is mirrored if its parts are, from where the first part ends. -/
theorem bind_mirrored {m : EStateM Stop S α} {n : EStateM Stop T β} {k : α → EStateM Stop S γ}
    {k' : β → EStateM Stop T δ} {s : S} {t : T} (h : Mirrored like R image (m s) (n t))
    (hNext : ∀ a, Mirrors like R image' (k a) (k' (image a))) :
    Mirrored like R image' ((m >>= k) s) ((n >>= k') t) := by
  show Mirrored like R image' (EStateM.bind m k s) (EStateM.bind n k' t)
  unfold EStateM.bind
  generalize m s = first at h
  generalize n t = second at h
  cases h with
  | ok hR => exact hNext _ _ _ hR
  | error hStop hR => exact .error hStop hR

/-- **Sequences mirror each other if their parts do.** -/
theorem bind {m : EStateM Stop S α} {n : EStateM Stop T β} {k : α → EStateM Stop S γ}
    {k' : β → EStateM Stop T δ} (h : Mirrors like R image m n)
    (hNext : ∀ a, Mirrors like R image' (k a) (k' (image a))) :
    Mirrors like R image' (m >>= k) (n >>= k') :=
  fun s t hR => bind_mirrored (h s t hR) hNext

end Mirrors

-- ---------------------------------------------------------------------------
-- Single tokens
-- ---------------------------------------------------------------------------

/-- Both parses run dry, or the second fails at the token of the first, which
is on another line. -/
inductive Stop.Relined (f : Nat → Nat) : Stop → Stop → Prop
  | unexpected (token : Token) (expected : Expectation) :
    Stop.Relined f (.fault (.unexpected token expected))
      (.fault (.unexpected (token.mapLine f) expected))
  | outOfFuel : Stop.Relined f .outOfFuel .outOfFuel

/-- A parse that fails at a token fails at the same token on the other line, and
wants the same. -/
theorem Stop.Relined.eq_of_unexpected {f : Nat → Nat} {token : Token} {expected : Expectation}
    {stop : Stop} (h : Stop.Relined f (.fault (.unexpected token expected)) stop) :
    stop = .fault (.unexpected (token.mapLine f) expected) := by
  generalize hFirst : Stop.fault (.unexpected token expected) = first at h
  cases h with
  | unexpected token' expected' =>
    have hCause := congrArg Fault.cause (Stop.fault.inj hFirst)
    obtain ⟨rfl, rfl⟩ := Cause.unexpected.inj hCause
    rfl
  | outOfFuel => cases hFirst

/-- Both scanners have read all lines, and the second has the tokens of the
first on other lines. -/
structure Scanner.Relined (f : Nat → Nat) (s t : Scanner) : Prop where
  unread : s.unread = []
  unread' : t.unread = []
  queue : t.queue = s.queue.map (Token.mapLine f)
  line : t.line = f s.line

/-- Put on other lines, the tokens are taken by the second computation as they
are by the first. -/
abbrev Moves {α β : Type} (f : Nat → Nat) (image : α → β) (m : Scan α) (n : Scan β) : Prop :=
  Mirrors (Stop.Relined f) (Scanner.Relined f) image m n

/-- A scanner that has read all its lines has nothing to read on. -/
theorem Scanner.fill_of_read {scanner : Scanner} (h : scanner.unread = [])
    (enough : List Token → Bool) : fill enough scanner = .ok () scanner := by
  obtain ⟨queue, unread, line, log⟩ := scanner
  cases h
  rfl

namespace Moves

variable {f : Nat → Nat} {α : Type} {image : α → α}

/-- A look ahead sees the same token on its other line. -/
theorem peek (k : Nat) : Moves f (Token.mapLine f) (Scanner.peek k) (Scanner.peek k) := by
  intro s t h
  rw [Scanner.peek, bind_of_ok (Scanner.fill_of_read h.unread _),
    bind_of_ok (Scanner.fill_of_read h.unread' _), bind_get, bind_get]
  -- beyond the last token both see an end of input, on the last line of each
  have hToken : t.queue[k]?.getD t.eof = (s.queue[k]?.getD s.eof).mapLine f := by
    rw [h.queue, List.getElem?_map, Scanner.eof, h.line]
    cases s.queue[k]? <;> rfl
  rw [hToken]
  exact .ok h

/-- The next token is the same on its other line. -/
theorem next : Moves f (Token.mapLine f) Scanner.next Scanner.next := by
  intro s t h
  rw [Scanner.next, bind_of_ok (Scanner.fill_of_read h.unread _),
    bind_of_ok (Scanner.fill_of_read h.unread' _), bind_get, bind_get]
  obtain ⟨queue, unread, line, log⟩ := s
  obtain ⟨queue', unread', line', log'⟩ := t
  obtain ⟨rfl, rfl, rfl, rfl⟩ := h
  cases queue with
  | nil => exact Mirrored.ok (a := Scanner.eof ⟨[], [], line, log⟩) ⟨rfl, rfl, rfl, rfl⟩
  | cons token queue => exact Mirrored.ok (a := token) ⟨rfl, rfl, rfl, rfl⟩

/-- A token that is refused is refused on its other line. -/
theorem unexpected (token : Token) (expected : Expectation) :
    Moves f image (Parse.unexpected token expected)
      (Parse.unexpected (token.mapLine f) expected) :=
  .throw (.unexpected token expected)

theorem dry : Moves f image (throw .outOfFuel) (throw .outOfFuel) :=
  .throw .outOfFuel

/-- A check depends on the kind only, not on the line. -/
theorem check (kind : TokenKind) : Moves f id (Parse.check kind) (Parse.check kind) :=
  (peek 0).bind fun _ => .pure rfl

/-- A token that may be there is taken on both sides or on none. -/
theorem accept (kind : TokenKind) : Moves f id (Parse.accept kind) (Parse.accept kind) := by
  refine (check kind).bind fun found => ?_
  cases found with
  | true => exact next.bind fun _ => .pure rfl
  | false => exact .pure rfl

/-- A token that has to be there is taken on both sides, or both fail at it. -/
theorem require (kind : TokenKind) (expected : Expectation) :
    Moves f id (Parse.require kind expected) (Parse.require kind expected) := by
  refine next.bind fun token => ?_
  rw [Token.kind_mapLine]
  cases token.kind == kind with
  | true => exact .pure rfl
  | false => exact unexpected token expected

/-- So is a name. -/
theorem requireName (expected : Expectation) :
    Moves f id (Parse.requireName expected) (Parse.requireName expected) := by
  refine next.bind fun token => ?_
  obtain ⟨kind, line⟩ := token
  cases kind with
  | identifier name => exact .pure rfl
  | _ => exact unexpected _ expected

/-- So is the end of a block. -/
theorem blockEnd (expected : Expectation) :
    Moves f id (Parse.blockEnd expected) (Parse.blockEnd expected) :=
  (require _ expected).bind fun _ => require _ .endSemicolon

end Moves

-- ---------------------------------------------------------------------------
-- Expressions
-- ---------------------------------------------------------------------------

section Rules

variable {f : Nat → Nat}

/-- The target of an assignment does not depend on lines. -/
theorem moves_target (start : Token) :
    Moves f id (Parse.target start) (Parse.target (start.mapLine f)) := by
  obtain ⟨kind, line⟩ := start
  cases kind with
  | identifier name =>
    refine (Moves.peek 1).bind fun second => ?_
    rw [Token.kind_mapLine]
    cases second.kind == .assign with
    | true => exact Moves.next.bind fun _ => Moves.next.bind fun _ => .pure rfl
    | false => exact .pure rfl
  | _ => exact .pure rfl

/-- Nor does the end of an expression. -/
theorem moves_expressionEnd : Moves f id Parse.expressionEnd Parse.expressionEnd := by
  refine (Moves.accept _).bind fun found => ?_
  cases found with
  | true => exact .pure rfl
  | false =>
    refine (Moves.peek 0).bind fun token => ?_
    obtain ⟨kind, line⟩ := token
    cases kind with
    | keyword word =>
      cases word with
      | doWord => exact .pure rfl
      | _ => exact Moves.unexpected _ .expressionEnd
    | separator sign =>
      cases sign with
      | closeParen | comma => exact .pure rfl
      | _ => exact Moves.unexpected _ .expressionEnd
    | _ => exact Moves.unexpected _ .expressionEnd

/-- The rules for expressions, with the given fuel. -/
structure ExprsMoved (f : Nat → Nat) (fuel : Nat) : Prop where
  factor : Moves f (Operand.mapLines f) (Parse.factor fuel) (Parse.factor fuel)
  expression : Moves f (Expr.mapLines f) (Parse.expression fuel) (Parse.expression fuel)
  operations : Moves f (Expr.mapLinesRest f) (Parse.operations fuel) (Parse.operations fuel)
  arguments : Moves f (Expr.mapLinesAll f) (Parse.arguments fuel) (Parse.arguments fuel)
  moreArguments : Moves f (Expr.mapLinesAll f) (Parse.moreArguments fuel) (Parse.moreArguments fuel)

namespace ExprsMoved

variable {fuel : Nat}

/-- An operand is moved with the expressions in it. -/
theorem factor_succ (ih : ExprsMoved f fuel) :
    Moves f (Operand.mapLines f) (Parse.factor (fuel + 1)) (Parse.factor (fuel + 1)) := by
  rw [Parse.factor]
  refine (Moves.accept _).bind fun found => ?_
  cases found with
  | true =>
    refine ih.expression.bind fun inner => (Moves.require _ _).bind fun _ => .pure ?_
    rw [Operand.mapLines]
  | false =>
    refine Moves.next.bind fun token => ?_
    obtain ⟨kind, line⟩ := token
    cases kind with
    | identifier name =>
      refine (Moves.accept _).bind fun found => ?_
      cases found with
      | true =>
        refine ih.arguments.bind fun args => (Moves.require _ _).bind fun _ => .pure ?_
        rw [Operand.mapLines]
        rfl
      | false =>
        refine .pure ?_
        rw [Operand.mapLines]
        rfl
    | number value =>
      refine .pure ?_
      rw [Operand.mapLines]
    | text content =>
      refine .pure ?_
      rw [Operand.mapLines]
    | _ => exact Moves.unexpected _ .operand

/-- An expression has the line of its first token, which is moved with it. -/
theorem expression_succ (ih : ExprsMoved f fuel) :
    Moves f (Expr.mapLines f) (Parse.expression (fuel + 1)) (Parse.expression (fuel + 1)) := by
  rw [Parse.expression]
  refine (Moves.peek 0).bind fun start => (moves_target start).bind fun target => ?_
  -- the line is that of the token seen first, here and on the other side
  refine ih.factor.bind fun first => ih.operations.bind fun rest => ?_
  refine moves_expressionEnd.bind fun _ => .pure ?_
  rw [Expr.mapLines]
  rfl

/-- Operators have no lines of their own. -/
theorem operations_succ (ih : ExprsMoved f fuel) :
    Moves f (Expr.mapLinesRest f) (Parse.operations (fuel + 1)) (Parse.operations (fuel + 1)) := by
  rw [Parse.operations]
  refine (Moves.peek 0).bind fun token => ?_
  obtain ⟨kind, line⟩ := token
  cases kind with
  | operator op =>
    refine Moves.next.bind fun _ => ih.factor.bind fun operand => ih.operations.bind fun rest => ?_
    refine .pure ?_
    rw [Expr.mapLinesRest]
  | assign => exact Moves.next.bind fun token => Moves.unexpected token .leadingAssignment
  | _ =>
    refine .pure ?_
    rw [Expr.mapLinesRest]

/-- The arguments of a call are moved one by one. -/
theorem arguments_succ (ih : ExprsMoved f fuel) :
    Moves f (Expr.mapLinesAll f) (Parse.arguments (fuel + 1)) (Parse.arguments (fuel + 1)) := by
  rw [Parse.arguments]
  refine (Moves.check _).bind fun found => ?_
  cases found with
  | true =>
    refine .pure ?_
    rw [Expr.mapLinesAll]
  | false => exact ih.moreArguments

/-- So are those behind the first. -/
theorem moreArguments_succ (ih : ExprsMoved f fuel) :
    Moves f (Expr.mapLinesAll f) (Parse.moreArguments (fuel + 1))
      (Parse.moreArguments (fuel + 1)) := by
  rw [Parse.moreArguments]
  refine ih.expression.bind fun arg => (Moves.accept _).bind fun found => ?_
  cases found with
  | true =>
    refine ih.moreArguments.bind fun args => .pure ?_
    rw [Expr.mapLinesAll]
  | false =>
    refine .pure ?_
    rw [Expr.mapLinesAll, Expr.mapLinesAll]

end ExprsMoved

/-- **The rules for expressions do not depend on lines.** -/
theorem exprsMoved (f : Nat → Nat) (fuel : Nat) : ExprsMoved f fuel := by
  induction fuel with
  | zero => constructor <;> exact Moves.dry
  | succ fuel ih =>
    exact ⟨ih.factor_succ, ih.expression_succ, ih.operations_succ, ih.arguments_succ,
      ih.moreArguments_succ⟩

-- ---------------------------------------------------------------------------
-- Statements
-- ---------------------------------------------------------------------------

/-- Names of parameters have no lines. -/
theorem moves_moreParameters (fuel : Nat) :
    Moves f id (Parse.moreParameters fuel) (Parse.moreParameters fuel) := by
  induction fuel with
  | zero => exact Moves.dry
  | succ fuel ih =>
    rw [Parse.moreParameters]
    refine (Moves.requireName _).bind fun name => (Moves.accept _).bind fun found => ?_
    cases found with
    | true => exact ih.bind fun _ => .pure rfl
    | false => exact .pure rfl

/-- Parameters have no lines either. -/
theorem moves_parameters (fuel : Nat) :
    Moves f id (Parse.parameters fuel) (Parse.parameters fuel) := by
  rw [Parse.parameters]
  refine (Moves.require _ _).bind fun _ => (Moves.check _).bind fun found => ?_
  have hClose : ∀ names : List String,
      Moves f id (Parse.require (.separator .closeParen) .parametersClose >>= fun _ => pure names)
        (Parse.require (.separator .closeParen) .parametersClose >>= fun _ => pure names) :=
    fun names => (Moves.require _ _).bind fun _ => .pure rfl
  cases found with
  | true => exact hClose []
  | false => exact (moves_moreParameters fuel).bind hClose

/-- The rules for statements, with the given fuel. -/
structure StatementsMoved (f : Nat → Nat) (fuel : Nat) : Prop where
  block : ∀ outermost, Moves f (Stmt.mapLinesAll f) (Parse.block outermost fuel)
    (Parse.block outermost fuel)
  statement : ∀ outermost start, Moves f (Stmt.mapLines f) (Parse.statement outermost start fuel)
    (Parse.statement outermost (start.mapLine f) fuel)
  elseBlock : Moves f (Option.map (Stmt.mapLinesAll f)) (Parse.elseBlock fuel)
    (Parse.elseBlock fuel)

namespace StatementsMoved

variable {fuel : Nat}

/-- A block is moved with its statements. -/
theorem block_succ (ih : StatementsMoved f fuel) (outermost : Bool) :
    Moves f (Stmt.mapLinesAll f) (Parse.block outermost (fuel + 1))
      (Parse.block outermost (fuel + 1)) := by
  rw [Parse.block]
  refine (Moves.peek 0).bind fun token => ?_
  rw [Token.kind_mapLine]
  cases Parse.endsBlock token.kind with
  | true =>
    refine .pure ?_
    rw [Stmt.mapLinesAll]
  | false =>
    refine (ih.statement outermost token).bind fun first => (ih.block outermost).bind fun rest => ?_
    refine .pure ?_
    rw [Stmt.mapLinesAll]

/-- A second block is moved, or missing on both sides. -/
theorem elseBlock_succ (ih : StatementsMoved f fuel) :
    Moves f (Option.map (Stmt.mapLinesAll f)) (Parse.elseBlock (fuel + 1))
      (Parse.elseBlock (fuel + 1)) := by
  rw [Parse.elseBlock]
  refine (Moves.accept _).bind fun found => ?_
  cases found with
  | true => exact (ih.block false).bind fun _ => .pure rfl
  | false => exact .pure rfl

/-- An `if` on other lines, whether it has a second block or not. -/
theorem branch_mapLines (condition : Expr) (thenBody : List Stmt) (elseBody : Option (List Stmt))
    (line : Nat) :
    (Stmt.branch condition thenBody elseBody line).mapLines f =
      .branch (condition.mapLines f) (Stmt.mapLinesAll f thenBody)
        (elseBody.map (Stmt.mapLinesAll f)) (f line) := by
  cases elseBody <;> rw [Stmt.mapLines] <;> rfl

/-- A statement has the line of its first token, which is moved with it. -/
theorem statement_succ (ih : StatementsMoved f fuel) (outermost : Bool) (start : Token) :
    Moves f (Stmt.mapLines f) (Parse.statement outermost start (fuel + 1))
      (Parse.statement outermost (start.mapLine f) (fuel + 1)) := by
  have hExpr := (exprsMoved f fuel).expression
  have hPlain : Moves f (Stmt.mapLines f)
      (Parse.expression fuel >>= fun value => pure (.expr value))
      (Parse.expression fuel >>= fun value => pure (.expr value)) := by
    refine hExpr.bind fun value => .pure ?_
    rw [Stmt.mapLines]
  obtain ⟨kind, line⟩ := start
  rw [Parse.statement, Parse.statement]
  -- which rule applies is decided by the kind of that token, hence in the same way
  cases kind with
  | keyword word =>
    cases word with
    | whileWord =>
      refine Moves.next.bind fun _ => hExpr.bind fun condition => ?_
      refine (Moves.require _ _).bind fun _ => (ih.block false).bind fun body => ?_
      refine (Moves.blockEnd _).bind fun _ => .pure ?_
      rw [Stmt.mapLines]
      rfl
    | ifWord =>
      refine Moves.next.bind fun _ => hExpr.bind fun condition => ?_
      refine (Moves.require _ _).bind fun _ => (ih.block false).bind fun thenBody => ?_
      refine ih.elseBlock.bind fun elseBody => (Moves.blockEnd _).bind fun _ => .pure ?_
      rw [branch_mapLines]
      rfl
    | returnWord =>
      refine Moves.next.bind fun _ => hExpr.bind fun result => .pure ?_
      rw [Stmt.mapLines]
      rfl
    | defWord =>
      cases outermost with
      | true =>
        refine Moves.next.bind fun _ => (Moves.requireName _).bind fun name => ?_
        refine (moves_parameters fuel).bind fun params => (Moves.require _ _).bind fun _ => ?_
        refine (ih.block false).bind fun body => (Moves.blockEnd _).bind fun _ => .pure ?_
        rw [Stmt.mapLines]
        rfl
      | false => exact Moves.unexpected _ .topLevelDefinition
    | _ => exact hPlain
  | _ => exact hPlain

end StatementsMoved

/-- **The rules for statements do not depend on lines.** -/
theorem statementsMoved (f : Nat → Nat) (fuel : Nat) : StatementsMoved f fuel := by
  induction fuel with
  | zero => constructor <;> intros <;> exact Moves.dry
  | succ fuel ih => exact ⟨ih.block_succ, ih.statement_succ, ih.elseBlock_succ⟩

-- ---------------------------------------------------------------------------
-- Whole programs
-- ---------------------------------------------------------------------------

/-- A program is moved with its block; the token behind it has to be an end of
input on both sides. -/
theorem moves_program (fuel : Nat) :
    Moves f (Program.mapLines f) (Parse.program fuel) (Parse.program fuel) := by
  rw [Parse.program]
  refine ((statementsMoved f fuel).block true).bind fun items => (Moves.peek 0).bind fun token => ?_
  show Moves f _ (if token.isEof then _ else _) (if token.isEof then _ else _)
  cases token.isEof with
  | true => exact .pure rfl
  | false => exact Moves.unexpected token .statement

/-- **A parse does not depend on lines.** If a list of tokens parses, then on
other lines it parses to the same tree on other lines. If it fails at a token,
then on other lines it fails at that token, and wants the same. -/
theorem parse_mapLine (f : Nat → Nat) (tokens : List Token) (line : Nat) :
    Mirrored (Stop.Relined f) (Scanner.Relined f) (Program.mapLines f)
      (Scanner.ofTokens tokens line).parse
      (Scanner.ofTokens (tokens.map (Token.mapLine f)) (f line)).parse := by
  -- there are as many tokens as before, hence the two parses have the same fuel
  have hSize : (Scanner.ofTokens (tokens.map (Token.mapLine f)) (f line)).size =
      (Scanner.ofTokens tokens line).size := List.length_map _
  unfold Scanner.parse
  rw [hSize]
  exact moves_program _ _ _ ⟨rfl, rfl, rfl, rfl⟩

end Rules

end Scriptlet
