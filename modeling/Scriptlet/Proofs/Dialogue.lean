import Scriptlet.Proofs.Delivery
import Scriptlet.Proofs.Recognition

/-!
# Scriptlet — the parser as a dialogue

The parser learns of its tokens by asking, and does nothing else with their
source. What a parse returns does not tell how often it has asked, nor which
rules it has entered on the way. But its rules are written for every source of
tokens, and one of these is a *dialogue*: a tree of requests in which the
answers decide how it goes on, with a mark wherever a rule is entered.

* `Dialogue.run` — the computation on a scanner that makes the requests;
* `Dialogue.requests`, `Dialogue.entries` — what is asked and which rules are
  entered, whether the computation ends or stops;
* `Nonterminal.run_dialogue` — the parser as a dialogue, when it is run, is the
  parser of scanners.
-/

namespace Scriptlet

open Scanner (Request)

/-- A computation that asks for tokens, and enters rules of the grammar. -/
inductive Dialogue (α : Type) where
  | done (a : α)
  | stop (reason : Stop)
  | ask (request : Request) (reply : Token → Dialogue α)
  | enter (rule : Nonterminal) (body : Dialogue α)

/-- The entry of a rule in front of so many tokens. -/
structure RuleEntry where
  rule : Nonterminal
  left : Nat

namespace Dialogue

variable {α β : Type}

/-- One dialogue after the other. -/
protected def bind : Dialogue α → (α → Dialogue β) → Dialogue β
  | done a, next => next a
  | stop reason, _ => .stop reason
  | ask request reply, next => .ask request fun token => (reply token).bind next
  | enter rule body, next => .enter rule (body.bind next)

instance : Monad Dialogue where
  pure := done
  bind := Dialogue.bind

instance : TokenSource Dialogue where
  peek k := .ask (.peek k) .done
  next := .ask .next .done
  stop := .stop
  enter := .enter

/-- The computation that makes the requests. -/
def run : Dialogue α → Scan α
  | done a => pure a
  | stop reason => throw reason
  | ask request reply => request.perform >>= fun token => (reply token).run
  | enter _ body => body.run

/-- What happens on the way: requests are made, and rules are entered. -/
def trace : Dialogue α → Scanner → List (Request ⊕ RuleEntry)
  | done _, _ => []
  | stop _, _ => []
  | ask request reply, scanner =>
    .inl request :: match request.perform scanner with
      | .ok token later => (reply token).trace later
      | .error _ _ => []
  | enter rule body, scanner =>
    .inr ⟨rule, scanner.stream.tokens.length⟩ :: body.trace scanner

/-- An entry is noted in front of what happens in the rule. -/
@[simp]
theorem trace_enter (rule : Nonterminal) (d : Dialogue α) (scanner : Scanner) :
    (TokenSource.enter rule d).trace scanner =
      .inr ⟨rule, scanner.stream.tokens.length⟩ :: d.trace scanner :=
  rfl

/-- The requests that are made. -/
def requests (d : Dialogue α) (scanner : Scanner) : List Request :=
  (d.trace scanner).filterMap Sum.getLeft?

/-- The rules that are entered. -/
def entries (d : Dialogue α) (scanner : Scanner) : List RuleEntry :=
  (d.trace scanner).filterMap Sum.getRight?

/-- A dialogue ends where its requests lead. -/
theorem final_run (d : Dialogue α) (s : Scanner) : final (d.run s) = s.after (d.requests s) := by
  induction d generalizing s with
  | done a => rfl
  | stop reason => rfl
  -- on the tree of requests: each answer leads to the dialogue that goes on
  | ask request reply ih =>
    simp only [run, requests, trace, List.filterMap_cons, Sum.getLeft?, Scanner.after,
      List.foldl_cons]
    cases hToken : request.perform s with
    | ok token later =>
      rw [bind_of_ok hToken]
      exact ih token later
    | error reason later =>
      rw [bind_of_error hToken]
      rfl
  | enter rule body ih => exact ih s

section Bind

variable {d : Dialogue α} {next : α → Dialogue β} {s s' : Scanner}

/-- If the first of two dialogues ends with a value, the second goes on where it
ended. -/
theorem trace_bind_of_ok {a : α} (h : d.run s = .ok a s') :
    (d >>= next).trace s = d.trace s ++ (next a).trace s' := by
  -- the induction is for any scanner, as each request moves it
  induction d generalizing s with
  | done b =>
    cases h
    rfl
  | stop reason => cases h
  | ask request reply ih =>
    obtain ⟨token, later, hToken, hRest⟩ := exists_of_bind_ok h
    show (ask request fun token => reply token >>= next).trace s = _
    rw [trace, trace, hToken]
    exact congrArg (.inl request :: ·) (ih token hRest)
  | enter rule body ih =>
    exact congrArg (.inr ⟨rule, s.stream.tokens.length⟩ :: ·) (ih h)

/-- If the first of two dialogues stops, nothing happens after it. -/
theorem trace_bind_of_error {reason : Stop} (h : d.run s = .error reason s') :
    (d >>= next).trace s = d.trace s := by
  induction d generalizing s with
  | done b => cases h
  | stop reason => rfl
  | ask request reply ih =>
    show (ask request fun token => reply token >>= next).trace s = _
    rw [trace, trace]
    cases hToken : request.perform s with
    | error reason' later => rfl
    -- the request is answered, hence what stops is behind it
    | ok token later =>
      have hRest : (reply token).run later = .error reason s' := (bind_of_ok hToken).symm.trans h
      exact congrArg (.inl request :: ·) (ih token hRest)
  | enter rule body ih =>
    exact congrArg (.inr ⟨rule, s.stream.tokens.length⟩ :: ·) (ih h)

end Bind

-- ---------------------------------------------------------------------------
-- Running the rules of the parser
-- ---------------------------------------------------------------------------

/-- Running dialogues one after the other is running one after the other. -/
@[simp]
theorem run_bind (d : Dialogue α) (next : α → Dialogue β) :
    (d >>= next).run = d.run >>= fun a => (next a).run := by
  -- on the first dialogue, whose end is where the second is put
  induction d with
  | done a => rfl
  | stop reason => rfl
  | ask request reply ih =>
    rw [run, bind_assoc]
    exact bind_congr ih
  | enter rule body ih => exact ih

/-- A dialogue that ends at once asks for nothing. -/
@[simp]
theorem run_pure (a : α) : (pure a : Dialogue α).run = pure a :=
  rfl

/-- One request for a look ahead is answered with a look ahead. -/
@[simp]
theorem run_peek (k : Nat) : (TokenSource.peek k : Dialogue Token).run = TokenSource.peek k :=
  bind_pure _

/-- One request for a token is answered by taking it. -/
@[simp]
theorem run_next : (TokenSource.next : Dialogue Token).run = TokenSource.next :=
  bind_pure _

/-- A dialogue that refuses a token stops as the parser does. -/
@[simp]
theorem run_unexpected (token : Token) (expected : Expectation) :
    (Parse.unexpected token expected : Dialogue α).run = Parse.unexpected token expected :=
  rfl

/-- A scanner does nothing where a rule is entered. -/
@[simp]
theorem run_enter (rule : Nonterminal) (d : Dialogue α) :
    (TokenSource.enter rule d).run = TokenSource.enter rule d.run :=
  rfl

/-- A check is the same for both. -/
@[simp]
theorem run_check (kind : TokenKind) :
    (Parse.check kind : Dialogue Bool).run = Parse.check kind := by
  simp [Parse.check]

/-- So is a token that may be there. -/
@[simp]
theorem run_accept (kind : TokenKind) :
    (Parse.accept kind : Dialogue Bool).run = Parse.accept kind := by
  simp [Parse.accept, apply_ite run]

/-- So is a token that has to be there. -/
@[simp]
theorem run_require (kind : TokenKind) (expected : Expectation) :
    (Parse.require kind expected : Dialogue Unit).run = Parse.require kind expected := by
  simp [Parse.require, apply_ite run]

/-- So is a name. -/
@[simp]
theorem run_requireName (expected : Expectation) :
    (Parse.requireName expected : Dialogue String).run = Parse.requireName expected := by
  rw [Parse.requireName, Parse.requireName, run_bind, run_next]
  refine bind_congr fun token => ?_
  obtain ⟨kind, l⟩ := token
  -- which names are accepted is decided by the kind of the token
  cases kind <;> rfl

/-- The end of a block is the same for both. -/
@[simp]
theorem run_blockEnd (expected : Expectation) :
    (Parse.blockEnd expected : Dialogue Unit).run = Parse.blockEnd expected := by
  simp [Parse.blockEnd]

/-- The target of an assignment is the same for both. -/
@[simp]
theorem run_target (start : Token) :
    (Parse.target start : Dialogue (Option String)).run = Parse.target start := by
  obtain ⟨kind, l⟩ := start
  cases kind with
  | identifier x => simp [Parse.target, apply_ite run]
  | _ => rfl

/-- The end of an expression is the same for both. -/
@[simp]
theorem run_expressionEnd : (Parse.expressionEnd : Dialogue Unit).run = Parse.expressionEnd := by
  rw [Parse.expressionEnd, Parse.expressionEnd, run_bind, run_accept]
  refine bind_congr fun found => ?_
  cases found with
  | true => rfl
  | false =>
    rw [if_neg (by decide), if_neg (by decide), run_bind, run_peek]
    refine bind_congr fun token => ?_
    obtain ⟨kind, l⟩ := token
    cases kind with
    | keyword word => cases word <;> rfl
    | separator mark => cases mark <;> rfl
    | _ => rfl

/-- With this much fuel, the rules for expressions are the same for dialogues as
for scanners. -/
structure ExprsRun (fuel : Nat) : Prop where
  factor : (Parse.factor fuel : Dialogue Operand).run = Parse.factor fuel
  expression : (Parse.expression fuel : Dialogue Expr).run = Parse.expression fuel
  operations :
    (Parse.operations fuel : Dialogue (List (Operator × Operand))).run = Parse.operations fuel
  arguments : (Parse.arguments fuel : Dialogue (List Expr)).run = Parse.arguments fuel
  moreArguments : (Parse.moreArguments fuel : Dialogue (List Expr)).run = Parse.moreArguments fuel

attribute [simp] ExprsRun.factor ExprsRun.expression ExprsRun.operations ExprsRun.arguments
  ExprsRun.moreArguments

variable {fuel : Nat}

/-- An operand is the same for both, if what it holds is. -/
theorem ExprsRun.factor_succ (ih : ExprsRun fuel) :
    (Parse.factor (fuel + 1) : Dialogue Operand).run = Parse.factor (fuel + 1) := by
  rw [Parse.factor, Parse.factor, run_enter, run_bind, run_accept]
  refine congrArg _ (bind_congr fun found => ?_)
  cases found with
  | true => simp [ih]
  | false =>
    rw [if_neg (by decide), if_neg (by decide), run_bind, run_next]
    refine bind_congr fun token => ?_
    obtain ⟨kind, l⟩ := token
    cases kind with
    | identifier x => simp [ih, apply_ite run]
    | _ => rfl

/-- Operators are the same for both, if their operands are. -/
theorem ExprsRun.operations_succ (ih : ExprsRun fuel) :
    (Parse.operations (fuel + 1) : Dialogue (List (Operator × Operand))).run =
      Parse.operations (fuel + 1) := by
  rw [Parse.operations, Parse.operations, run_enter, run_bind, run_peek]
  refine congrArg _ (bind_congr fun token => ?_)
  obtain ⟨kind, l⟩ := token
  cases kind with
  | operator op => simp [ih]
  | assign => simp
  | _ => rfl

/-- **The rules for expressions are the same for dialogues as for scanners.** -/
theorem exprsRun (fuel : Nat) : ExprsRun fuel := by
  induction fuel with
  | zero => exact ⟨rfl, rfl, rfl, rfl, rfl⟩
  | succ fuel ih =>
    refine ⟨ih.factor_succ, ?_, ih.operations_succ, ?_, ?_⟩
    · simp [Parse.expression, ih]
    -- the other rules are sequences of those that are settled already
    · simp [Parse.arguments, ih, apply_ite run]
    · simp [Parse.moreArguments, ih, apply_ite run]

/-- Names of parameters are the same for both. -/
theorem run_moreParameters (fuel : Nat) :
    (Parse.moreParameters fuel : Dialogue (List String)).run = Parse.moreParameters fuel := by
  induction fuel with
  | zero => rfl
  | succ fuel ih => simp [Parse.moreParameters, ih, apply_ite run]

/-- Parameters are the same for both. -/
theorem run_parameters (fuel : Nat) :
    (Parse.parameters fuel : Dialogue (List String)).run = Parse.parameters fuel := by
  simp [Parse.parameters, run_moreParameters, apply_ite run]

/-- With this much fuel, the rules for statements are the same for dialogues as
for scanners. -/
structure StatementsRun (fuel : Nat) : Prop where
  block : ∀ outermost,
    (Parse.block outermost fuel : Dialogue (List Stmt)).run = Parse.block outermost fuel
  statement : ∀ outermost start,
    (Parse.statement outermost start fuel : Dialogue Stmt).run =
      Parse.statement outermost start fuel
  elseBlock : (Parse.elseBlock fuel : Dialogue (Option (List Stmt))).run = Parse.elseBlock fuel

attribute [simp] StatementsRun.block StatementsRun.statement StatementsRun.elseBlock

/-- A statement is the same for both, if the blocks in it are. -/
theorem StatementsRun.statement_succ (ih : StatementsRun fuel) (outermost : Bool) (start : Token) :
    (Parse.statement outermost start (fuel + 1) : Dialogue Stmt).run =
      Parse.statement outermost start (fuel + 1) := by
  have hExprs := exprsRun fuel
  obtain ⟨kind, l⟩ := start
  rw [Parse.statement, Parse.statement, run_enter]
  -- every statement is a sequence of rules that are settled already
  cases kind with
  | keyword word =>
    cases word with
    | defWord => cases outermost <;> simp [ih, run_parameters]
    | _ => simp [ih, hExprs]
  | _ => simp [hExprs]

/-- **The rules for statements are the same for dialogues as for scanners.** -/
theorem statementsRun (fuel : Nat) : StatementsRun fuel := by
  -- a block in a statement has less fuel than the statement
  induction fuel with
  | zero => exact ⟨fun _ => rfl, fun _ _ => rfl, rfl⟩
  | succ fuel ih =>
    refine ⟨fun outermost => ?_, ih.statement_succ, ?_⟩
    · simp [Parse.block, ih, apply_ite run]
    · simp [Parse.elseBlock, ih, apply_ite run]

end Dialogue

/-- **The parser as a dialogue, when it is run, is the parser of scanners.** -/
theorem Nonterminal.run_dialogue (n : Nonterminal) (fuel : Nat) :
    (n.run fuel : Dialogue n.Tree).run = n.run fuel := by
  have hExprs := Dialogue.exprsRun fuel
  have hStatements := Dialogue.statementsRun fuel
  cases n with
  | names => exact Dialogue.run_moreParameters fuel
  | parameters => exact Dialogue.run_parameters fuel
  | program => simp [run, Parse.program, hStatements, apply_ite Dialogue.run]
  | _ => simp [run, hExprs, hStatements]

end Scriptlet
