import Scriptlet.Proofs.Agreement

/-!
# Scriptlet — the parser recognizes the grammar

A list of tokens parses exactly if it derives from the grammar, and then to
the tree of its one derivation. That a parse leads to a derivation is settled
with `Agree`. The converse is by induction over the derivation: the parser
makes the choices that the derivation has made, because what follows a phrase
in a program rules out the others (`Follows`).

* `run_of_derivation` — every phrase is parsed to its tree if the right tokens
  follow it;
* `parse_iff_derivation` — whole programs, and the derivation is unique.
-/

namespace Scriptlet

-- ---------------------------------------------------------------------------
-- What follows a phrase, and what it starts with
-- ---------------------------------------------------------------------------

/-- The kind of the first token. Behind the last token comes the end of the
input. -/
def headKind : List Token → TokenKind
  | [] => .eof
  | token :: _ => token.kind

/-- A token that is not the end of the input is there. -/
theorem eq_cons_of_headKind {input : List Token} {kind : TokenKind} (h : headKind input = kind)
    (hKind : kind ≠ .eof) : ∃ l rest, input = ⟨kind, l⟩ :: rest := by
  cases input with
  | nil => exact absurd h.symm hKind
  | cons token rest => exact ⟨token.line, rest, by rw [← h, headKind]⟩

/-- Three tokens end an expression from behind. -/
theorem closesExpr_iff {kind : TokenKind} :
    closesExpr kind = true ↔
      kind = .keyword .doWord ∨ kind = .separator .closeParen ∨ kind = .separator .comma := by
  constructor
  · intro h
    unfold closesExpr at h
    split at h <;> simp_all
  · rintro (rfl | rfl | rfl) <;> rfl

/-- Whether a token ends the operators and operands of an expression. -/
def endsTerms (kind : TokenKind) : Bool :=
  kind == .separator .semicolon || closesExpr kind

/-- The tokens may follow the nonterminal in a program. Where nothing is said,
the phrase itself shows where it ends. -/
def Nonterminal.Follows : Nonterminal → List Token → Prop
  | factor, rest => headKind rest ≠ .separator .openParen
  | arguments, rest => headKind rest = .separator .closeParen
  | moreArguments, rest => headKind rest ≠ .separator .comma
  | target, rest => ∀ x l l' after, rest ≠ ⟨.identifier x, l⟩ :: ⟨.assign, l'⟩ :: after
  | operations, rest => endsTerms (headKind rest) = true
  | names, rest => headKind rest ≠ .separator .comma
  | alternative, rest => headKind rest = .keyword .endWord
  | block _, rest => Parse.endsBlock (headKind rest) = true
  | ending, _ | expr, _ | parameters, _ | statement _, _ | program, _ => True

/-- Whether an operand can start with a token of the kind. -/
def startsOperand : TokenKind → Bool
  | .identifier _ | .number _ | .text _ | .separator .openParen => true
  | _ => false

/-- No operand starts at the end of the input. -/
theorem isEof_of_startsOperand {token : Token} (h : startsOperand token.kind = true) :
    token.isEof = false := by
  rw [← Bool.not_eq_true]
  intro hEof
  rw [eq_of_beq hEof] at h
  cases h

namespace Derivation

variable {input mid rest : List Token}

/-- An operand starts with one of four kinds of token. -/
theorem head_factor {a : Operand} (d : Derivation .factor input a rest) :
    startsOperand (headKind input) = true := by
  cases d <;> rfl

/-- An expression starts with its target or with an operand. -/
theorem head_expr {e : Expr} (d : Derivation .expr input e rest) :
    startsOperand (headKind input) = true := by
  cases d with
  | expr goal operand more ending =>
    cases goal with
    | noTarget => exact operand.head_factor
    | target => rfl

/-- Arguments start like the first of them. -/
theorem head_moreArguments {es : List Expr} (d : Derivation .moreArguments input es rest) :
    startsOperand (headKind input) = true := by
  cases d with
  | lastArgument arg => exact arg.head_expr
  | argument arg more => exact arg.head_expr

/-- No statement starts where a block ends. -/
theorem head_statement {outermost : Bool} {s : Stmt}
    (d : Derivation (.statement outermost) input s rest) :
    Parse.endsBlock (headKind input) = false := by
  cases d with
  | plain value =>
    have hStart := value.head_expr
    revert hStart
    generalize headKind input = kind
    intro hStart
    cases kind with
    | keyword word => cases hStart
    | eof => cases hStart
    | _ => rfl
  | _ => rfl

/-- Parameter names start with a name. -/
theorem head_names {xs : List String} (d : Derivation .names input xs rest) :
    ∃ x, headKind input = .identifier x := by
  cases d <;> exact ⟨_, rfl⟩

/-- The first block of an `if` ends at the second one, or where the whole
ends. -/
theorem head_alternative {other : Option (List Stmt)} (d : Derivation .alternative input other rest)
    (hFollows : Nonterminal.Follows .alternative rest) :
    Parse.endsBlock (headKind input) = true := by
  cases d with
  | noElse =>
    rw [Nonterminal.Follows] at hFollows
    rw [hFollows]
    rfl
  | otherwise body => rfl

/-- Operators are followed like the operand before them is. -/
theorem head_operations {ops : List (Operator × Operand)}
    (d : Derivation .operations input ops rest)
    (hFollows : Nonterminal.Follows .operations rest) :
    headKind input ≠ .separator .openParen ∧ headKind input ≠ .assign := by
  cases d with
  -- nothing is there, so the token is the one that follows
  | noOperation =>
    constructor
    · intro h
      rw [Nonterminal.Follows, h] at hFollows
      cases hFollows
    · intro h
      rw [Nonterminal.Follows, h] at hFollows
      cases hFollows
  | operation operand more => exact ⟨nofun, nofun⟩

/-- What ends an expression ends its operators and operands. -/
theorem head_ending (d : Derivation .ending input () rest) :
    Nonterminal.Follows .operations input := by
  cases d with
  | semicolon => rfl
  | lookahead closes =>
    rw [Nonterminal.Follows, headKind, endsTerms, closes, Bool.or_true]

/-- An operand that no assignment sign follows is not the target of an
assignment. -/
theorem follows_target {a : Operand} (d : Derivation .factor input a mid)
    (h : headKind mid ≠ .assign) : Nonterminal.Follows .target input := by
  rintro x l l' after rfl
  cases d with
  | name => exact h rfl

end Derivation

-- ---------------------------------------------------------------------------
-- A scanner that holds all tokens
-- ---------------------------------------------------------------------------

/-- A scanner that has read all lines and has the tokens up to the end of the
input in its queue. -/
def Scanner.hold (line : Nat) (log : Log) (input : List Token) : Scanner :=
  ⟨input.takeWhile (!·.isEof), [], line, log⟩

section Hold

open Scanner

variable {line : Nat} {log : Log} {input : List Token}

/-- A token is the first of the queue, unless it is the end of the input. -/
theorem Scanner.hold_cons {token : Token} (h : token.isEof = false) :
    hold line log (token :: input) =
      { hold line log input with queue := token :: (hold line log input).queue } := by
  rw [hold, List.takeWhile_cons_of_pos (by rw [h]; rfl)]
  rfl

/-- It is the next one to be taken. -/
theorem Scanner.next_hold {token : Token} (h : token.isEof = false) :
    (TokenSource.next : Scan Token) (hold line log (token :: input)) =
      .ok token (hold line log input) := by
  rw [hold_cons h]
  rfl

/-- The queue shows the kind of the first token, also at the end of the
input. -/
theorem Scanner.kind_hold (input : List Token) :
    ((hold line log input).queue[0]?.getD (hold line log input).eof).kind = headKind input := by
  cases input with
  | nil => rfl
  | cons token input =>
    cases hEof : token.isEof with
    | false =>
      rw [hold_cons hEof]
      rfl
    | true =>
      rw [hold, List.takeWhile_cons_of_neg (by rw [hEof]; decide)]
      exact (eq_of_beq hEof).symm

/-- A look at the next token does not change the scanner. -/
theorem Scanner.peek_hold (input : List Token) :
    ∃ token, (TokenSource.peek 0 : Scan Token) (hold line log input) =
      .ok token (hold line log input) ∧ token.kind = headKind input :=
  ⟨_, rfl, kind_hold input⟩

/-- The token that is seen is the first of those held. -/
theorem Scanner.peek_hold_cons {token : Token} (h : token.isEof = false) :
    (TokenSource.peek 0 : Scan Token) (hold line log (token :: input)) =
      .ok token (hold line log (token :: input)) := by
  rw [hold_cons h]
  rfl

/-- A look at the second token shows the kind of the one behind the first. -/
theorem Scanner.peek_one_hold {token : Token} (h : token.isEof = false) :
    ∃ second, (TokenSource.peek 1 : Scan Token) (hold line log (token :: input)) =
      .ok second (hold line log (token :: input)) ∧ second.kind = headKind input := by
  refine ⟨_, rfl, ?_⟩
  rw [← @kind_hold line log input, hold_cons h]
  rfl

/-- The kind of the first token decides a check. -/
theorem check_hold (kind : TokenKind) (input : List Token) :
    (Parse.check kind : Scan Bool) (hold line log input) =
      .ok (headKind input == kind) (hold line log input) := by
  obtain ⟨token, hPeek, hKind⟩ := peek_hold input
  rw [Parse.check, bind_of_ok hPeek, hKind]
  rfl

/-- A token of the kind is accepted and gone. -/
theorem accept_hold {kind : TokenKind} {l : Nat} (hKind : Token.isEof ⟨kind, l⟩ = false) :
    (Parse.accept kind : Scan Bool) (hold line log (⟨kind, l⟩ :: input)) =
      .ok true (hold line log input) := by
  have hCheck : (Parse.check kind : Scan Bool) (hold line log (⟨kind, l⟩ :: input)) =
      .ok true (hold line log (⟨kind, l⟩ :: input)) := by
    rw [check_hold, headKind, beq_self_eq_true]
  rw [Parse.accept, bind_of_ok hCheck, if_pos rfl, bind_of_ok (next_hold hKind)]
  rfl

/-- A token of another kind stays. -/
theorem accept_hold_of_ne {kind : TokenKind} (h : headKind input ≠ kind) :
    (Parse.accept kind : Scan Bool) (hold line log input) = .ok false (hold line log input) := by
  rw [Parse.accept, bind_of_ok (check_hold kind _), if_neg (mt eq_of_beq h)]
  rfl

/-- A token that is required and there is gone. -/
theorem require_hold {kind : TokenKind} {l : Nat} {expected : Expectation}
    (hKind : Token.isEof ⟨kind, l⟩ = false) :
    (Parse.require kind expected : Scan Unit) (hold line log (⟨kind, l⟩ :: input)) =
      .ok () (hold line log input) := by
  rw [Parse.require, bind_of_ok (next_hold hKind)]
  simp only [beq_self_eq_true, if_true]
  rfl

/-- A name that is required and there is gone. -/
theorem requireName_hold {x : String} {l : Nat} {expected : Expectation} :
    (Parse.requireName expected : Scan String) (hold line log (⟨.identifier x, l⟩ :: input)) =
      .ok x (hold line log input) := by
  rw [Parse.requireName, bind_of_ok (next_hold rfl)]
  rfl

/-- The end of a block is gone when it is required. -/
theorem blockEnd_hold {l l' : Nat} {expected : Expectation} :
    (Parse.blockEnd expected : Scan Unit)
        (hold line log (⟨.keyword .endWord, l⟩ :: ⟨.separator .semicolon, l'⟩ :: input)) =
      .ok () (hold line log input) := by
  rw [Parse.blockEnd, bind_of_ok (require_hold rfl), require_hold rfl]

end Hold

-- ---------------------------------------------------------------------------
-- Expressions
-- ---------------------------------------------------------------------------

/-- The rule of the parser for a nonterminal. -/
def Nonterminal.run {m : Type → Type} [Monad m] [TokenSource m] :
    (n : Nonterminal) → Nat → m n.Tree
  | factor, fuel => Parse.factor fuel
  | arguments, fuel => Parse.arguments fuel
  | moreArguments, fuel => Parse.moreArguments fuel
  | target, _ => TokenSource.peek 0 >>= Parse.target
  | operations, fuel => Parse.operations fuel
  | ending, _ => Parse.expressionEnd
  | expr, fuel => Parse.expression fuel
  | names, fuel => Parse.moreParameters fuel
  | parameters, fuel => Parse.parameters fuel
  | alternative, fuel => Parse.elseBlock fuel
  | statement outermost, fuel =>
    TokenSource.peek 0 >>= fun start => Parse.statement outermost start fuel
  | block outermost, fuel => Parse.block outermost fuel
  | program, fuel => Parse.program fuel

/-- The fuel that a rule uses before it takes a token. -/
def Nonterminal.cost : Nonterminal → Nat
  | target | ending | parameters => 0
  | factor | operations | names | alternative => 1
  | expr => 2
  | moreArguments | statement _ => 3
  | arguments | block _ | program => 4

/-- With enough fuel, the rule takes the tokens in front of `rest` and gives
the tree. -/
def Runs (n : Nonterminal) (input : List Token) (tree : n.Tree) (rest : List Token) : Prop :=
  ∀ (line : Nat) (log : Log) (f : Nat), 4 * input.length + n.cost ≤ f →
    (n.run f : Scan n.Tree) (.hold line log input) = .ok tree (.hold line log rest)

namespace Runs

open Scanner TokenSource

variable {input mid rest : List Token} {l l₁ l₂ l₃ l₄ : Nat}

/-- A rule that uses fuel has some when there is enough. -/
theorem of_succ {n : Nonterminal} {tree : n.Tree} (hCost : n.cost ≠ 0)
    (h : ∀ line log f, 4 * input.length + n.cost ≤ f + 1 →
      (n.run (f + 1) : Scan n.Tree) (.hold line log input) = .ok tree (.hold line log rest)) :
    Runs n input tree rest := by
  intro line log f hf
  obtain ⟨f, rfl⟩ : ∃ g, f = g + 1 := ⟨f - 1, by omega⟩
  exact h line log f hf

/-- A name is an operand if no parenthesis follows, for with one it would be
called. -/
theorem name {x : String} (hFollows : Nonterminal.Follows .factor rest) :
    Runs .factor (⟨.identifier x, l⟩ :: rest) (.ident x l) rest := by
  refine of_succ (Nat.succ_ne_zero _) fun line log f _ => ?_
  rw [Nonterminal.run, Parse.factor, enter_scan,
    bind_of_ok (accept_hold_of_ne (by simp [headKind])), if_neg (by simp),
    bind_of_ok (next_hold rfl)]
  exact bind_of_ok (accept_hold_of_ne hFollows)

/-- A number is an operand. -/
theorem number {v : Int64} : Runs .factor (⟨.number v, l⟩ :: rest) (.number v) rest := by
  refine of_succ (Nat.succ_ne_zero _) fun line log f _ => ?_
  rw [Nonterminal.run, Parse.factor, enter_scan,
    bind_of_ok (accept_hold_of_ne (by simp [headKind])), if_neg (by simp),
    bind_of_ok (next_hold rfl)]
  rfl

/-- A text is an operand. -/
theorem text {content : String} :
    Runs .factor (⟨.text content, l⟩ :: rest) (.text content) rest := by
  refine of_succ (Nat.succ_ne_zero _) fun line log f _ => ?_
  rw [Nonterminal.run, Parse.factor, enter_scan,
    bind_of_ok (accept_hold_of_ne (by simp [headKind])), if_neg (by simp),
    bind_of_ok (next_hold rfl)]
  rfl

/-- A group runs like the expression in it. -/
theorem group {e : Expr} (hInner : Runs .expr input e (⟨.separator .closeParen, l₁⟩ :: rest)) :
    Runs .factor (⟨.separator .openParen, l⟩ :: input) (.group e) rest := by
  refine of_succ (Nat.succ_ne_zero _) fun line log f hf => ?_
  rw [Nonterminal.cost, List.length_cons] at hf
  -- the parenthesis has been taken, which leaves four units of fuel more than the inner
  -- expression needs
  have hRun := hInner line log f (by rw [Nonterminal.cost]; omega)
  rw [Nonterminal.run] at hRun
  rw [Nonterminal.run, Parse.factor, enter_scan, bind_of_ok (accept_hold rfl), if_pos rfl,
    bind_of_ok hRun, bind_of_ok (require_hold rfl)]
  rfl

/-- A call runs like its arguments, between a name and a parenthesis. -/
theorem call {x : String} {args : List Expr}
    (hInner : Runs .arguments input args (⟨.separator .closeParen, l₂⟩ :: rest)) :
    Runs .factor (⟨.identifier x, l⟩ :: ⟨.separator .openParen, l₁⟩ :: input)
      (.call x args l) rest := by
  refine of_succ (Nat.succ_ne_zero _) fun line log f hf => ?_
  simp only [Nonterminal.cost, List.length_cons] at hf
  have hRun := hInner line log f (by rw [Nonterminal.cost]; omega)
  rw [Nonterminal.run] at hRun
  rw [Nonterminal.run, Parse.factor, enter_scan,
    bind_of_ok (accept_hold_of_ne (by simp [headKind])), if_neg (by simp),
    bind_of_ok (next_hold rfl)]
  refine (bind_of_ok (accept_hold rfl)).trans ?_
  rw [if_pos rfl, bind_of_ok hRun, bind_of_ok (require_hold rfl)]
  rfl

/-- In front of a closing parenthesis there is no argument. -/
theorem noArgument (hFollows : Nonterminal.Follows .arguments rest) :
    Runs .arguments rest [] rest := by
  refine of_succ (Nat.succ_ne_zero _) fun line log f _ => ?_
  rw [Nonterminal.Follows] at hFollows
  rw [Nonterminal.run, Parse.arguments, enter_scan, bind_of_ok (check_hold _ _), hFollows]
  rfl

/-- Where an operand starts, there is an argument. -/
theorem someArguments {es : List Expr} (hStart : startsOperand (headKind input) = true)
    (hInner : Runs .moreArguments input es rest) : Runs .arguments input es rest := by
  refine of_succ (Nat.succ_ne_zero _) fun line log f hf => ?_
  rw [Nonterminal.cost] at hf
  -- a closing parenthesis starts no operand
  have hHead : headKind input ≠ .separator .closeParen := by
    intro h
    rw [h] at hStart
    cases hStart
  rw [Nonterminal.run, Parse.arguments, enter_scan, bind_of_ok (check_hold _ _),
    if_neg (mt eq_of_beq hHead)]
  exact hInner line log f (by rw [Nonterminal.cost]; omega)

/-- An argument is the last if no comma follows. -/
theorem lastArgument {e : Expr} (hFollows : Nonterminal.Follows .moreArguments rest)
    (hArg : Runs .expr input e rest) : Runs .moreArguments input [e] rest := by
  refine of_succ (Nat.succ_ne_zero _) fun line log f hf => ?_
  rw [Nonterminal.cost] at hf
  have hRun := hArg line log f (by rw [Nonterminal.cost]; omega)
  rw [Nonterminal.run] at hRun
  rw [Nonterminal.run, Parse.moreArguments, enter_scan, bind_of_ok hRun,
    bind_of_ok (accept_hold_of_ne hFollows)]
  rfl

/-- With a comma behind it, an argument is followed by more. -/
theorem argument {e : Expr} {es : List Expr} (hLength : mid.length + 2 ≤ input.length)
    (hArg : Runs .expr input e (⟨.separator .comma, l⟩ :: mid))
    (hMore : Runs .moreArguments mid es rest) : Runs .moreArguments input (e :: es) rest := by
  refine of_succ (Nat.succ_ne_zero _) fun line log f hf => ?_
  rw [Nonterminal.cost] at hf
  have hRun := hArg line log f (by rw [Nonterminal.cost]; omega)
  have hRun' := hMore line log f (by rw [Nonterminal.cost]; omega)
  rw [Nonterminal.run] at hRun
  rw [Nonterminal.run] at hRun'
  rw [Nonterminal.run, Parse.moreArguments, enter_scan, bind_of_ok hRun,
    bind_of_ok (accept_hold rfl), if_pos rfl, bind_of_ok hRun']
  rfl

/-- A name without an assignment sign behind it is no target. -/
theorem noTarget (hFollows : Nonterminal.Follows .target rest) : Runs .target rest none rest := by
  intro line log f _
  obtain ⟨⟨kind, l⟩, hPeek, hKind⟩ := @peek_hold line log rest
  rw [Nonterminal.run, bind_of_ok hPeek]
  cases kind with
  | identifier x =>
    obtain ⟨l', after, rfl⟩ := eq_cons_of_headKind hKind.symm nofun
    obtain ⟨second, hPeek', hKind'⟩ := @peek_one_hold line log after ⟨.identifier x, l'⟩ rfl
    -- the token behind the name is no assignment sign
    have hSecond : second.kind ≠ .assign := by
      intro hAssign
      obtain ⟨l'', after', rfl⟩ := eq_cons_of_headKind (hKind'.symm.trans hAssign) nofun
      exact hFollows x l' l'' after' rfl
    refine (bind_of_ok hPeek').trans ?_
    rw [if_neg (mt eq_of_beq hSecond)]
    rfl
  | _ => rfl

/-- A name and an assignment sign are a target. -/
theorem target {x : String} :
    Runs .target (⟨.identifier x, l⟩ :: ⟨.assign, l₁⟩ :: rest) (some x) rest := by
  intro line log f _
  rw [Nonterminal.run, bind_of_ok (peek_hold_cons rfl)]
  obtain ⟨second, hPeek, hKind⟩ := @peek_one_hold line log (⟨.assign, l₁⟩ :: rest)
    ⟨.identifier x, l⟩ rfl
  refine (bind_of_ok hPeek).trans ?_
  rw [hKind, if_pos (by rfl), bind_of_ok (next_hold rfl), bind_of_ok (next_hold rfl)]
  rfl

/-- Where the expression ends there is no further operation. -/
theorem noOperation (hFollows : Nonterminal.Follows .operations rest) :
    Runs .operations rest [] rest := by
  refine of_succ (Nat.succ_ne_zero _) fun line log f _ => ?_
  obtain ⟨⟨kind, l⟩, hPeek, hKind⟩ := @peek_hold line log rest
  rw [Nonterminal.Follows, ← hKind] at hFollows
  rw [Nonterminal.run, Parse.operations, enter_scan, bind_of_ok hPeek]
  cases kind with
  | operator op => cases hFollows
  | assign => cases hFollows
  | _ => rfl

/-- An operator is followed by an operand and by further operations. -/
theorem operation {op : Operator} {a : Operand} {ops : List (Operator × Operand)}
    (hLength : mid.length + 1 ≤ input.length) (hOperand : Runs .factor input a mid)
    (hMore : Runs .operations mid ops rest) :
    Runs .operations (⟨.operator op, l⟩ :: input) ((op, a) :: ops) rest := by
  refine of_succ (Nat.succ_ne_zero _) fun line log f hf => ?_
  rw [Nonterminal.cost, List.length_cons] at hf
  have hRun := hOperand line log f (by rw [Nonterminal.cost]; omega)
  have hRun' := hMore line log f (by rw [Nonterminal.cost]; omega)
  rw [Nonterminal.run] at hRun
  rw [Nonterminal.run] at hRun'
  rw [Nonterminal.run, Parse.operations, enter_scan, bind_of_ok (peek_hold_cons rfl)]
  refine (bind_of_ok (next_hold rfl)).trans ?_
  rw [bind_of_ok hRun, bind_of_ok hRun']
  rfl

/-- A semicolon that ends an expression is taken. -/
theorem semicolon : Runs .ending (⟨.separator .semicolon, l⟩ :: rest) () rest := by
  intro line log f _
  rw [Nonterminal.run, Parse.expressionEnd, bind_of_ok (accept_hold rfl)]
  rfl

/-- What ends an expression from behind is left in place. -/
theorem lookahead {token : Token} (hCloses : closesExpr token.kind = true) :
    Runs .ending (token :: rest) () (token :: rest) := by
  intro line log f _
  obtain ⟨kind, l⟩ := token
  rw [Nonterminal.run, Parse.expressionEnd]
  -- the three tokens are left in place in the same way
  rcases closesExpr_iff.mp hCloses with h | h | h
  all_goals
    cases h
    rw [bind_of_ok (accept_hold_of_ne (by simp [headKind])), if_neg (by simp),
      bind_of_ok (peek_hold_cons rfl)]
    rfl

/-- An expression runs like its four parts, one after the other. -/
theorem expr {start : Token} {goal : Option String} {first : Operand}
    {ops : List (Operator × Operand)} {mid₁ mid₂ mid₃ : List Token}
    (hStart : startsOperand start.kind = true) (hLength₁ : mid₁.length ≤ input.length + 1)
    (hLength₂ : mid₂.length + 1 ≤ mid₁.length)
    (hTarget : Runs .target (start :: input) goal mid₁) (hFirst : Runs .factor mid₁ first mid₂)
    (hMore : Runs .operations mid₂ ops mid₃) (hEnding : Runs .ending mid₃ () rest) :
    Runs .expr (start :: input) ⟨goal, first, ops, start.line⟩ rest := by
  refine of_succ (Nat.succ_ne_zero _) fun line log f hf => ?_
  rw [Nonterminal.cost, List.length_cons] at hf
  -- the target takes nothing or a name and a sign, so the first operand has as much fuel as it
  -- needs
  have hEof := isEof_of_startsOperand hStart
  have hRun₁ := hTarget line log (4 * (input.length + 1)) (by simp [Nonterminal.cost])
  have hRun₂ := hFirst line log f (by rw [Nonterminal.cost]; omega)
  have hRun₃ := hMore line log f (by rw [Nonterminal.cost]; omega)
  have hRun₄ := hEnding line log (4 * mid₃.length) (by simp [Nonterminal.cost])
  rw [Nonterminal.run, bind_of_ok (peek_hold_cons hEof)] at hRun₁
  rw [Nonterminal.run] at hRun₂
  rw [Nonterminal.run] at hRun₃
  rw [Nonterminal.run] at hRun₄
  rw [Nonterminal.run, Parse.expression, enter_scan, bind_of_ok (peek_hold_cons hEof),
    bind_of_ok hRun₁, bind_of_ok hRun₂, bind_of_ok hRun₃, bind_of_ok hRun₄]
  rfl

-- ---------------------------------------------------------------------------
-- Statements
-- ---------------------------------------------------------------------------

/-- A parameter name is the last if no comma follows. -/
theorem lastName {x : String} (hFollows : Nonterminal.Follows .names rest) :
    Runs .names (⟨.identifier x, l⟩ :: rest) [x] rest := by
  refine of_succ (Nat.succ_ne_zero _) fun line log f _ => ?_
  rw [Nonterminal.run, Parse.moreParameters, enter_scan, bind_of_ok requireName_hold,
    bind_of_ok (accept_hold_of_ne hFollows)]
  rfl

/-- With a comma behind it, a parameter name is followed by more. -/
theorem param {x : String} {xs : List String} (hMore : Runs .names input xs rest) :
    Runs .names (⟨.identifier x, l⟩ :: ⟨.separator .comma, l₁⟩ :: input) (x :: xs) rest := by
  refine of_succ (Nat.succ_ne_zero _) fun line log f hf => ?_
  simp only [Nonterminal.cost, List.length_cons] at hf
  have hRun := hMore line log f (by rw [Nonterminal.cost]; omega)
  rw [Nonterminal.run] at hRun
  rw [Nonterminal.run, Parse.moreParameters, enter_scan, bind_of_ok requireName_hold,
    bind_of_ok (accept_hold rfl), if_pos rfl, bind_of_ok hRun]
  rfl

/-- Parentheses may have no parameters between them. -/
theorem noParameters :
    Runs .parameters (⟨.separator .openParen, l⟩ :: ⟨.separator .closeParen, l₁⟩ :: rest) []
      rest := by
  intro line log f _
  rw [Nonterminal.run, Parse.parameters, bind_of_ok (require_hold rfl),
    bind_of_ok (check_hold _ _)]
  refine (bind_of_ok rfl).trans ?_
  exact bind_of_ok (require_hold rfl)

/-- Parameters run like the names between their parentheses. -/
theorem parameters {xs : List String} (hStart : ∃ x, headKind input = .identifier x)
    (hInner : Runs .names input xs (⟨.separator .closeParen, l₁⟩ :: rest)) :
    Runs .parameters (⟨.separator .openParen, l⟩ :: input) xs rest := by
  intro line log f hf
  rw [Nonterminal.cost, List.length_cons] at hf
  have hRun := hInner line log f (by rw [Nonterminal.cost]; omega)
  rw [Nonterminal.run] at hRun
  obtain ⟨x, hx⟩ := hStart
  rw [Nonterminal.run, Parse.parameters, bind_of_ok (require_hold rfl),
    bind_of_ok (check_hold _ _), hx, if_neg (by simp), bind_of_ok hRun]
  exact bind_of_ok (require_hold rfl)

/-- In front of `end` there is no second block. -/
theorem noElse (hFollows : Nonterminal.Follows .alternative rest) :
    Runs .alternative rest none rest := by
  refine of_succ (Nat.succ_ne_zero _) fun line log f _ => ?_
  rw [Nonterminal.Follows] at hFollows
  rw [Nonterminal.run, Parse.elseBlock, enter_scan,
    bind_of_ok (accept_hold_of_ne (by rw [hFollows]; simp))]
  rfl

/-- A second block starts with `else`. -/
theorem otherwise {items : List Stmt} (hBody : Runs (.block false) input items rest) :
    Runs .alternative (⟨.keyword .elseWord, l⟩ :: input) (some items) rest := by
  refine of_succ (Nat.succ_ne_zero _) fun line log f hf => ?_
  rw [Nonterminal.cost, List.length_cons] at hf
  have hRun := hBody line log f (by rw [Nonterminal.cost]; omega)
  rw [Nonterminal.run] at hRun
  rw [Nonterminal.run, Parse.elseBlock, enter_scan, bind_of_ok (accept_hold rfl), if_pos rfl,
    bind_of_ok hRun]
  rfl

/-- A loop runs like its condition and its body, in their places. -/
theorem loop {outermost : Bool} {c : Expr} {items : List Stmt}
    (hLength : mid.length + 2 ≤ input.length)
    (hCondition : Runs .expr input c (⟨.keyword .doWord, l₁⟩ :: mid))
    (hBody : Runs (.block false) mid items
      (⟨.keyword .endWord, l₂⟩ :: ⟨.separator .semicolon, l₃⟩ :: rest)) :
    Runs (.statement outermost) (⟨.keyword .whileWord, l⟩ :: input) (.loop c items l) rest := by
  refine of_succ (Nat.succ_ne_zero _) fun line log f hf => ?_
  rw [Nonterminal.cost, List.length_cons] at hf
  have hRun₁ := hCondition line log f (by rw [Nonterminal.cost]; omega)
  have hRun₂ := hBody line log f (by rw [Nonterminal.cost]; omega)
  rw [Nonterminal.run] at hRun₁
  rw [Nonterminal.run] at hRun₂
  rw [Nonterminal.run, bind_of_ok (peek_hold_cons rfl), Parse.statement, enter_scan]
  refine (bind_of_ok (next_hold rfl)).trans ?_
  rw [bind_of_ok hRun₁, bind_of_ok (require_hold rfl), bind_of_ok hRun₂, bind_of_ok blockEnd_hold]
  rfl

/-- A branch runs like its condition and its blocks, in their places. -/
theorem branch {outermost : Bool} {c : Expr} {items : List Stmt} {other : Option (List Stmt)}
    {mid₁ mid₂ : List Token} (hLength₁ : mid₁.length + 2 ≤ input.length)
    (hLength₂ : mid₂.length ≤ mid₁.length)
    (hCondition : Runs .expr input c (⟨.keyword .doWord, l₁⟩ :: mid₁))
    (hBody : Runs (.block false) mid₁ items mid₂)
    (hOther : Runs .alternative mid₂ other
      (⟨.keyword .endWord, l₂⟩ :: ⟨.separator .semicolon, l₃⟩ :: rest)) :
    Runs (.statement outermost) (⟨.keyword .ifWord, l⟩ :: input) (.branch c items other l)
      rest := by
  refine of_succ (Nat.succ_ne_zero _) fun line log f hf => ?_
  rw [Nonterminal.cost, List.length_cons] at hf
  have hRun₁ := hCondition line log f (by rw [Nonterminal.cost]; omega)
  have hRun₂ := hBody line log f (by rw [Nonterminal.cost]; omega)
  have hRun₃ := hOther line log f (by rw [Nonterminal.cost]; omega)
  rw [Nonterminal.run] at hRun₁
  rw [Nonterminal.run] at hRun₂
  rw [Nonterminal.run] at hRun₃
  rw [Nonterminal.run, bind_of_ok (peek_hold_cons rfl), Parse.statement, enter_scan]
  refine (bind_of_ok (next_hold rfl)).trans ?_
  rw [bind_of_ok hRun₁, bind_of_ok (require_hold rfl), bind_of_ok hRun₂, bind_of_ok hRun₃,
    bind_of_ok blockEnd_hold]
  rfl

/-- A `return` runs like its expression. -/
theorem ret {outermost : Bool} {e : Expr} (hResult : Runs .expr input e rest) :
    Runs (.statement outermost) (⟨.keyword .returnWord, l⟩ :: input) (.ret e l) rest := by
  refine of_succ (Nat.succ_ne_zero _) fun line log f hf => ?_
  rw [Nonterminal.cost, List.length_cons] at hf
  have hRun := hResult line log f (by rw [Nonterminal.cost]; omega)
  rw [Nonterminal.run] at hRun
  rw [Nonterminal.run, bind_of_ok (peek_hold_cons rfl), Parse.statement, enter_scan]
  refine (bind_of_ok (next_hold rfl)).trans ?_
  rw [bind_of_ok hRun]
  rfl

/-- A definition of the outermost block runs like its parameters and its body,
in their places. -/
theorem define {x : String} {xs : List String} {items : List Stmt}
    (hLength : mid.length + 2 ≤ input.length)
    (hParams : Runs .parameters input xs (⟨.keyword .doWord, l₂⟩ :: mid))
    (hBody : Runs (.block false) mid items
      (⟨.keyword .endWord, l₃⟩ :: ⟨.separator .semicolon, l₄⟩ :: rest)) :
    Runs (.statement true) (⟨.keyword .defWord, l⟩ :: ⟨.identifier x, l₁⟩ :: input)
      (.define x xs items l) rest := by
  refine of_succ (Nat.succ_ne_zero _) fun line log f hf => ?_
  simp only [Nonterminal.cost, List.length_cons] at hf
  have hRun₁ := hParams line log f (by rw [Nonterminal.cost]; omega)
  have hRun₂ := hBody line log f (by rw [Nonterminal.cost]; omega)
  rw [Nonterminal.run] at hRun₁
  rw [Nonterminal.run] at hRun₂
  rw [Nonterminal.run, bind_of_ok (peek_hold_cons rfl), Parse.statement, enter_scan]
  refine (bind_of_ok (next_hold rfl)).trans ?_
  rw [bind_of_ok requireName_hold, bind_of_ok hRun₁, bind_of_ok (require_hold rfl),
    bind_of_ok hRun₂, bind_of_ok blockEnd_hold]
  rfl

/-- A statement that starts with an operand runs like an expression. -/
theorem plain {outermost : Bool} {e : Expr} (hStart : startsOperand (headKind input) = true)
    (hValue : Runs .expr input e rest) : Runs (.statement outermost) input (.expr e) rest := by
  refine of_succ (Nat.succ_ne_zero _) fun line log f hf => ?_
  rw [Nonterminal.cost] at hf
  have hRun := hValue line log f (by rw [Nonterminal.cost]; omega)
  rw [Nonterminal.run] at hRun
  obtain ⟨⟨kind, l⟩, hPeek, hKind⟩ := @peek_hold line log input
  rw [← hKind] at hStart
  rw [Nonterminal.run, bind_of_ok hPeek, Parse.statement, enter_scan]
  -- no keyword starts an operand
  cases kind with
  | keyword word => cases hStart
  | _ => exact bind_of_ok hRun

/-- A block is over where one of its closers follows. -/
theorem blockEnd {outermost : Bool} (hFollows : Nonterminal.Follows (.block outermost) rest) :
    Runs (.block outermost) rest [] rest := by
  refine of_succ (Nat.succ_ne_zero _) fun line log f _ => ?_
  obtain ⟨token, hPeek, hKind⟩ := @peek_hold line log rest
  rw [Nonterminal.Follows, ← hKind] at hFollows
  rw [Nonterminal.run, Parse.block, enter_scan, bind_of_ok hPeek, if_pos hFollows]
  rfl

/-- A block with a statement at its start runs like the statement and the rest. -/
theorem item {outermost : Bool} {s : Stmt} {items : List Stmt}
    (hStart : Parse.endsBlock (headKind input) = false) (hLength : mid.length + 1 ≤ input.length)
    (hFirst : Runs (.statement outermost) input s mid)
    (hMore : Runs (.block outermost) mid items rest) :
    Runs (.block outermost) input (s :: items) rest := by
  refine of_succ (Nat.succ_ne_zero _) fun line log f hf => ?_
  rw [Nonterminal.cost] at hf
  have hRun₁ := hFirst line log f (by rw [Nonterminal.cost]; omega)
  have hRun₂ := hMore line log f (by rw [Nonterminal.cost]; omega)
  obtain ⟨start, hPeek, hKind⟩ := @peek_hold line log input
  rw [Nonterminal.run, bind_of_ok hPeek] at hRun₁
  rw [Nonterminal.run] at hRun₂
  rw [Nonterminal.run, Parse.block, enter_scan, bind_of_ok hPeek, hKind, hStart, if_neg (by simp),
    bind_of_ok hRun₁, bind_of_ok hRun₂]
  rfl

/-- A program runs like a block in front of the end of the input. -/
theorem program {items : List Stmt} (hBody : Runs (.block true) input items [⟨.eof, l⟩]) :
    Runs .program input items [] := by
  intro line log f hf
  have hRun := hBody line log f hf
  rw [Nonterminal.run] at hRun
  rw [Nonterminal.run, Parse.program, bind_of_ok hRun]
  rfl

end Runs

-- ---------------------------------------------------------------------------
-- Main results
-- ---------------------------------------------------------------------------

/-- **Every phrase of a program is parsed to its tree.** -/
theorem run_of_derivation {n : Nonterminal} {input rest : List Token} {tree : n.Tree}
    (d : Derivation n input tree rest) (hFollows : n.Follows rest) : Runs n input tree rest := by
  -- the derivation has made its choices, and what follows each phrase leaves the parser no
  -- other
  induction d with
  | name => exact .name hFollows
  | number => exact .number
  | text => exact .text
  | group inner ih => exact .group (ih trivial)
  | call inner ih => exact .call (ih rfl)
  | noArgument => exact .noArgument hFollows
  | someArguments inner ih =>
    rw [Nonterminal.Follows] at hFollows
    refine .someArguments inner.head_moreArguments (ih ?_)
    rw [Nonterminal.Follows, hFollows]
    simp
  | lastArgument arg ih => exact .lastArgument hFollows (ih trivial)
  | argument arg more ihArg ihMore =>
    exact .argument arg.length_rest (ihArg trivial) (ihMore hFollows)
  | noTarget => exact .noTarget hFollows
  | target => exact .target
  | noOperation => exact .noOperation hFollows
  | operation operand more ihOperand ihMore =>
    have hHead := more.head_operations hFollows
    exact .operation operand.length_rest (ihOperand hHead.1) (ihMore hFollows)
  | semicolon => exact .semicolon
  | lookahead closes => exact .lookahead closes
  | expr goal operand more ending ihGoal ihOperand ihMore ihEnding =>
    have hHead := more.head_operations ending.head_ending
    have hTarget := operand.follows_target hHead.2
    have hStart := (Derivation.expr goal operand more ending).head_expr
    exact .expr hStart goal.length_rest operand.length_rest (ihGoal hTarget) (ihOperand hHead.1)
      (ihMore ending.head_ending) (ihEnding trivial)
  | lastName => exact .lastName hFollows
  | param more ih => exact .param (ih hFollows)
  | noParameters => exact .noParameters
  | parameters inner ih => exact .parameters inner.head_names (ih nofun)
  | noElse => exact .noElse hFollows
  | otherwise body ih =>
    rw [Nonterminal.Follows] at hFollows
    refine .otherwise (ih ?_)
    rw [Nonterminal.Follows, hFollows]
    rfl
  | loop condition body ihCondition ihBody =>
    exact .loop condition.length_rest (ihCondition trivial) (ihBody rfl)
  | branch condition body alternative ihCondition ihBody ihAlternative =>
    have hHead := alternative.head_alternative rfl
    exact .branch condition.length_rest body.length_rest (ihCondition trivial) (ihBody hHead)
      (ihAlternative rfl)
  | ret result ih => exact .ret (ih trivial)
  | define params body ihParams ihBody =>
    exact .define params.length_rest (ihParams trivial) (ihBody rfl)
  | plain value ih => exact .plain value.head_expr (ih trivial)
  | blockEnd => exact .blockEnd hFollows
  | item first more ihFirst ihMore =>
    exact .item first.head_statement first.length_rest (ihFirst trivial) (ihMore hFollows)
  | program body ih => exact .program (ih rfl)

/-- With the end of the input behind them, the tokens make up the scanner of a
whole input. -/
theorem Scanner.hold_ofTokens {tokens : List Token} (line : Nat)
    (h : ∀ token ∈ tokens, token.isEof = false) :
    hold line .empty (tokens ++ [⟨.eof, line⟩]) = ofTokens tokens line := by
  have hAll : ∀ token ∈ tokens, (!token.isEof) = true := by
    intro token hToken
    rw [h token hToken]
    rfl
  rw [hold, List.takeWhile_append_of_pos hAll]
  show Scanner.mk (tokens ++ []) [] line .empty = _
  rw [List.append_nil]
  rfl

/-- What derives from the grammar is parsed to its tree. -/
theorem outcome_of_derivation {tokens : List Token} {line : Nat} {ast : Program}
    (h : ∀ token ∈ tokens, token.isEof = false)
    (d : Derivation .program (tokens ++ [⟨.eof, line⟩]) ast []) :
    outcome (Scanner.ofTokens tokens line).parse = .ok ast := by
  have hRun := run_of_derivation d trivial line .empty (4 * tokens.length + 8)
  rw [List.length_append, Nonterminal.cost, Nonterminal.run, Scanner.hold_ofTokens line h] at hRun
  exact congrArg outcome (hRun (by simp only [List.length_singleton]; omega))

/-- **The parser recognizes the grammar.** A list of tokens in front of the
end of the input parses to a tree exactly if it has a derivation with that
tree, and it has no two derivations. -/
theorem parse_iff_derivation {tokens : List Token} (line : Nat)
    (h : ∀ token ∈ tokens, token.isEof = false) :
    (∀ ast, outcome (Scanner.ofTokens tokens line).parse = .ok ast ↔
      Nonempty (Derivation .program (tokens ++ [⟨.eof, line⟩]) ast [])) ∧
    Subsingleton (Σ ast, Derivation .program (tokens ++ [⟨.eof, line⟩]) ast []) := by
  refine ⟨fun ast => ⟨?_, ?_⟩, ⟨?_⟩⟩
  -- a parse that ends gives a derivation, of the same tokens with the end behind them
  · intro hParse
    have hStream := Scanner.stream_ofTokens tokens line
    rcases agree_parse rfl (by rw [hStream]; exact h) with
      ⟨ast', _, hParse', _, _, ⟨d⟩⟩ | ⟨stop, hStop, _, _⟩
    · rw [hParse] at hParse'
      cases hParse'
      rw [hStream] at d
      exact ⟨.program (d.append [⟨.eof, line⟩] nofun)⟩
    · rw [hParse] at hStop
      cases hStop
  · rintro ⟨d⟩
    exact outcome_of_derivation h d
  -- two derivations have one tree, since it is the outcome of one parse
  · rintro ⟨ast, d⟩ ⟨ast', d'⟩
    have hAst : ast = ast' := by
      have hParse := outcome_of_derivation h d
      rw [outcome_of_derivation h d'] at hParse
      exact (Except.ok.inj hParse).symm
    subst hAst
    rw [eq_of_heq (d.heq_of_tree d').2]

/-- In `x = f(2, 3);` the comma and the closing parenthesis end the arguments
and are taken by the call. -/
theorem parse_assigned_call :
    outcome (Scanner.ofTokens
      [⟨.identifier "x", 1⟩, ⟨.assign, 1⟩, ⟨.identifier "f", 1⟩, ⟨.separator .openParen, 1⟩,
        ⟨.number 2, 2⟩, ⟨.separator .comma, 2⟩, ⟨.number 3, 2⟩, ⟨.separator .closeParen, 2⟩,
        ⟨.separator .semicolon, 2⟩] 2).parse =
      .ok [.expr ⟨some "x", .call "f" [⟨none, .number 2, [], 2⟩, ⟨none, .number 3, [], 2⟩] 1,
        [], 1⟩] := by
  refine ((parse_iff_derivation 2 (by decide)).1 _).mpr ⟨?_⟩
  exact .program (.item (.plain (.expr .target
    (.call (.someArguments (.argument (.expr .noTarget .number .noOperation (.lookahead rfl))
      (.lastArgument (.expr .noTarget .number .noOperation (.lookahead rfl))))))
    .noOperation .semicolon)) .blockEnd)

end Scriptlet
