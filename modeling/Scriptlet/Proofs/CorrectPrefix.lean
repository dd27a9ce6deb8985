import Mathlib
import Scriptlet.Proofs.Recognition
import Scriptlet.Proofs.Verdict

/-!
# Scriptlet — the first impossible token

A parse that fails does so at the first token that cannot stand where it stands.
The tokens before it are the start of some program: whatever is open there, an
operand, a group, a call, a condition, a block, a definition, can be closed with
a few more tokens.

* `Completes` — some tokens can be completed to a phrase;
* `exprRules`, `statementRules` — wherever a rule of the parser fails, what it
  has taken can be completed, and no token behind the one in front was seen;
* `parse_fails_at_first_impossible_token` — for whole programs.
-/

namespace Scriptlet

-- ---------------------------------------------------------------------------
-- Phrases and their completions
-- ---------------------------------------------------------------------------

/-- The tokens of `input` in front of `rest` derive from the nonterminal. -/
def Phrase (n : Nonterminal) (input rest : List Token) : Prop :=
  ∃ tree, Nonempty (Derivation n input tree rest)

/-- The kinds of tokens with which programs are completed. -/
def fillers : List TokenKind :=
  [.identifier "x", .separator .openParen, .separator .closeParen, .separator .semicolon,
    .keyword .doWord, .keyword .endWord]

/-- Tokens of the given kinds, all on one line. -/
def onLine (line : Nat) (kinds : List TokenKind) : List Token :=
  kinds.map (⟨·, line⟩)

/-- With some more tokens, the given ones become something that `Q` takes,
whatever follows. -/
def Completes (line : Nat) (tokens : List Token) (Q : List Token → List Token → Prop) : Prop :=
  ∃ closers : List TokenKind, closers ⊆ fillers ∧
    ∀ rest, Q (tokens ++ (onLine line closers ++ rest)) rest

/-- The tokens are all that `Q` takes if the given token follows, and they can
be completed in any case. -/
structure Complete (line : Nat) (Q : List Token → List Token → Prop) (taken : List Token)
    (next : Option Token) : Prop where
  here : ∀ rest, rest.head? = next → Q (taken ++ rest) rest
  closed : Completes line taken Q

/-- The tokens are a phrase, whatever follows. -/
def Whole (n : Nonterminal) (taken : List Token) : Prop :=
  ∀ rest, Phrase n (taken ++ rest) rest

section Completions

variable {line : Nat} {n : Nonterminal} {tokens taken more : List Token}
  {next next' : Option Token} {Q Q₁ Q₂ : List Token → List Token → Prop}

/-- Closers after closers are closers. -/
theorem onLine_append (closers closers' : List TokenKind) (rest : List Token) :
    onLine line (closers ++ closers') ++ rest =
      onLine line closers ++ (onLine line closers' ++ rest) := by
  rw [onLine, List.map_append, List.append_assoc]
  rfl

/-- What is missing altogether is completed by writing it down. -/
theorem completes_with (closers : List TokenKind) (hClosers : closers ⊆ fillers)
    (h : ∀ rest, Q (onLine line closers ++ rest) rest) : Completes line [] Q :=
  ⟨closers, hClosers, h⟩

/-- Something around a phrase is completed by completing the phrase and closing
what is around it. -/
theorem Completes.map (h : Completes line tokens Q₁) (before : List Token)
    (after : List TokenKind) (hAfter : after ⊆ fillers)
    (hQ : ∀ input rest, Q₁ input (onLine line after ++ rest) → Q (before ++ input) rest) :
    Completes line (before ++ tokens) Q := by
  obtain ⟨closers, hClosers, hAll⟩ := h
  refine ⟨closers ++ after, List.append_subset.mpr ⟨hClosers, hAfter⟩, fun rest => ?_⟩
  rw [List.append_assoc, onLine_append]
  exact hQ _ rest (hAll (onLine line after ++ rest))

/-- Where the phrase is complete, so is what has some tokens in front of it. -/
theorem Complete.map (h : Complete line Q₁ taken next) (before : List Token)
    (hQ : ∀ input rest, Q₁ input rest → Q (before ++ input) rest) :
    Complete line Q (before ++ taken) next where
  here := by
    intro rest hRest
    rw [List.append_assoc]
    exact hQ _ rest (h.here rest hRest)
  closed := h.closed.map before [] (List.nil_subset _) hQ

/-- Something in front of what can be completed. If nothing of that is there
yet, the first part is completed first. -/
theorem Complete.append (h : Complete line Q₁ taken next) (hStarts : Starts next more)
    (hMore : Completes line more Q₂)
    (hQ : ∀ input mid rest, Q₁ input mid → Q₂ mid rest → Q input rest) :
    Completes line (taken ++ more) Q := by
  obtain ⟨closers, hClosers, hAll⟩ := hMore
  -- without any token of the second part nothing tells whether the first part ends here, so it
  -- is closed too
  cases more with
  | nil =>
    obtain ⟨closers', hClosers', hAll'⟩ := h.closed
    refine ⟨closers' ++ closers, List.append_subset.mpr ⟨hClosers', hClosers⟩, fun rest => ?_⟩
    rw [List.append_nil, onLine_append]
    exact hQ _ _ rest (hAll' (onLine line closers ++ rest)) (hAll rest)
  -- the next token is there, and it is the one the first part was told to expect
  | cons token more =>
    refine ⟨closers, hClosers, fun rest => ?_⟩
    have hHead : ((token :: more) ++ (onLine line closers ++ rest)).head? = next := by
      rcases hStarts with hNil | hHead
      · cases hNil
      · exact hHead
    rw [List.append_assoc]
    exact hQ _ _ rest (h.here _ hHead) (hAll rest)

/-- Two complete parts make up a complete whole. -/
theorem Complete.seq (h : Complete line Q₁ taken next) (hLeads : Leads next more next')
    (hMore : Complete line Q₂ more next')
    (hQ : ∀ input mid rest, Q₁ input mid → Q₂ mid rest → Q input rest) :
    Complete line Q (taken ++ more) next' where
  here := by
    intro rest hRest
    rw [List.append_assoc]
    exact hQ _ _ rest (h.here _ (hLeads rest hRest)) (hMore.here rest hRest)
  closed := h.append hLeads.starts hMore.closed hQ

/-- What is a phrase whatever follows needs no closers. -/
theorem Whole.complete (h : Whole n taken) : Complete line (Phrase n) taken next :=
  ⟨fun rest _ => h rest, [], List.nil_subset _, h⟩

end Completions

namespace Phrase

variable {input mid mid₁ mid₂ mid₃ rest : List Token} {outermost : Bool} {l l' l₁ l₂ l₃ : Nat}
  {x : String}

/-- A name is an operand. -/
theorem name : Phrase .factor (⟨.identifier x, l⟩ :: rest) rest := ⟨_, ⟨.name⟩⟩

/-- An expression in parentheses is an operand. -/
theorem group (h : Phrase .expr input (⟨.separator .closeParen, l'⟩ :: rest)) :
    Phrase .factor (⟨.separator .openParen, l⟩ :: input) rest := by
  obtain ⟨_, ⟨d⟩⟩ := h
  exact ⟨_, ⟨.group d⟩⟩

/-- A call is a name with its arguments in parentheses. -/
theorem call (h : Phrase .arguments input (⟨.separator .closeParen, l₂⟩ :: rest)) :
    Phrase .factor (⟨.identifier x, l⟩ :: ⟨.separator .openParen, l₁⟩ :: input) rest := by
  obtain ⟨_, ⟨d⟩⟩ := h
  exact ⟨_, ⟨.call d⟩⟩

/-- A list of arguments may have members. -/
theorem someArguments (h : Phrase .moreArguments input rest) : Phrase .arguments input rest := by
  obtain ⟨_, ⟨d⟩⟩ := h
  exact ⟨_, ⟨.someArguments d⟩⟩

/-- An argument may be the last one. -/
theorem lastArgument (h : Phrase .expr input rest) : Phrase .moreArguments input rest := by
  obtain ⟨_, ⟨d⟩⟩ := h
  exact ⟨_, ⟨.lastArgument d⟩⟩

/-- An argument may be followed by a comma and more of them. -/
theorem argument (h : Phrase .expr input (⟨.separator .comma, l⟩ :: mid))
    (hMore : Phrase .moreArguments mid rest) : Phrase .moreArguments input rest := by
  obtain ⟨_, ⟨d⟩⟩ := h
  obtain ⟨_, ⟨ds⟩⟩ := hMore
  exact ⟨_, ⟨.argument d ds⟩⟩

/-- No operation has to follow an operand. -/
theorem noOperation : Phrase .operations rest rest := ⟨_, ⟨.noOperation⟩⟩

/-- An operator and its operand come before further operations. -/
theorem operation {op : Operator} (h : Phrase .factor input mid)
    (hMore : Phrase .operations mid rest) :
    Phrase .operations (⟨.operator op, l⟩ :: input) rest := by
  obtain ⟨_, ⟨d⟩⟩ := h
  obtain ⟨_, ⟨ds⟩⟩ := hMore
  exact ⟨_, ⟨.operation d ds⟩⟩

/-- A semicolon ends an expression and belongs to it. -/
theorem semicolon : Phrase .ending (⟨.separator .semicolon, l⟩ :: rest) rest :=
  ⟨_, ⟨.semicolon⟩⟩

/-- There is no operand without a token. -/
theorem not_factor_nil : ¬ Phrase .factor [] rest := by
  rintro ⟨_, ⟨d⟩⟩
  cases d

/-- An expression is a target, an operand, operations and an end, of which only
the operand has to be there. -/
theorem expr (hTarget : Phrase .target input mid₁) (hFirst : Phrase .factor mid₁ mid₂)
    (hMore : Phrase .operations mid₂ mid₃) (hEnding : Phrase .ending mid₃ rest) :
    Phrase .expr input rest := by
  -- the first token has the line of the expression, so there has to be one
  cases input with
  | nil =>
    obtain ⟨_, ⟨d⟩⟩ := hTarget
    cases d
    exact absurd hFirst not_factor_nil
  | cons start input =>
    obtain ⟨_, ⟨d₁⟩⟩ := hTarget
    obtain ⟨_, ⟨d₂⟩⟩ := hFirst
    obtain ⟨_, ⟨d₃⟩⟩ := hMore
    obtain ⟨⟨⟩, ⟨d₄⟩⟩ := hEnding
    exact ⟨_, ⟨.expr d₁ d₂ d₃ d₄⟩⟩

/-- A parameter name may be the last one. -/
theorem lastName : Phrase .names (⟨.identifier x, l⟩ :: rest) rest := ⟨_, ⟨.lastName⟩⟩

/-- A parameter name may be followed by a comma and more of them. -/
theorem param (h : Phrase .names input rest) :
    Phrase .names (⟨.identifier x, l⟩ :: ⟨.separator .comma, l'⟩ :: input) rest := by
  obtain ⟨_, ⟨d⟩⟩ := h
  exact ⟨_, ⟨.param d⟩⟩

theorem noParameters : Phrase .parameters
    (⟨.separator .openParen, l⟩ :: ⟨.separator .closeParen, l'⟩ :: rest) rest :=
  ⟨_, ⟨.noParameters⟩⟩

/-- Parameter names stand in parentheses. -/
theorem parameters (h : Phrase .names input (⟨.separator .closeParen, l'⟩ :: rest)) :
    Phrase .parameters (⟨.separator .openParen, l⟩ :: input) rest := by
  obtain ⟨_, ⟨d⟩⟩ := h
  exact ⟨_, ⟨.parameters d⟩⟩

theorem noElse : Phrase .alternative rest rest := ⟨_, ⟨.noElse⟩⟩

/-- An `else` is followed by a block. -/
theorem otherwise (h : Phrase (.block false) input rest) :
    Phrase .alternative (⟨.keyword .elseWord, l⟩ :: input) rest := by
  obtain ⟨_, ⟨d⟩⟩ := h
  exact ⟨_, ⟨.otherwise d⟩⟩

/-- A loop is closed by `end;`. -/
theorem loop (hCondition : Phrase .expr input (⟨.keyword .doWord, l₁⟩ :: mid))
    (hBody : Phrase (.block false) mid
      (⟨.keyword .endWord, l₂⟩ :: ⟨.separator .semicolon, l₃⟩ :: rest)) :
    Phrase (.statement outermost) (⟨.keyword .whileWord, l⟩ :: input) rest := by
  obtain ⟨_, ⟨d₁⟩⟩ := hCondition
  obtain ⟨_, ⟨d₂⟩⟩ := hBody
  exact ⟨_, ⟨.loop d₁ d₂⟩⟩

/-- A branch is closed by `end;`, with a second block or without. -/
theorem branch (hCondition : Phrase .expr input (⟨.keyword .doWord, l₁⟩ :: mid₁))
    (hBody : Phrase (.block false) mid₁ mid₂)
    (hElse : Phrase .alternative mid₂
      (⟨.keyword .endWord, l₂⟩ :: ⟨.separator .semicolon, l₃⟩ :: rest)) :
    Phrase (.statement outermost) (⟨.keyword .ifWord, l⟩ :: input) rest := by
  obtain ⟨_, ⟨d₁⟩⟩ := hCondition
  obtain ⟨_, ⟨d₂⟩⟩ := hBody
  obtain ⟨_, ⟨d₃⟩⟩ := hElse
  exact ⟨_, ⟨.branch d₁ d₂ d₃⟩⟩

/-- A `return` is followed by an expression. -/
theorem ret (h : Phrase .expr input rest) :
    Phrase (.statement outermost) (⟨.keyword .returnWord, l⟩ :: input) rest := by
  obtain ⟨_, ⟨d⟩⟩ := h
  exact ⟨_, ⟨.ret d⟩⟩

/-- A definition is closed by `end;`. -/
theorem define (hParams : Phrase .parameters input (⟨.keyword .doWord, l₁⟩ :: mid))
    (hBody : Phrase (.block false) mid
      (⟨.keyword .endWord, l₂⟩ :: ⟨.separator .semicolon, l₃⟩ :: rest)) :
    Phrase (.statement true) (⟨.keyword .defWord, l⟩ :: ⟨.identifier x, l'⟩ :: input) rest := by
  obtain ⟨_, ⟨d₁⟩⟩ := hParams
  obtain ⟨_, ⟨d₂⟩⟩ := hBody
  exact ⟨_, ⟨.define d₁ d₂⟩⟩

/-- An expression is a statement. -/
theorem plain (h : Phrase .expr input rest) : Phrase (.statement outermost) input rest := by
  obtain ⟨_, ⟨d⟩⟩ := h
  exact ⟨_, ⟨.plain d⟩⟩

/-- A block may be over. -/
theorem blockEnd : Phrase (.block outermost) rest rest := ⟨_, ⟨.blockEnd⟩⟩

/-- A statement may be followed by more of them. -/
theorem item (h : Phrase (.statement outermost) input mid)
    (hMore : Phrase (.block outermost) mid rest) : Phrase (.block outermost) input rest := by
  obtain ⟨_, ⟨d⟩⟩ := h
  obtain ⟨_, ⟨ds⟩⟩ := hMore
  exact ⟨_, ⟨.item d ds⟩⟩

end Phrase

/-- An operand that has been read has taken a token. -/
theorem Whole.ne_nil {taken : List Token} (h : Whole .factor taken) : taken ≠ [] := by
  rintro rfl
  exact Phrase.not_factor_nil (h [])

-- ---------------------------------------------------------------------------
-- Expressions
-- ---------------------------------------------------------------------------

variable {line fuel : Nat} {start : Option Token}

/-- Wherever the rule ends it has taken a phrase, and wherever it fails it has
taken the start of one. -/
def Rule (line fuel : Nat) (n : Nonterminal) (m : Nat → Scan n.Tree) (start : Option Token) :
    Prop :=
  Decides line fuel start [] m (fun _ taken next => Complete line (Phrase n) taken next)
    (fun taken => Completes line taken (Phrase n))

/-- The rules for expressions. An operand fails at its first token only if no
operand starts with it. -/
structure ExprRules (line fuel : Nat) : Prop where
  factor : ∀ start, Decides line fuel start [] Parse.factor
    (fun _ taken _ => Whole .factor taken)
    (fun taken => Completes line taken (Phrase .factor) ∧
      (taken = [] → startsOperand (front line start).kind = false))
  operations : ∀ start, Decides line fuel start [] Parse.operations
    (fun _ taken _ => Whole .operations taken)
    (fun taken => Completes line taken (Phrase .operations))
  expr : ∀ start, Rule line fuel .expr Parse.expression start
  moreArguments : ∀ start, Rule line fuel .moreArguments Parse.moreArguments start
  arguments : ∀ start, Rule line fuel .arguments Parse.arguments start

namespace ExprRules

/-- A group fails inside of it or at its parenthesis. The closing one completes
it in both cases. -/
theorem group (ih : ExprRules line fuel) (l : Nat) (next : Option Token) :
    Decides line fuel next ([] ++ [⟨.separator .openParen, l⟩])
      (fun g => Parse.expression g >>= fun inner =>
        Parse.require (.separator .closeParen) .groupEnd >>= fun _ => pure (Operand.group inner))
      (fun _ taken _ => Whole .factor taken)
      (fun taken => Completes line taken (Phrase .factor) ∧
        (taken = [] → startsOperand (.separator .openParen) = false)) := by
  refine (ih.expr next).bind ?_ ?_
  · intro taken hTaken _
    -- inside the group: completed there, and then closed
    exact ⟨hTaken.map _ [.separator .closeParen] (by decide) fun _ _ => .group, nofun⟩
  · intro inner taken next hInner _
    refine .require (by simp) ?_ fun l' hNext _ => ?_
    -- behind the expression, which has its end in the closing parenthesis
    · exact ⟨hInner.closed.map _ [.separator .closeParen] (by decide) fun _ _ => .group, nofun⟩
    · refine .pure fun rest => ?_
      rw [List.append_assoc]
      exact .group (hInner.here (⟨.separator .closeParen, l'⟩ :: rest) hNext.symm)

/-- A call fails in its arguments or at its parenthesis. -/
theorem call (ih : ExprRules line fuel) (x : String) (l l₁ : Nat) (next : Option Token) :
    Decides line fuel next ([] ++ [⟨.identifier x, l⟩] ++ [⟨.separator .openParen, l₁⟩])
      (fun g => Parse.arguments g >>= fun args =>
        Parse.require (.separator .closeParen) .argumentsEnd >>= fun _ =>
          pure (Operand.call x args l))
      (fun _ taken _ => Whole .factor taken)
      (fun taken => Completes line taken (Phrase .factor) ∧
        (taken = [] → startsOperand (.identifier x) = false)) := by
  refine (ih.arguments next).bind ?_ ?_
  · intro taken hTaken _
    exact ⟨hTaken.map _ [.separator .closeParen] (by decide) fun _ _ => .call, nofun⟩
  · intro args taken next hArgs _
    refine .require (by simp) ?_ fun l₂ hNext _ => ?_
    · exact ⟨hArgs.closed.map _ [.separator .closeParen] (by decide) fun _ _ => .call, nofun⟩
    · refine .pure fun rest => ?_
      rw [List.append_assoc]
      exact .call (hArgs.here (⟨.separator .closeParen, l₂⟩ :: rest) hNext.symm)

/-- An operand fails where its parts do, or at its first token, in whose place a
name would do. -/
theorem factor_succ (ih : ExprRules line fuel) :
    Decides line (fuel + 1) start [] Parse.factor (fun _ taken _ => Whole .factor taken)
      (fun taken => Completes line taken (Phrase .factor) ∧
        (taken = [] → startsOperand (front line start).kind = false)) := by
  refine .succ (fun g => by rw [Parse.factor]) ?_
  refine .accept (by simp) (fun l hStart next => ?_) fun hOpen => ?_
  · cases hStart
    exact ih.group l next
  have hMissing : Completes line [] (Phrase .factor) :=
    completes_with [.identifier "x"] (by decide) fun _ => .name
  cases start with
  | none => exact .nextUnexpected (fun g => rfl) ⟨hMissing, fun _ => rfl⟩
  | some token =>
    obtain ⟨kind, l⟩ := token
    cases kind with
    | identifier x =>
      refine .next fun next => ?_
      refine .accept (by simp) (fun l₁ _ next => ih.call x l l₁ next) fun _ => ?_
      exact .pure fun rest => .name
    | number v => exact .next fun next => .pure fun rest => ⟨_, ⟨.number⟩⟩
    | text content => exact .next fun next => .pure fun rest => ⟨_, ⟨.text⟩⟩
    | separator sep =>
      cases sep with
      | openParen => exact absurd rfl hOpen
      | _ => exact .nextUnexpected (fun g => rfl) ⟨hMissing, fun _ => rfl⟩
    | _ => exact .nextUnexpected (fun g => rfl) ⟨hMissing, fun _ => rfl⟩

/-- The operations of an expression fail where an operand does, or at an
assignment sign. -/
theorem operations_succ (ih : ExprRules line fuel) :
    Decides line (fuel + 1) start [] Parse.operations (fun _ taken _ => Whole .operations taken)
      (fun taken => Completes line taken (Phrase .operations)) := by
  refine .succ (fun g => by rw [Parse.operations]) ?_
  refine .peek ?_
  -- it is always possible to go on without a further operation
  have hNone : Completes line [] (Phrase .operations) :=
    completes_with [] (by decide) fun _ => .noOperation
  cases start with
  | none => exact .pure fun rest => .noOperation
  | some token =>
    obtain ⟨kind, l⟩ := token
    cases kind with
    | operator op =>
      refine .next fun next => ?_
      refine (ih.factor next).bind ?_ ?_
      · intro taken hTaken _
        exact hTaken.1.map _ [] (by decide) fun _ _ h => .operation h .noOperation
      · intro operand taken next hOperand _
        refine (ih.operations next).bind ?_ ?_
        · intro more hMore _
          refine hMore.map _ [] (by decide) fun input rest h => ?_
          rw [List.append_assoc]
          exact .operation (hOperand input) h
        · intro ops more next hMore _
          refine .pure fun rest => ?_
          simp only [List.append_assoc]
          exact .operation (hOperand _) (hMore rest)
    | assign => exact .nextUnexpected (fun g => rfl) hNone
    | _ => exact .pure fun rest => .noOperation

/-- Arguments fail where one of them does. -/
theorem moreArguments_succ (ih : ExprRules line fuel) :
    Rule line (fuel + 1) .moreArguments Parse.moreArguments start := by
  refine .succ (fun g => by rw [Parse.moreArguments]) ?_
  refine (ih.expr start).bind ?_ ?_
  · intro taken hTaken _
    exact hTaken.map [] [] (by decide) fun _ _ => .lastArgument
  · intro arg taken next hArg _
    refine .accept (by simp) (fun l hNext next => ?_) fun _ => ?_
    · -- the comma is the token that the argument was followed by
      have hMore : ∀ input rest, Phrase .moreArguments input rest →
          Phrase .moreArguments (([] ++ taken ++ [⟨.separator .comma, l⟩]) ++ input) rest := by
        intro input rest h
        rw [List.append_assoc]
        exact .argument (hArg.here (⟨.separator .comma, l⟩ :: input) hNext.symm) h
      refine (ih.moreArguments next).bind ?_ ?_
      -- the comma is there, so another argument has to follow
      · intro more h _
        exact h.map _ [] (by decide) hMore
      · intro args more next h _
        exact .pure (h.map _ hMore)
    · exact .pure (hArg.map [] fun _ _ => .lastArgument)

/-- A list of arguments may be empty, so it fails only inside. -/
theorem arguments_succ (ih : ExprRules line fuel) :
    Rule line (fuel + 1) .arguments Parse.arguments start := by
  refine .succ (fun g => by rw [Parse.arguments]) ?_
  refine .check ?_
  cases (front line start).kind == .separator .closeParen with
  | true => exact .pure (Whole.complete fun rest => ⟨_, ⟨.noArgument⟩⟩)
  | false =>
    exact (ih.moreArguments start).mono
      (fun _ taken next h => h.map [] fun _ _ => .someArguments)
      (fun taken h => h.map [] [] (by decide) fun _ _ => .someArguments)

end ExprRules

/-- The end of an expression. Where it is missing, a semicolon will do. -/
theorem ending_rule (start : Option Token) :
    Rule line fuel .ending (fun _ => Parse.expressionEnd) start := by
  have hMissing : Completes line [] (Phrase .ending) :=
    completes_with [.separator .semicolon] (by decide) fun _ => .semicolon
  -- what ends the expression from behind is left in place
  have hCloses : ∀ token : Token, closesExpr token.kind = true →
      Complete line (Phrase .ending) [] (some token) := by
    intro token hToken
    refine ⟨fun rest hRest => ?_, hMissing⟩
    cases rest with
    | nil => cases hRest
    | cons first rest =>
      cases hRest
      exact ⟨_, ⟨.lookahead hToken⟩⟩
  refine .congr (fun g => by rw [Parse.expressionEnd]) ?_
  refine .accept (by simp) (fun l _ next => ?_) fun _ => ?_
  · exact .pure (Whole.complete fun rest => .semicolon)
  refine .peek ?_
  cases start with
  | none => exact .unexpected hMissing
  | some token =>
    obtain ⟨kind, l⟩ := token
    cases kind with
    | keyword word =>
      cases word with
      | doWord => exact .pure (hCloses ⟨.keyword .doWord, l⟩ rfl)
      | _ => exact .unexpected hMissing
    | separator sep =>
      cases sep with
      | closeParen => exact .pure (hCloses ⟨.separator .closeParen, l⟩ rfl)
      | comma => exact .pure (hCloses ⟨.separator .comma, l⟩ rfl)
      | _ => exact .unexpected hMissing
    | _ => exact .unexpected hMissing

/-- What follows the target of an expression. It fails at its first token only
if no operand starts with it. -/
theorem ExprRules.terms (ih : ExprRules line fuel) {goal : List Token} (hGoal : Whole .target goal)
    (value : Operand → List (Operator × Operand) → Expr) :
    Decides line fuel start goal
      (fun g => Parse.factor g >>= fun first => Parse.operations g >>= fun ops =>
        Parse.expressionEnd >>= fun _ => pure (value first ops))
      (fun _ taken next => Complete line (Phrase .expr) taken next ∧ taken ≠ [])
      (fun taken => Completes line taken (Phrase .expr) ∧
        (taken = [] → startsOperand (front line start).kind = false)) := by
  refine (ih.factor start).bind ?_ ?_
  · rintro taken ⟨hTaken, hFirst⟩ _
    refine ⟨hTaken.map _ [.separator .semicolon] (by decide) fun input rest h => ?_, fun hNil => ?_⟩
    · exact .expr (hGoal input) h .noOperation .semicolon
    · exact hFirst (List.append_eq_nil_iff.mp hNil).2
  intro first taken next hFirst _
  -- the operand has taken a token, so the expression cannot fail at its first token any more
  have hSome : ∀ more, goal ++ taken ++ more ≠ [] := by
    intro more hNil
    exact hFirst.ne_nil (List.append_eq_nil_iff.mp (List.append_eq_nil_iff.mp hNil).1).2
  refine (ih.operations next).bind ?_ ?_
  · intro more hMore _
    refine ⟨hMore.map _ [.separator .semicolon] (by decide) fun input rest h => ?_,
      fun hNil => absurd hNil (hSome more)⟩
    rw [List.append_assoc]
    exact .expr (hGoal _) (hFirst input) h .semicolon
  intro ops more next hOps _
  have hExpr : ∀ input rest, Phrase .ending input rest →
      Phrase .expr ((goal ++ taken ++ more) ++ input) rest := by
    intro input rest h
    simp only [List.append_assoc]
    exact .expr (hGoal _) (hFirst _) (hOps _) h
  refine (ending_rule next).bind ?_ ?_
  · intro last hLast _
    refine ⟨hLast.map _ [] (by decide) hExpr, fun hNil => ?_⟩
    exact absurd (List.append_eq_nil_iff.mp hNil).1 (hSome more)
  · intro _ last next hLast _
    refine .pure ⟨hLast.map _ hExpr, fun hNil => ?_⟩
    exact absurd (List.append_eq_nil_iff.mp hNil).1 (hSome more)

/-- A name and an assignment sign are taken as a target. -/
theorem target_assign (x : String) (l l' : Nat) (rest : List Token) :
    (Parse.target ⟨.identifier x, l⟩ : Scan (Option String))
        (.ofTokens (⟨.identifier x, l⟩ :: ⟨.assign, l'⟩ :: rest) line) =
      .ok (some x) (.ofTokens rest line) :=
  rfl

/-- Without the sign, the name is left for the first operand. -/
theorem target_of_ne {x : String} {l : Nat} {tail : List Token}
    (h : (front line tail.head?).kind ≠ .assign) :
    (Parse.target ⟨.identifier x, l⟩ : Scan (Option String))
        (.ofTokens (⟨.identifier x, l⟩ :: tail) line) =
      .ok none (.ofTokens (⟨.identifier x, l⟩ :: tail) line) := by
  have hPeek := @peek_one_ofTokens line ⟨.identifier x, l⟩ tail
  refine (bind_of_ok hPeek).trans ?_
  rw [if_neg (mt eq_of_beq h)]
  rfl

section Target

variable {α : Type} {k : Option String → Nat → Scan α}
  {post : α → List Token → Option Token → Prop} {stuck : List Token → Prop} {x : String} {l : Nat}
  {tail : List Token}

/-- With an assignment sign behind it, the name is a target, and both tokens are
taken at once. -/
theorem decides_assigned (hAssign : (front line tail.head?).kind = .assign)
    (h : ∀ l' next, Decides line fuel next [⟨.identifier x, l⟩, ⟨.assign, l'⟩] (k (some x)) post
      stuck) :
    Verdict line fuel [] (fun g => Parse.target ⟨.identifier x, l⟩ >>= fun goal => k goal g) post
      stuck (⟨.identifier x, l⟩ :: tail) := by
  have hKind : TokenKind.assign ≠ .eof := nofun
  obtain ⟨l', hHead⟩ := eq_some_of_front hKind hAssign
  obtain ⟨rest, rfl⟩ : ∃ rest, tail = ⟨.assign, l'⟩ :: rest := by
    cases tail with
    | nil => cases hHead
    | cons token rest =>
      cases hHead
      exact ⟨rest, rfl⟩
  have hStep := fun (g : Nat) (rest : List Token) =>
    bind_of_ok (f := fun goal => k goal g) (@target_assign line x l l' rest)
  cases h l' rest.head? rest rfl with
  | ended taken hPost hRun =>
    exact .ended (⟨.identifier x, l⟩ :: ⟨.assign, l'⟩ :: taken) hPost fun g hg rest' hHead =>
      (hStep g _).trans (hRun g hg rest' hHead)
  | failed expected taken hStuck hRun =>
    refine .failed expected (⟨.identifier x, l⟩ :: ⟨.assign, l'⟩ :: taken) hStuck ?_
    intro g hg rest' hHead
    obtain ⟨s, hError⟩ := hRun g hg rest' hHead
    exact ⟨s, (hStep g _).trans hError⟩
  | dry s hRun => exact .dry s ((hStep fuel _).trans hRun)

/-- Without the sign the name is no target, and the rule that follows takes it. -/
theorem decides_unassigned (hAssign : (front line tail.head?).kind ≠ .assign)
    (h : Verdict line fuel [] (k none) (fun a taken next => post a taken next ∧ taken ≠ [])
      (fun taken => stuck taken ∧ (taken = [] → startsOperand (.identifier x) = false))
      (⟨.identifier x, l⟩ :: tail)) :
    Verdict line fuel [] (fun g => Parse.target ⟨.identifier x, l⟩ >>= fun goal => k goal g) post
      stuck (⟨.identifier x, l⟩ :: tail) := by
  -- the token behind the name is among those taken, or it is in front at the end
  have hStep : ∀ taken rest : List Token, taken ≠ [] → taken ++ rest = ⟨.identifier x, l⟩ :: tail →
      ∀ (g : Nat) (rest' : List Token), rest'.head? = rest.head? →
        (Parse.target ⟨.identifier x, l⟩ >>= fun goal => k goal g)
            (.ofTokens (taken ++ rest') line) =
          k none g (.ofTokens (taken ++ rest') line) := by
    intro taken rest hTaken hTokens g rest' hHead
    cases taken with
    | nil => exact absurd rfl hTaken
    | cons token taken =>
      rw [List.cons_append, List.cons.injEq] at hTokens
      obtain ⟨rfl, rfl⟩ := hTokens
      rw [← head?_append_congr taken hHead] at hAssign
      exact bind_of_ok (target_of_ne hAssign)
  generalize hTokens : (⟨.identifier x, l⟩ :: tail : List Token) = tokens at h
  cases h with
  | ended taken hPost hRun =>
    refine .ended taken hPost.1 fun g hg rest' hHead => ?_
    exact (hStep taken _ hPost.2 hTokens.symm g rest' hHead).trans (hRun g hg rest' hHead)
  | failed expected taken hStuck hRun =>
    have hTaken : taken ≠ [] := fun hNil => nomatch hStuck.2 hNil
    refine .failed expected taken hStuck.1 fun g hg rest' hHead => ?_
    obtain ⟨s, hError⟩ := hRun g hg rest' hHead
    exact ⟨s, (hStep taken _ hTaken hTokens.symm g rest' hHead).trans hError⟩
  | dry s hRun =>
    refine .dry s ?_
    rw [← hTokens] at hRun ⊢
    exact (bind_of_ok (target_of_ne hAssign)).trans hRun

/-- The target of an expression, and what follows it. To tell a target from an
operand the parser looks two tokens ahead. What follows must therefore take a
name that it starts with, and then the second token has been seen anyhow. -/
theorem Decides.target
    (hSome : ∀ x l l' next, Decides line fuel next [⟨.identifier x, l⟩, ⟨.assign, l'⟩]
      (k (some x)) post stuck)
    (hNone : Decides line fuel start [] (k none)
      (fun a taken next => post a taken next ∧ taken ≠ [])
      (fun taken => stuck taken ∧ (taken = [] → startsOperand (front line start).kind = false))) :
    Decides line fuel start []
      (fun g => Parse.target (front line start) >>= fun goal => k goal g) post stuck := by
  -- a name in front, or none
  by_cases hName : ∃ x, (front line start).kind = .identifier x
  · obtain ⟨x, hx⟩ := hName
    have hKind : TokenKind.identifier x ≠ .eof := nofun
    obtain ⟨l, rfl⟩ := eq_some_of_front hKind hx
    intro input hInput
    obtain ⟨tail, rfl⟩ : ∃ tail, input = ⟨.identifier x, l⟩ :: tail := by
      cases input with
      | nil => cases hInput
      | cons token tail =>
        cases hInput
        exact ⟨tail, rfl⟩
    by_cases hAssign : (front line tail.head?).kind = .assign
    · exact decides_assigned hAssign (fun l' next => hSome x l l' next)
    · exact decides_unassigned hAssign (hNone _ rfl)
  · have hTarget : ∀ tokens,
        (Parse.target (front line start) : Scan (Option String)) (.ofTokens tokens line) =
          .ok none (.ofTokens tokens line) := by
      intro tokens
      unfold Parse.target
      cases hKind : (front line start).kind with
      | identifier x => exact absurd ⟨x, hKind⟩ hName
      | _ => rfl
    exact .look (fun tokens _ => hTarget tokens)
      (hNone.mono (fun _ _ _ h => h.1) (fun _ h => h.1))

end Target

namespace ExprRules

/-- Expressions are decided by what is behind their target. -/
theorem expr_succ (ih : ExprRules line fuel) :
    Rule line (fuel + 1) .expr Parse.expression start := by
  refine .succ (fun g => by rw [Parse.expression]) ?_
  refine .peek ?_
  refine .target (fun x l l' next => ?_) ?_
  · have hGoal : Whole .target [⟨.identifier x, l⟩, ⟨.assign, l'⟩] := fun rest => ⟨_, ⟨.target⟩⟩
    exact (ih.terms hGoal _).mono (fun _ _ _ h => h.1) (fun _ h => h.1)
  · exact ih.terms (fun rest => ⟨_, ⟨.noTarget⟩⟩) _

end ExprRules

/-- **All rules for expressions fail at the first impossible token.** -/
theorem exprRules (line fuel : Nat) : ExprRules line fuel := by
  induction fuel with
  | zero =>
    exact ⟨fun _ => .zero rfl, fun _ => .zero rfl,
      fun _ => .zero rfl, fun _ => .zero rfl,
      fun _ => .zero rfl⟩
  | succ fuel ih =>
    exact ⟨fun _ => ih.factor_succ, fun _ => ih.operations_succ, fun _ => ih.expr_succ,
      fun _ => ih.moreArguments_succ, fun _ => ih.arguments_succ⟩

-- ---------------------------------------------------------------------------
-- Statements
-- ---------------------------------------------------------------------------

/-- Parameter names fail where a name is missing. -/
theorem names_rule (line fuel : Nat) (start : Option Token) :
    Decides line fuel start [] Parse.moreParameters (fun _ taken _ => Whole .names taken)
      (fun taken => Completes line taken (Phrase .names)) := by
  induction fuel generalizing start with
  | zero => exact .zero rfl
  | succ fuel ih =>
    have hMissing : Completes line [] (Phrase .names) :=
      completes_with [.identifier "x"] (by decide) fun _ => .lastName
    refine .succ (fun g => by rw [Parse.moreParameters]) ?_
    refine .requireName hMissing fun x l _ next => ?_
    refine .accept (by simp) (fun l' _ next => ?_) fun _ => ?_
    · refine (ih next).bind ?_ ?_
      · intro taken hTaken _
        exact hTaken.map _ [] (by decide) fun _ _ => .param
      · intro names taken next hTaken _
        refine .pure fun rest => ?_
        rw [List.append_assoc]
        exact .param (hTaken rest)
    · exact .pure fun rest => .lastName

/-- Parameters fail at a parenthesis or where a name is missing. -/
theorem parameters_rule (line fuel : Nat) (start : Option Token) :
    Decides line fuel start [] Parse.parameters (fun _ taken _ => Whole .parameters taken)
      (fun taken => Completes line taken (Phrase .parameters)) := by
  have hMissing : Completes line [] (Phrase .parameters) :=
    completes_with [.separator .openParen, .separator .closeParen] (by decide)
      fun _ => .noParameters
  refine .congr (fun g => by rw [Parse.parameters]) ?_
  refine .require (by simp) hMissing fun l _ next => ?_
  -- from the first parenthesis on, the second one is enough
  have hOpen : Completes line [⟨.separator .openParen, l⟩] (Phrase .parameters) :=
    ⟨[.separator .closeParen], by decide, fun rest => .noParameters⟩
  refine .check ?_
  cases (front line next).kind == .separator .closeParen with
  | true =>
    refine .look (fun _ _ => rfl) ?_
    refine .require (by simp) hOpen fun l' _ next => ?_
    exact .pure fun rest => .noParameters
  | false =>
    refine (names_rule line fuel next).bind ?_ ?_
    · intro taken hTaken _
      exact hTaken.map _ [.separator .closeParen] (by decide) fun _ _ => .parameters
    · intro names taken next hTaken _
      refine .require (by simp) ?_ fun l' _ next => ?_
      · exact ⟨[.separator .closeParen], by decide, fun rest => .parameters (hTaken _)⟩
      · refine .pure fun rest => ?_
        rw [List.append_assoc]
        exact .parameters (hTaken _)

/-- The rules for statements. -/
structure StatementRules (line fuel : Nat) : Prop where
  alternative : ∀ start, Rule line fuel .alternative Parse.elseBlock start
  statement : ∀ outermost start,
    Rule line fuel (.statement outermost) (Parse.statement outermost (front line start)) start
  block : ∀ outermost start, Rule line fuel (.block outermost) (Parse.block outermost) start

/-- The tokens that end a block. -/
def blockClosers : List TokenKind := [.keyword .endWord, .separator .semicolon]

namespace StatementRules

variable {outermost : Bool}

/-- The second block of an `if` fails inside of it. -/
theorem alternative_succ (ih : StatementRules line fuel) :
    Rule line (fuel + 1) .alternative Parse.elseBlock start := by
  refine .succ (fun g => by rw [Parse.elseBlock]) ?_
  refine .accept (by simp) (fun l _ next => ?_) fun _ => ?_
  · refine (ih.block false next).bind ?_ ?_
    · intro taken hTaken _
      exact hTaken.map _ [] (by decide) fun _ _ => .otherwise
    · intro items taken next hTaken _
      exact .pure (hTaken.map _ fun _ _ => .otherwise)
  · exact .pure (Whole.complete fun rest => .noElse)

/-- A block fails where one of its statements does. It may end before any of
them. -/
theorem block_succ (ih : StatementRules line fuel) :
    Rule line (fuel + 1) (.block outermost) (Parse.block outermost) start := by
  refine .succ (fun g => by rw [Parse.block]) ?_
  refine .peek ?_
  cases Parse.endsBlock (front line start).kind with
  | true => exact .pure (Whole.complete fun rest => .blockEnd)
  | false =>
    refine (ih.statement outermost start).bind ?_ ?_
    · intro taken hTaken _
      exact hTaken.map [] [] (by decide) fun _ _ h => .item h .blockEnd
    · intro first taken next hFirst _
      refine (ih.block outermost next).bind ?_ ?_
      · intro more hMore hStarts
        exact hFirst.append hStarts hMore fun _ _ _ => .item
      · intro items more next' hMore hLeads
        exact .pure (hFirst.seq hLeads hMore fun _ _ _ => .item)

/-- What is closed by `end;`. -/
theorem closed {α : Type} {before taken : List Token} {next : Option Token}
    {Q : List Token → List Token → Prop} (h : Complete line Q taken next)
    (hQ : ∀ {input rest l₂ l₃},
      Q input (⟨.keyword .endWord, l₂⟩ :: ⟨.separator .semicolon, l₃⟩ :: rest) →
        Phrase (.statement outermost) (before ++ input) rest) (expected : Expectation) (s : α) :
    Decides line fuel next (before ++ taken)
      (fun _ => Parse.blockEnd expected >>= fun _ => pure s)
      (fun _ taken next => Complete line (Phrase (.statement outermost)) taken next)
      (fun taken => Completes line taken (Phrase (.statement outermost))) := by
  refine .blockEnd ?_ (fun l₂ hEnd => ?_) fun l₂ l₃ hEnd next => ?_
  · exact h.closed.map before blockClosers (by decide) fun _ _ => hQ
  · refine ⟨[.separator .semicolon], by decide, fun rest => ?_⟩
    simp only [List.append_assoc]
    exact hQ (h.here (⟨.keyword .endWord, l₂⟩ :: _) hEnd.symm)
  · refine .pure (Whole.complete fun rest => ?_)
    simp only [List.append_assoc]
    exact hQ (h.here (⟨.keyword .endWord, l₂⟩ :: _) hEnd.symm)

/-- A loop fails in its condition, at `do`, in its body or at `end;`. -/
theorem loop_succ (ih : StatementRules line fuel) {l : Nat} :
    Rule line (fuel + 1) (.statement outermost)
      (Parse.statement outermost ⟨.keyword .whileWord, l⟩) (some ⟨.keyword .whileWord, l⟩) := by
  refine .succ (fun g => by rw [Parse.statement]) ?_
  refine .next fun next => ?_
  refine ((exprRules line fuel).expr next).bind ?_ ?_
  -- in the condition, and then at the `do` behind it
  · intro taken hTaken _
    exact hTaken.map _ (.keyword .doWord :: blockClosers) (by decide) fun _ _ h => .loop h .blockEnd
  intro condition taken next hCondition _
  refine .require (by simp) ?_ fun l₁ hDo next => ?_
  · exact hCondition.closed.map _ (.keyword .doWord :: blockClosers) (by decide)
      fun _ _ h => .loop h .blockEnd
  -- with the condition and the `do` in place, whatever completes the body completes the loop
  have hLoop : ∀ {input rest : List Token} {l₂ l₃ : Nat}, Phrase (.block false) input
      (⟨.keyword .endWord, l₂⟩ :: ⟨.separator .semicolon, l₃⟩ :: rest) →
        Phrase (.statement outermost)
          (([] ++ [⟨.keyword .whileWord, l⟩] ++ taken ++ [⟨.keyword .doWord, l₁⟩]) ++ input)
          rest := by
    intro input rest l₂ l₃ h
    rw [List.append_assoc]
    exact .loop (hCondition.here (⟨.keyword .doWord, l₁⟩ :: input) hDo.symm) h
  refine (ih.block false next).bind ?_ ?_
  · intro body hBody _
    exact hBody.map _ blockClosers (by decide) fun _ _ => hLoop
  · intro items body next hBody _
    exact closed hBody hLoop .loopEnd _

/-- The blocks of an `if`: the first, and the second if there is one. -/
def Branches (input rest : List Token) : Prop :=
  ∃ mid, Phrase (.block false) input mid ∧ Phrase .alternative mid rest

/-- A branch fails in its condition, at `do`, in one of its blocks or at `end;`. -/
theorem branch_succ (ih : StatementRules line fuel) {l : Nat} :
    Rule line (fuel + 1) (.statement outermost)
      (Parse.statement outermost ⟨.keyword .ifWord, l⟩) (some ⟨.keyword .ifWord, l⟩) := by
  refine .succ (fun g => by rw [Parse.statement]) ?_
  refine .next fun next => ?_
  refine ((exprRules line fuel).expr next).bind ?_ ?_
  · intro taken hTaken _
    exact hTaken.map _ (.keyword .doWord :: blockClosers) (by decide)
      fun _ _ h => .branch h .blockEnd .noElse
  intro condition taken next hCondition _
  refine .require (by simp) ?_ fun l₁ hDo next => ?_
  · exact hCondition.closed.map _ (.keyword .doWord :: blockClosers) (by decide)
      fun _ _ h => .branch h .blockEnd .noElse
  have hBranch : ∀ {input rest : List Token} {l₂ l₃ : Nat}, Branches input
      (⟨.keyword .endWord, l₂⟩ :: ⟨.separator .semicolon, l₃⟩ :: rest) →
        Phrase (.statement outermost)
          (([] ++ [⟨.keyword .ifWord, l⟩] ++ taken ++ [⟨.keyword .doWord, l₁⟩]) ++ input)
          rest := by
    rintro input rest l₂ l₃ ⟨mid, hBody, hElse⟩
    rw [List.append_assoc]
    exact .branch (hCondition.here (⟨.keyword .doWord, l₁⟩ :: input) hDo.symm) hBody hElse
  refine (ih.block false next).bind ?_ ?_
  · intro body hBody _
    exact hBody.map _ blockClosers (by decide) fun _ _ h => hBranch ⟨_, h, .noElse⟩
  intro items body next hBody _
  refine (ih.alternative next).bind ?_ ?_
  -- the second block may not have begun, so both are completed together
  · intro other hOther hStarts
    have hBoth : Completes line (body ++ other) Branches :=
      hBody.append hStarts hOther fun _ mid _ h h' => ⟨mid, h, h'⟩
    rw [List.append_assoc]
    exact hBoth.map _ blockClosers (by decide) fun _ _ => hBranch
  · intro elseBody other next' hOther hLeads
    have hBoth : Complete line Branches (body ++ other) next' :=
      hBody.seq hLeads hOther fun _ mid _ h h' => ⟨mid, h, h'⟩
    rw [List.append_assoc]
    exact closed hBoth hBranch .branchEnd _

/-- A `return` fails where its expression does. -/
theorem ret_succ {l : Nat} :
    Rule line (fuel + 1) (.statement outermost)
      (Parse.statement outermost ⟨.keyword .returnWord, l⟩) (some ⟨.keyword .returnWord, l⟩) := by
  refine .succ (fun g => by rw [Parse.statement]) ?_
  refine .next fun next => ?_
  refine ((exprRules line fuel).expr next).bind ?_ ?_
  · intro taken hTaken _
    exact hTaken.map _ [] (by decide) fun _ _ => .ret
  · intro result taken next hTaken _
    exact .pure (hTaken.map _ fun _ _ => .ret)

/-- A definition fails at its name, in its parameters, at `do`, in its body or
at `end;`. It stands in the outermost block only. -/
theorem define_succ (ih : StatementRules line fuel) {l : Nat} :
    Rule line (fuel + 1) (.statement true)
      (Parse.statement true ⟨.keyword .defWord, l⟩) (some ⟨.keyword .defWord, l⟩) := by
  refine .succ (fun g => by rw [Parse.statement]) ?_
  refine .next fun next => ?_
  refine .requireName ?_ fun x l' _ next => ?_
  · exact ⟨.identifier "x" :: .separator .openParen :: .separator .closeParen ::
      .keyword .doWord :: blockClosers, by decide, fun rest => .define .noParameters .blockEnd⟩
  refine (parameters_rule line fuel next).bind ?_ ?_
  -- in the parameters, and then at the `do` behind them
  · intro taken hTaken _
    exact hTaken.map _ (.keyword .doWord :: blockClosers) (by decide)
      fun _ _ h => .define h .blockEnd
  intro names taken next hParams _
  refine .require (by simp) ?_ fun l₁ _ next => ?_
  · exact ⟨.keyword .doWord :: blockClosers, by decide, fun rest => .define (hParams _) .blockEnd⟩
  have hDefine : ∀ {input rest : List Token} {l₂ l₃ : Nat}, Phrase (.block false) input
      (⟨.keyword .endWord, l₂⟩ :: ⟨.separator .semicolon, l₃⟩ :: rest) →
        Phrase (.statement true)
          (([] ++ [⟨.keyword .defWord, l⟩] ++ [⟨.identifier x, l'⟩] ++ taken ++
            [⟨.keyword .doWord, l₁⟩]) ++ input) rest := by
    intro input rest l₂ l₃ h
    rw [List.append_assoc]
    exact .define (hParams (⟨.keyword .doWord, l₁⟩ :: input)) h
  refine (ih.block false next).bind ?_ ?_
  · intro body hBody _
    exact hBody.map _ blockClosers (by decide) fun _ _ => hDefine
  · intro items body next hBody _
    exact closed hBody hDefine .functionEnd _

/-- A statement of one expression fails where the expression does. -/
theorem plain_succ {token : Token}
    (hm : ∀ g, (Parse.statement outermost token (g + 1) : Scan Stmt) =
      Parse.expression g >>= fun value => pure (.expr value)) :
    Rule line (fuel + 1) (.statement outermost) (Parse.statement outermost token) start := by
  refine .succ hm ?_
  refine ((exprRules line fuel).expr start).bind ?_ ?_
  · intro taken hTaken _
    exact hTaken.map [] [] (by decide) fun _ _ => .plain
  · intro value taken next hTaken _
    exact .pure (hTaken.map [] fun _ _ => .plain)

/-- A statement is told by its first token. A definition that is not in the
outermost block fails at it, and an expression might stand there instead. -/
theorem statement_succ (ih : StatementRules line fuel) :
    Rule line (fuel + 1) (.statement outermost) (Parse.statement outermost (front line start))
      start := by
  cases start with
  | none => exact plain_succ fun g => by rw [Parse.statement]; rfl
  | some token =>
    obtain ⟨kind, l⟩ := token
    cases kind with
    | keyword word =>
      cases word with
      | whileWord => exact ih.loop_succ
      | ifWord => exact ih.branch_succ
      | returnWord => exact ret_succ
      | defWord =>
        cases outermost with
        | true => exact ih.define_succ
        -- any other statement could stand here
        | false =>
          refine .succ (fun g => by rw [Parse.statement]) ?_
          refine .unexpected ?_
          refine completes_with [.identifier "x", .separator .semicolon] (by decide) fun rest => ?_
          exact .plain (.expr ⟨_, ⟨.noTarget⟩⟩ .name .noOperation .semicolon)
      | _ => exact plain_succ fun g => by rw [Parse.statement]; rfl
    | _ => exact plain_succ fun g => by rw [Parse.statement]; rfl

end StatementRules

/-- **All rules for statements fail at the first impossible token.** -/
theorem statementRules (line fuel : Nat) : StatementRules line fuel := by
  induction fuel with
  | zero =>
    exact ⟨fun _ => .zero rfl, fun _ _ => .zero rfl,
      fun _ _ => .zero rfl⟩
  | succ fuel ih =>
    exact ⟨fun _ => ih.alternative_succ, fun _ _ => ih.statement_succ, fun _ _ => ih.block_succ⟩

-- ---------------------------------------------------------------------------
-- Programs
-- ---------------------------------------------------------------------------

/-- A program fails in its statements, or in front of a token that starts none. -/
theorem program_rule (line fuel : Nat) (start : Option Token) :
    Decides line fuel start [] Parse.program (fun _ _ _ => True)
      (fun taken => Completes line taken (Phrase (.block true))) := by
  refine .congr (fun g => by rw [Parse.program]) ?_
  refine ((statementRules line fuel).block true start).bind (fun _ h _ => h) ?_
  intro items taken next hItems _
  refine .peek ?_
  cases (front line next).isEof with
  | true => exact .pure trivial
  | false => exact .unexpected hItems.closed

/-- The tokens are the start of a program: with a few more, on the given line,
they parse. -/
def Viable (line : Nat) (tokens : List Token) : Prop :=
  ∃ closers : List TokenKind, closers ⊆ fillers ∧
    ∃ ast, outcome (Scanner.ofTokens (tokens ++ onLine line closers) line).parse = .ok ast

/-- No filler is an end of input. -/
theorem isEof_onLine {closers : List TokenKind} (h : closers ⊆ fillers) :
    ∀ token ∈ onLine line closers, token.isEof = false := by
  intro token hToken
  obtain ⟨kind, hKind, rfl⟩ := List.mem_map.mp hToken
  have hFillers : ∀ kind ∈ fillers, Token.isEof ⟨kind, line⟩ = false := by
    simp [fillers, Token.isEof]
  exact hFillers kind (h hKind)

/-- What can be completed to a block can be completed to a program. -/
theorem viable_of_completes {tokens : List Token} (hTokens : ∀ token ∈ tokens, token.isEof = false)
    (h : Completes line tokens (Phrase (.block true))) : Viable line tokens := by
  obtain ⟨closers, hClosers, hAll⟩ := h
  obtain ⟨ast, ⟨d⟩⟩ := hAll [⟨.eof, line⟩]
  rw [← List.append_assoc] at d
  refine ⟨closers, hClosers, ast, outcome_of_derivation ?_ (.program d)⟩
  exact List.forall_mem_append.mpr ⟨hTokens, isEof_onLine hClosers⟩

section Parses

variable {tokens : List Token}

/-- It does not matter for a parse that succeeds on which line the input
ends. -/
theorem outcome_of_line (hTokens : ∀ token ∈ tokens, token.isEof = false) {line line' : Nat}
    {ast : Program} (h : outcome (Scanner.ofTokens tokens line').parse = .ok ast) :
    outcome (Scanner.ofTokens tokens line).parse = .ok ast := by
  have hStream := Scanner.stream_ofTokens tokens line'
  rcases agree_parse rfl (by rw [hStream]; exact hTokens) with
    ⟨ast', _, hParse, _, _, ⟨d⟩⟩ | ⟨stop, hStop, _, _⟩
  · rw [h] at hParse
    cases hParse
    rw [hStream] at d
    exact outcome_of_derivation hTokens (.program (d.append [⟨.eof, line⟩] nofun))
  · rw [h] at hStop
    cases hStop

/-- What fails with all fuel from some amount on does not parse. -/
theorem outcome_ne_ok (hTokens : ∀ token ∈ tokens, token.isEof = false) {line fuel : Nat}
    {stop : Stop}
    (hRun : ∀ g, fuel ≤ g → ∃ s,
      (Parse.program g : Scan Program) (.ofTokens tokens line) = .error stop s)
    (line' : Nat) (ast : Program) :
    outcome (Scanner.ofTokens tokens line').parse ≠ .ok ast := by
  intro hParse
  have hSame : outcome (Scanner.ofTokens tokens line).parse = .ok ast :=
    outcome_of_line hTokens hParse
  obtain ⟨s, hError⟩ := hRun (fuel + (4 * tokens.length + 8)) (Nat.le_add_right _ _)
  -- an amount of fuel that is enough for both
  have hEnough := (@outcome_program tokens line (fuel + (4 * tokens.length + 8)) (by omega)).1
  rw [← hEnough, hError] at hSame
  cases hSame

end Parses

/-- **A syntax error is at the first impossible token.** Of tokens before the
end of the input: if the parse fails at one of them, the tokens in front of it
can be completed to a program, and no program starts with them and it. If the
parse fails at the end of the input, the tokens can be completed to a program
but are none. -/
theorem parse_fails_at_first_impossible_token {tokens : List Token} {line : Nat} {token : Token}
    {expected : Expectation} (hTokens : ∀ token ∈ tokens, token.isEof = false)
    (hFail : outcome (Scanner.ofTokens tokens line).parse =
      .error (.fault (.unexpected token expected))) :
    (∃ i, tokens[i]? = some token ∧ Viable line (tokens.take i) ∧
      ∀ more line', (∀ token ∈ more, token.isEof = false) → ∀ ast,
        outcome (Scanner.ofTokens (tokens.take (i + 1) ++ more) line').parse ≠ .ok ast) ∨
    token = ⟨.eof, line⟩ ∧ Viable line tokens ∧
      ∀ line' ast, outcome (Scanner.ofTokens tokens line').parse ≠ .ok ast := by
  have hVerdict := program_rule line (4 * tokens.length + 8) tokens.head? tokens rfl
  have hParse :
      outcome ((Parse.program (4 * tokens.length + 8) : Scan Program) (.ofTokens tokens line)) =
        .error (.fault (.unexpected token expected)) := hFail
  generalize 4 * tokens.length + 8 = fuel at hVerdict hParse
  cases hVerdict with
  -- the parse has failed, so its verdict is neither an end with a value nor an end of fuel
  | ended taken _ hRun =>
    rw [hRun fuel (Nat.le_refl _) _ rfl] at hParse
    cases hParse
  | dry s hRun =>
    rw [hRun] at hParse
    cases hParse
  | @failed expected' taken rest hStuck hRun =>
    -- the token that the fault names is the one in front
    have hToken : front line rest.head? = token := by
      obtain ⟨s, hError⟩ := hRun fuel (Nat.le_refl _) rest rfl
      rw [hError] at hParse
      injection hParse with hStop
      injection hStop with hFault
      injection hFault with hCause
      injection hCause
    subst hToken
    obtain ⟨hTaken, hRest⟩ := List.forall_mem_append.mp hTokens
    have hViable := viable_of_completes hTaken hStuck
    -- either the tokens are used up, or the token in front is one of them
    cases rest with
    | nil =>
      refine Or.inr ⟨rfl, by rw [List.append_nil]; exact hViable, ?_⟩
      exact outcome_ne_ok hTokens fun g hg => hRun g hg [] rfl
    | cons first after =>
      refine Or.inl ⟨taken.length, by simp [front], by simpa using hViable, ?_⟩
      intro more line' hMore
      have hTake : (taken ++ first :: after).take (taken.length + 1) ++ more =
          taken ++ first :: more := by
        rw [List.take_append, List.take_of_length_le (Nat.le_succ _), Nat.add_sub_cancel_left,
          List.append_assoc]
        rfl
      rw [hTake]
      refine outcome_ne_ok ?_ (fun g hg => hRun g hg (first :: more) rfl) line'
      exact List.forall_mem_append.mpr ⟨hTaken, List.forall_mem_cons.mpr
        ⟨hRest first List.mem_cons_self, hMore⟩⟩

/-- In `x ) y;` the parenthesis may end the expression, but then no statement
starts with it. -/
theorem parse_fails_at_stray_parenthesis :
    let tokens : List Token := [⟨.identifier "x", 1⟩, ⟨.separator .closeParen, 1⟩,
      ⟨.identifier "y", 2⟩, ⟨.separator .semicolon, 2⟩]
    outcome (Scanner.ofTokens tokens 2).parse =
      .error (.fault (.unexpected ⟨.separator .closeParen, 1⟩ .operand)) ∧
    ∃ i, tokens[i]? = some ⟨.separator .closeParen, 1⟩ ∧ Viable 2 (tokens.take i) ∧
      ∀ more line', (∀ token ∈ more, token.isEof = false) → ∀ ast,
        outcome (Scanner.ofTokens (tokens.take (i + 1) ++ more) line').parse ≠ .ok ast := by
  intro tokens
  have hFail : outcome (Scanner.ofTokens tokens 2).parse =
      .error (.fault (.unexpected ⟨.separator .closeParen, 1⟩ .operand)) := by
    cbv
  refine ⟨hFail, ?_⟩
  rcases parse_fails_at_first_impossible_token (by decide) hFail with hIndex | ⟨hEof, _⟩
  · exact hIndex
  · cases hEof

end Scriptlet
