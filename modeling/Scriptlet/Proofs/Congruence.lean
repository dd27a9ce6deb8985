import Mathlib.Data.List.Forall2
import Scriptlet.Evaluation.Run

/-!
# Scriptlet — relations that sequences respect

Whoever compares two evaluations of one tree, or of two trees of one shape, has
a relation of computations in mind, and shows that sequences respect it. That
is enough for everything that the evaluator builds from sequences alone: the
operations of an expression in postfix order, and loops.

* `Congruence` — sequences respect the relation;
* `Postfix.Related` — two expressions in postfix order with related operands;
* `Congruence.fold`, `Congruence.repeatWhile` — then their evaluations are
  related, and so are two loops.
-/

namespace Scriptlet

/-- Sequences of related computations are related. -/
structure Congruence {m n : Type → Type} [Monad m] [Monad n]
    (Q : (α : Type) → m α → n α → Prop) : Prop where
  pure : ∀ {α} (a : α), Q α (pure a) (pure a)
  bind : ∀ {α β} {x : m α} {y : n α} {f : α → m β} {g : α → n β}, Q α x y →
    (∀ a, Q β (f a) (g a)) → Q β (x >>= f) (y >>= g)

-- ---------------------------------------------------------------------------
-- Postfix order
-- ---------------------------------------------------------------------------

namespace Postfix

variable {α β : Type} {Q : α → β → Prop}

/-- Two items of postfix order: the same operator, or related operands. -/
inductive Related (Q : α → β → Prop) : Postfix α → Postfix β → Prop
  | operand {a : α} {b : β} (h : Q a b) : Related Q (.operand a) (.operand b)
  | operator (op : Operator) : Related Q (.operator op) (.operator op)

/-- Terms with the same operators and related operands. -/
def RelatedTerms (Q : α → β → Prop) : List (Operator × α) → List (Operator × β) → Prop :=
  List.Forall₂ fun term term' => term.1 = term'.1 ∧ Q term.2 term'.2

theorem related_operators (ops : List Operator) :
    List.Forall₂ (Related Q) (ops.map .operator) (ops.map .operator) := by
  induction ops with
  | nil => exact .nil
  | cons op ops ih => exact .cons (.operator op) ih

/-- Related terms come into the same order, with the operators that wait among
them. -/
theorem related_ofRest {rest : List (Operator × α)} {rest' : List (Operator × β)}
    (h : RelatedTerms Q rest rest') (waiting : List Operator) :
    List.Forall₂ (Related Q) (ofRest waiting rest) (ofRest waiting rest') := by
  -- which operators wait depends on operators only, so both sides keep the same
  induction h generalizing waiting with
  | nil => exact related_operators waiting
  | @cons term term' rest rest' hTerm _ ih =>
    obtain ⟨op, a⟩ := term
    obtain ⟨op', b⟩ := term'
    obtain ⟨rfl, hOperand⟩ := hTerm
    rw [ofRest, ofRest]
    exact List.rel_append (related_operators _) (.cons (.operand hOperand) (ih _))

/-- Related terms come into the same order. -/
theorem related_ofTerms {a : α} {b : β} {rest : List (Operator × α)} {rest' : List (Operator × β)}
    (hFirst : Q a b) (hRest : RelatedTerms Q rest rest') :
    List.Forall₂ (Related Q) (ofTerms a rest) (ofTerms b rest') :=
  .cons (.operand hFirst) (related_ofRest hRest [])

end Postfix

namespace Congruence

/-- **Expressions in postfix order are related** if their operands and the
operations are. -/
theorem fold {m n : Type → Type} [Monad m] [Monad n] {Q : (α : Type) → m α → n α → Prop}
    (hQ : Congruence Q) {α : Type} {items : List (Postfix (m α))} {items' : List (Postfix (n α))}
    (hItems : List.Forall₂ (Postfix.Related (Q α)) items items')
    {apply : Operator → α → α → m α} {apply' : Operator → α → α → n α} {malformed : m α}
    {malformed' : n α} (hApply : ∀ op lhs rhs, Q α (apply op lhs rhs) (apply' op lhs rhs))
    (hMalformed : Q α malformed malformed') (stack : List α) :
    Q α (Postfix.fold apply malformed stack items)
      (Postfix.fold apply' malformed' stack items') := by
  induction hItems generalizing stack with
  | nil =>
    match stack with
    | [] => exact hMalformed
    | [value] => exact hQ.pure value
    | _ :: _ :: _ => exact hMalformed
  | cons hItem _ ih =>
    cases hItem with
    | operand hOperand =>
      rw [Postfix.fold, Postfix.fold]
      exact hQ.bind hOperand fun value => ih (value :: stack)
    | operator op =>
      -- an operator wants two values on the stack
      match stack with
      | [] => exact hMalformed
      | [_] => exact hMalformed
      | rhs :: lhs :: stack =>
        rw [Postfix.fold, Postfix.fold]
        exact hQ.bind (hApply op lhs rhs) fun value => ih (value :: stack)

/-- **Loops are related** if their conditions and bodies are. The second may
have fuel to spare when the first runs dry. -/
theorem repeatWhile {σ : Type} {Q : (α : Type) → Eval σ α → Eval σ α → Prop} (hQ : Congruence Q)
    {condition condition' : Eval σ Bool} {body body' : Eval σ Flow}
    (hCondition : Q Bool condition condition') (hBody : Q Flow body body') (spare : Nat)
    (hDry : ∀ last, Q Flow (throw .outOfFuel) (Eval.repeatWhile condition' body' spare last))
    (fuel : Nat) (last : Value) :
    Q Flow (Eval.repeatWhile condition body fuel last)
      (Eval.repeatWhile condition' body' (fuel + spare) last) := by
  induction fuel generalizing last with
  | zero =>
    rw [Nat.zero_add]
    exact hDry last
  | succ fuel ih =>
    rw [Nat.add_right_comm, Eval.repeatWhile, Eval.repeatWhile]
    refine hQ.bind hCondition fun holds => ?_
    cases holds with
    | false => exact hQ.pure _
    | true =>
      refine hQ.bind hBody fun flow => ?_
      cases flow with
      | next => exact ih last
      | value v => exact ih v
      | ret v => exact hQ.pure _

end Congruence

end Scriptlet
