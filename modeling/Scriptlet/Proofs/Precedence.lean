import Scriptlet.Evaluation.Run

/-!
# Scriptlet — operator precedence

An expression is a flat sequence of operands and operators. Its meaning is
that of its *precedence tree*: a lone operand is a leaf, and a longer
sequence splits at the rightmost operator of least priority, with the terms
to the left of that operator below it on the left and the terms to the right
of it below it on the right.

The evaluator never builds this tree. It brings the terms into postfix order
with a stack of waiting operators and works through them with a stack of
values. The two agree as computations, so in value, in the first fault, in
the state and in the order of host calls:

* `splitLeast_eq_some_iff` — the split is the one described above;
* `fold_ofRest` — working through the postfix form of some terms, in front
  of whatever follows, runs their tree and puts its value on the stack;
* `Expr.eval_runs_precedence_tree` — the evaluator is the reference
  evaluator, which knows trees only, and its answer to malformed items is
  never used.
-/

namespace Scriptlet

/-- The operands of an expression with the operators above them. -/
inductive PrecedenceTree (α : Type) where
  | leaf (operand : α)
  | node (op : Operator) (lhs rhs : PrecedenceTree α)

namespace PrecedenceTree

variable {α β : Type}

-- ---------------------------------------------------------------------------
-- The split
-- ---------------------------------------------------------------------------

/-- Splits terms at the rightmost operator of least priority: the terms
before it, the operator with its operand, and the terms after it. -/
def splitLeast : List (Operator × α) →
    Option (List (Operator × α) × (Operator × α) × List (Operator × α))
  | [] => none
  | term :: rest =>
    match splitLeast rest with
    | none => some ([], term, [])
    | some (before, least, after) =>
      if least.1.priority ≤ term.1.priority then some (term :: before, least, after)
      else some ([], term, rest)

/-- Only the empty sequence has no split. -/
theorem splitLeast_eq_none {terms : List (Operator × α)}
    (h : splitLeast terms = none) : terms = [] := by
  cases terms with
  | nil => rfl
  | cons term rest =>
    rw [splitLeast] at h
    split at h
    · cases h
    · split at h <;> cases h

/-- What a split gives: the terms back in order, no operator before it that
binds less tightly, and only tighter ones after it. -/
theorem splitLeast_spec {terms before after : List (Operator × α)} {least : Operator × α}
    (h : splitLeast terms = some (before, least, after)) :
    terms = before ++ least :: after ∧
      (∀ term ∈ before, least.1.priority ≤ term.1.priority) ∧
      (∀ term ∈ after, least.1.priority < term.1.priority) := by
  -- term by term from the left: the split of the rest is that of the whole, unless the first
  -- operator is below it
  induction terms generalizing before least after with
  | nil => cases h
  | cons term rest ih =>
    rw [splitLeast] at h
    split at h
    · next hNone =>
      cases h
      rw [splitLeast_eq_none hNone]
      simp
    · next inner hd tl hSome =>
      obtain ⟨hRest, hBefore, hAfter⟩ := ih hSome
      split at h
      · next hLe =>
        cases h
        refine ⟨by rw [hRest, List.cons_append], ?_, hAfter⟩
        intro t ht
        rcases List.mem_cons.mp ht with rfl | ht
        · exact hLe
        · exact hBefore t ht
      · -- the first operator is below every later one
        next hLt =>
        cases h
        refine ⟨rfl, by simp, ?_⟩
        intro t ht
        have hMin : hd.1.priority ≤ t.1.priority := by
          rw [hRest] at ht
          rcases List.mem_append.mp ht with ht | ht
          · exact hBefore t ht
          · rcases List.mem_cons.mp ht with rfl | ht
            · exact Nat.le_refl _
            · exact Nat.le_of_lt (hAfter t ht)
        omega

/-- Two splits of one sequence at a rightmost operator of least priority are
the same. -/
private theorem split_unique {before before' after after' : List (Operator × α)}
    {least least' : Operator × α}
    (hEq : before ++ least :: after = before' ++ least' :: after')
    (hBefore : ∀ term ∈ before, least.1.priority ≤ term.1.priority)
    (hAfter : ∀ term ∈ after, least.1.priority < term.1.priority)
    (hBefore' : ∀ term ∈ before', least'.1.priority ≤ term.1.priority)
    (hAfter' : ∀ term ∈ after', least'.1.priority < term.1.priority) :
    before = before' ∧ least = least' ∧ after = after' := by
  rcases List.append_eq_append_iff.mp hEq with ⟨mid, rfl, hMid⟩ | ⟨mid, rfl, hMid⟩
  · cases mid with
    | nil => simp_all
    | cons t mid =>
      -- `least` would stand both before and, more tightly, after `least'`
      simp only [List.cons_append, List.cons.injEq] at hMid
      obtain ⟨rfl, rfl⟩ := hMid
      have h₁ := hBefore' least (by simp)
      have h₂ := hAfter least' (by simp)
      omega
  · cases mid with
    | nil => simp_all
    | cons t mid =>
      simp only [List.cons_append, List.cons.injEq] at hMid
      obtain ⟨rfl, rfl⟩ := hMid
      have h₁ := hBefore least' (by simp)
      have h₂ := hAfter' least (by simp)
      omega

/-- **The split is at the rightmost operator of least priority**, and there
is only one such split. -/
theorem splitLeast_eq_some_iff {terms before after : List (Operator × α)}
    {least : Operator × α} :
    splitLeast terms = some (before, least, after) ↔
      terms = before ++ least :: after ∧
        (∀ term ∈ before, least.1.priority ≤ term.1.priority) ∧
        (∀ term ∈ after, least.1.priority < term.1.priority) := by
  refine ⟨splitLeast_spec, ?_⟩
  rintro ⟨hTerms, hBefore, hAfter⟩
  cases h : splitLeast terms with
  | none =>
    rw [splitLeast_eq_none h] at hTerms
    simp at hTerms
  | some split =>
    obtain ⟨before', least', after'⟩ := split
    obtain ⟨hTerms', hBefore', hAfter'⟩ := splitLeast_spec h
    obtain ⟨rfl, rfl, rfl⟩ :=
      split_unique (hTerms'.symm.trans hTerms) hBefore' hAfter' hBefore hAfter
    rfl

-- ---------------------------------------------------------------------------
-- The tree
-- ---------------------------------------------------------------------------

/-- The precedence tree of a first operand and the terms after it. -/
def ofTerms (first : α) (rest : List (Operator × α)) : PrecedenceTree α :=
  match _h : splitLeast rest with
  | none => .leaf first
  | some (before, (op, a), after) => .node op (ofTerms first before) (ofTerms a after)
termination_by rest.length
decreasing_by
  all_goals
    rw [(splitLeast_spec _h).1, List.length_append, List.length_cons]
    omega

/-- A lone operand is a leaf. -/
theorem ofTerms_nil (first : α) : ofTerms first [] = .leaf first := by
  rw [ofTerms]
  rfl

/-- The tree of a sequence is a node at its split. -/
theorem ofTerms_split {first a : α} {op : Operator} {before after : List (Operator × α)}
    (hBefore : ∀ term ∈ before, op.priority ≤ term.1.priority)
    (hAfter : ∀ term ∈ after, op.priority < term.1.priority) :
    ofTerms first (before ++ (op, a) :: after) =
      .node op (ofTerms first before) (ofTerms a after) := by
  have hSplit : splitLeast (before ++ (op, a) :: after) = some (before, (op, a), after) :=
    splitLeast_eq_some_iff.mpr ⟨rfl, hBefore, hAfter⟩
  rw [ofTerms]
  split
  · next h => rw [hSplit] at h; cases h
  · next h => rw [hSplit] at h; cases h; rfl

/-- A rule that holds of a lone operand and passes from both sides of a split
to the whole holds of all terms. -/
theorem terms_induction {P : α → List (Operator × α) → Prop}
    (leaf : ∀ first, P first [])
    (node : ∀ first before op a after,
      (∀ term ∈ before, op.priority ≤ term.1.priority) →
      (∀ term ∈ after, op.priority < term.1.priority) →
      P first before → P a after → P first (before ++ (op, a) :: after))
    (first : α) (rest : List (Operator × α)) : P first rest := by
  -- along the splits that make the tree
  induction first, rest using ofTerms.induct with
  | case1 first rest h =>
    rw [splitLeast_eq_none h]
    exact leaf first
  | case2 first rest before op a after h ihBefore ihAfter =>
    obtain ⟨rfl, hBefore, hAfter⟩ := splitLeast_spec h
    exact node first before op a after hBefore hAfter ihBefore ihAfter

/-- Applies a function to every operand. -/
def map (f : α → β) : PrecedenceTree α → PrecedenceTree β
  | leaf a => leaf (f a)
  | node op lhs rhs => node op (lhs.map f) (rhs.map f)

/-- The operands from left to right. -/
def operands : PrecedenceTree α → List α
  | leaf a => [a]
  | node _ lhs rhs => lhs.operands ++ rhs.operands

/-- The shape of the tree depends on the operators alone. -/
theorem map_ofTerms (f : α → β) (first : α) (rest : List (Operator × α)) :
    (ofTerms first rest).map f = ofTerms (f first) (rest.map (Prod.map id f)) := by
  induction first, rest using terms_induction with
  | leaf first => simp only [ofTerms_nil, List.map_nil, map]
  | node first before op a after hBefore hAfter ihBefore ihAfter =>
    rw [ofTerms_split hBefore hAfter, map, ihBefore, ihAfter, List.map_append, List.map_cons]
    refine (ofTerms_split ?_ ?_).symm
    · intro term hTerm
      obtain ⟨origin, hOrigin, rfl⟩ := List.mem_map.mp hTerm
      exact hBefore origin hOrigin
    · intro term hTerm
      obtain ⟨origin, hOrigin, rfl⟩ := List.mem_map.mp hTerm
      exact hAfter origin hOrigin

/-- The tree has the operands of the sequence, each once and in order. -/
theorem operands_ofTerms (first : α) (rest : List (Operator × α)) :
    (ofTerms first rest).operands = first :: rest.map Prod.snd := by
  induction first, rest using terms_induction with
  | leaf first => simp only [ofTerms_nil, operands, List.map_nil]
  | node first before op a after hBefore hAfter ihBefore ihAfter =>
    rw [ofTerms_split hBefore hAfter, operands, ihBefore, ihAfter, List.map_append,
      List.map_cons, List.cons_append]

end PrecedenceTree

-- ---------------------------------------------------------------------------
-- Running a tree, and working through its postfix form
-- ---------------------------------------------------------------------------

section Run

variable {m : Type → Type} [Monad m] {α : Type}

/-- Runs a tree whose operands are computations: the left side, the right
side, then the operator. -/
def PrecedenceTree.run (apply : Operator → α → α → m α) : PrecedenceTree (m α) → m α
  | .leaf a => a
  | .node op lhs rhs => do
    let left ← lhs.run apply
    let right ← rhs.run apply
    apply op left right

/-- An operator that does not bind tighter than the waiting one sends it out
first, and so does the end of the terms. -/
theorem Postfix.ofRest_of_yields {β : Type} {waiting : List Operator} {op : Operator}
    {more : List (Operator × β)}
    (h : ∀ next ∈ more.head?, next.1.priority ≤ op.priority) :
    Postfix.ofRest (op :: waiting) more = .operator op :: Postfix.ofRest waiting more := by
  cases more with
  | nil => rfl
  | cons next more =>
    have hYields : Postfix.yields next.1 op = true := by
      simpa [Postfix.yields] using h
    simp [Postfix.ofRest, hYields]

/-- An operator that binds tighter than all that wait starts to wait with
them. -/
theorem Postfix.ofRest_of_tighter {β : Type} {waiting : List Operator} {op : Operator} {a : β}
    {more : List (Operator × β)} (h : ∀ w ∈ waiting, w.priority < op.priority) :
    Postfix.ofRest waiting ((op, a) :: more) =
      .operand a :: Postfix.ofRest (op :: waiting) more := by
  cases waiting with
  | nil => simp [Postfix.ofRest]
  | cons w waiting =>
    have hStays : Postfix.yields op w = false := by
      have := h w List.mem_cons_self
      simpa [Postfix.yields] using this
    simp [Postfix.ofRest, hStays]

variable [LawfulMonad m] (apply : Operator → α → α → m α) (malformed : m α)

/--
**Working through postfix items runs the tree.** The terms `first` and `rest`
stand in front of further terms `more`. If every operator of `rest` binds
tighter than those that wait, and the operator after it does not bind tighter
than any of them, then the items of these terms leave the value of their tree
on the stack and nothing else changes.
-/
theorem Postfix.fold_ofRest (first : m α) (rest : List (Operator × m α)) :
    ∀ (stack : List α) (waiting : List Operator) (more : List (Operator × m α)),
      (∀ w ∈ waiting, ∀ term ∈ rest, w.priority < term.1.priority) →
      (∀ next ∈ more.head?, ∀ term ∈ rest, next.1.priority ≤ term.1.priority) →
      Postfix.fold apply malformed stack
          (.operand first :: Postfix.ofRest waiting (rest ++ more)) = (do
        let value ← (PrecedenceTree.ofTerms first rest).run apply
        Postfix.fold apply malformed (value :: stack) (Postfix.ofRest waiting more)) := by
  -- along the splits of the tree, for any stack and whatever waits in front of the terms
  induction first, rest using PrecedenceTree.terms_induction with
  | leaf first =>
    intro stack waiting more _ _
    rw [PrecedenceTree.ofTerms_nil, PrecedenceTree.run, Postfix.fold, List.nil_append]
  | node first before op a after hBefore hAfter ihBefore ihAfter =>
    intro stack waiting more hWaiting hMore
    have hOp : (op, a) ∈ before ++ (op, a) :: after := by simp
    -- the terms before `op` are followed by `op`, which binds no tighter
    rw [List.append_assoc, List.cons_append,
      ihBefore stack waiting ((op, a) :: (after ++ more))
        (fun w hw term hTerm => hWaiting w hw term (List.mem_append_left _ hTerm))
        (by simpa using hBefore)]
    -- the terms after `op` are read while `op` waits
    have hRight : ∀ left : α, Postfix.fold apply malformed (left :: stack)
          (Postfix.ofRest waiting ((op, a) :: (after ++ more))) = (do
        let right ← (PrecedenceTree.ofTerms a after).run apply
        Postfix.fold apply malformed (right :: left :: stack)
          (Postfix.ofRest (op :: waiting) more)) := by
      intro left
      rw [Postfix.ofRest_of_tighter fun w hw => hWaiting w hw _ hOp]
      refine ihAfter (left :: stack) (op :: waiting) more ?_ ?_
      · intro w hw term hTerm
        rcases List.mem_cons.mp hw with rfl | hw
        · exact hAfter term hTerm
        · exact hWaiting w hw term (by simp [hTerm])
      · intro next hNext term hTerm
        exact hMore next hNext term (by simp [hTerm])
    -- whatever follows sends `op` out with both sides on the stack
    have hOut : Postfix.ofRest (op :: waiting) more =
        .operator op :: Postfix.ofRest waiting more :=
      Postfix.ofRest_of_yields fun next hNext => hMore next hNext _ hOp
    rw [PrecedenceTree.ofTerms_split hBefore hAfter]
    simp only [hRight, hOut, PrecedenceTree.run, Postfix.fold, bind_assoc]

/-- The postfix form of a whole expression runs its tree, whatever the answer
to malformed items would be. -/
theorem Postfix.fold_ofTerms (first : m α) (rest : List (Operator × m α)) :
    Postfix.fold apply malformed [] (Postfix.ofTerms first rest) =
      (PrecedenceTree.ofTerms first rest).run apply := by
  have h := Postfix.fold_ofRest apply malformed first rest [] [] [] (by simp) (by simp)
  simpa only [List.append_nil, Postfix.ofTerms, Postfix.ofRest, List.map_nil, Postfix.fold,
    bind_pure] using h

end Run

-- ---------------------------------------------------------------------------
-- The reference evaluator
-- ---------------------------------------------------------------------------

/-- The precedence tree of an expression. -/
def Expr.tree (e : Expr) : PrecedenceTree Operand :=
  .ofTerms e.first e.rest

variable {σ : Type}

/-- What an operator does inside an expression on the given line. -/
def Operator.applyAt (line : Nat) (op : Operator) (lhs rhs : Value) : Eval σ Value :=
  Eval.atLine line (op.apply lhs rhs)

mutual

/-- The reference evaluation of an operand. -/
def Operand.reference (call : Caller σ) : Operand → Eval σ Value
  | .ident name line => Eval.read name line
  | .number value => pure (.int value)
  | .text content => pure (.text content)
  | .call callee args line => do
    let values ← Expr.referenceAll call args
    call callee values (some line)
  | .group inner => inner.reference call

/-- The reference evaluation of an expression: its precedence tree is run,
and the result goes to the target if there is one. -/
def Expr.reference (call : Caller σ) : Expr → Eval σ Value
  | ⟨target, first, rest, line⟩ => do
    let tree := PrecedenceTree.ofTerms (first.reference call) (Expr.referenceTerms call rest)
    let result ← tree.run (Operator.applyAt line)
    Eval.assign target result
    return result

/-- The reference evaluation of expressions from left to right. -/
def Expr.referenceAll (call : Caller σ) : List Expr → Eval σ (List Value)
  | [] => pure []
  | e :: es => do
    let value ← e.reference call
    let values ← Expr.referenceAll call es
    return value :: values

/-- The operators of an expression with the reference evaluation of the
operands after them. -/
def Expr.referenceTerms (call : Caller σ) :
    List (Operator × Operand) → List (Operator × Eval σ Value)
  | [] => []
  | (op, operand) :: rest => (op, operand.reference call) :: Expr.referenceTerms call rest

end

/-- The operands of an expression are evaluated, and its operators stay where
they are. -/
theorem Expr.terms_eq_map (setting : Setting σ) (rest : List (Operator × Operand)) :
    Expr.terms setting rest = rest.map (Prod.map id (Operand.eval setting)) := by
  induction rest with
  | nil => rw [Expr.terms, List.map_nil]
  | cons term rest ih =>
    obtain ⟨op, operand⟩ := term
    rw [Expr.terms, ih, List.map_cons]
    rfl

/-- So it is in the reference evaluation. -/
theorem Expr.referenceTerms_eq_map (call : Caller σ) (rest : List (Operator × Operand)) :
    Expr.referenceTerms call rest = rest.map (Prod.map id (Operand.reference call)) := by
  induction rest with
  | nil => rw [Expr.referenceTerms, List.map_nil]
  | cons term rest ih =>
    obtain ⟨op, operand⟩ := term
    rw [Expr.referenceTerms, ih, List.map_cons]
    rfl

/-- The reference evaluation in terms of the tree of operands. -/
theorem Expr.reference_eq_run_tree (call : Caller σ) (e : Expr) :
    e.reference call = (do
      let result ← (e.tree.map (Operand.reference call)).run (Operator.applyAt e.line)
      Eval.assign e.target result
      return result) := by
  obtain ⟨target, first, rest, line⟩ := e
  rw [Expr.reference, Expr.tree, PrecedenceTree.map_ofTerms, Expr.referenceTerms_eq_map]

/-- The fold that the evaluator performs runs the tree of the operands'
evaluations. -/
theorem Expr.fold_eq_run_tree (setting : Setting σ) (e : Expr) (malformed : Eval σ Value) :
    Postfix.fold (Operator.applyAt e.line) malformed []
        (Postfix.ofTerms (e.first.eval setting) (Expr.terms setting e.rest)) =
      (e.tree.map (Operand.eval setting)).run (Operator.applyAt e.line) := by
  rw [Postfix.fold_ofTerms, Expr.terms_eq_map, Expr.tree, PrecedenceTree.map_ofTerms]

mutual

/-- An operand is evaluated as in the reference evaluation. -/
theorem Operand.eval_eq (call : Caller σ) : (operand : Operand) →
    operand.eval call = operand.reference call
  | .ident name line => by rw [Operand.eval, Operand.reference]
  | .number value => by rw [Operand.eval, Operand.reference]
  | .text content => by rw [Operand.eval, Operand.reference]
  | .call callee args line => by rw [Operand.eval, Operand.reference, Expr.evalAll_eq call args]
  | .group inner => by rw [Operand.eval, Operand.reference, Expr.eval_eq call inner]

/-- **An expression is evaluated as in the reference evaluation.** -/
theorem Expr.eval_eq (call : Caller σ) : (e : Expr) → e.eval call = e.reference call
  | ⟨target, first, rest, line⟩ => by
    rw [Expr.eval, Setting.around_idle, Expr.reference, Operand.eval_eq call first,
      Expr.terms_eq call rest]
    -- both sides have the same terms now; one works through their postfix form, the other runs
    -- their tree
    show Postfix.fold (Operator.applyAt line) (Expr.malformed ⟨target, first, rest, line⟩) []
      (Postfix.ofTerms (first.reference call) (Expr.referenceTerms call rest)) >>= _ = _
    rw [Postfix.fold_ofTerms]

/-- So are the arguments of a call. -/
theorem Expr.evalAll_eq (call : Caller σ) : (es : List Expr) →
    Expr.evalAll call es = Expr.referenceAll call es
  | [] => by rw [Expr.evalAll, Expr.referenceAll]
  | e :: es => by
    rw [Expr.evalAll, Expr.referenceAll, Expr.eval_eq call e, Expr.evalAll_eq call es]

/-- So are the operands behind operators. -/
theorem Expr.terms_eq (call : Caller σ) : (rest : List (Operator × Operand)) →
    Expr.terms call rest = Expr.referenceTerms call rest
  | [] => by rw [Expr.terms, Expr.referenceTerms]
  | (op, operand) :: rest => by
    rw [Expr.terms, Expr.referenceTerms, Operand.eval_eq call operand, Expr.terms_eq call rest]

end

/--
**Evaluation is by precedence tree.** For every expression and however calls
by name behave, the evaluator does what the reference evaluator does: it runs
the expression's precedence tree, whose operands are those of the expression
in their order, and writes the result to the target. What the evaluator would
answer to malformed items has no influence.
-/
theorem Expr.eval_runs_precedence_tree (call : Caller σ) (e : Expr) :
    e.eval call = e.reference call ∧
    e.reference call = (do
      let result ← (e.tree.map (Operand.reference call)).run (Operator.applyAt e.line)
      Eval.assign e.target result
      return result) ∧
    e.tree.operands = e.first :: e.rest.map Prod.snd ∧
    ∀ malformed : Eval σ Value,
      Postfix.fold (Operator.applyAt e.line) malformed []
          (Postfix.ofTerms (e.first.eval call) (Expr.terms call e.rest)) =
        (e.tree.map (Operand.reference call)).run (Operator.applyAt e.line) := by
  refine ⟨Expr.eval_eq call e, Expr.reference_eq_run_tree call e,
    PrecedenceTree.operands_ofTerms e.first e.rest, ?_⟩
  intro malformed
  have hOperand : Operand.eval (call : Setting σ) = Operand.reference call :=
    funext (Operand.eval_eq call)
  rw [Expr.fold_eq_run_tree, hOperand]

end Scriptlet
