import Scriptlet.Proofs.Concatenation

/-!
# Scriptlet — the lines of a tree in order

The nodes of a syntax tree, each before its parts and the parts in the order in
which they are written, start at tokens of the text, one not before the other.
Every node that has a line has that of the token it starts at. So the lines of a
tree never go back.

* `Stmt.nodes`, `Expr.nodes`, `Operand.nodes` — the nodes of a tree in this
  order;
* `Node.StartsAt` — a node and its first token;
* `Node.InOrder` — nodes that start one after the other;
* `Derivation.inOrder` — the nodes of a derivation's tree do;
* `Program.lines_in_order` — the main result.
-/

namespace Scriptlet

-- ---------------------------------------------------------------------------
-- The nodes of a tree
-- ---------------------------------------------------------------------------

/-- A node of a syntax tree, with all that is below it. -/
inductive Node where
  | operand (a : Operand)
  | expr (e : Expr)
  | stmt (s : Stmt)

/-- The line of a node, if it has one. -/
def Node.line? : Node → Option Nat
  | operand (.ident _ line) => some line
  | operand (.call _ _ line) => some line
  | operand _ => none
  | expr e => some e.line
  | stmt s => some s.line

mutual

/-- The nodes of an operand: the operand, and what it has in it. -/
def Operand.nodes : Operand → List Node
  | .ident name line => [.operand (.ident name line)]
  | .number value => [.operand (.number value)]
  | .text content => [.operand (.text content)]
  | .call callee args line => .operand (.call callee args line) :: Expr.nodesAll args
  | .group inner => .operand (.group inner) :: inner.nodes

/-- The nodes of an expression: the expression, and then its operands. -/
def Expr.nodes : Expr → List Node
  | ⟨target, first, rest, line⟩ =>
    .expr ⟨target, first, rest, line⟩ :: (first.nodes ++ Expr.nodesRest rest)

/-- The nodes of expressions one after the other. -/
def Expr.nodesAll : List Expr → List Node
  | [] => []
  | e :: es => e.nodes ++ Expr.nodesAll es

/-- The nodes of the operands behind the operators. -/
def Expr.nodesRest : List (Operator × Operand) → List Node
  | [] => []
  | (_, operand) :: rest => operand.nodes ++ Expr.nodesRest rest

end

mutual

/-- The nodes of a statement: the statement, and then its parts. -/
def Stmt.nodes : Stmt → List Node
  | .expr value => .stmt (.expr value) :: value.nodes
  | .branch condition thenBody none line =>
    .stmt (.branch condition thenBody none line) :: (condition.nodes ++ Stmt.nodesAll thenBody)
  | .branch condition thenBody (some elseBody) line =>
    .stmt (.branch condition thenBody (some elseBody) line) ::
      (condition.nodes ++ (Stmt.nodesAll thenBody ++ Stmt.nodesAll elseBody))
  | .loop condition body line =>
    .stmt (.loop condition body line) :: (condition.nodes ++ Stmt.nodesAll body)
  | .ret result line => .stmt (.ret result line) :: result.nodes
  | .define name params body line => .stmt (.define name params body line) :: Stmt.nodesAll body

/-- The nodes of statements one after the other. -/
def Stmt.nodesAll : List Stmt → List Node
  | [] => []
  | s :: ss => s.nodes ++ Stmt.nodesAll ss

end

/-- The lines of a program's nodes, each node before its parts. -/
def Program.lines (program : Program) : List Nat :=
  (Stmt.nodesAll program).filterMap Node.line?

-- ---------------------------------------------------------------------------
-- Where nodes start
-- ---------------------------------------------------------------------------

/-- The tokens of `input` in front of `rest` derive from the grammar with the node
as their tree. -/
inductive Node.Derives : Node → List Token → List Token → Prop
  | operand {a : Operand} {input rest : List Token} (d : Derivation .factor input a rest) :
    Node.Derives (.operand a) input rest
  | expr {e : Expr} {input rest : List Token} (d : Derivation .expr input e rest) :
    Node.Derives (.expr e) input rest
  | stmt {outermost : Bool} {s : Stmt} {input rest : List Token}
    (d : Derivation (.statement outermost) input s rest) : Node.Derives (.stmt s) input rest

/-- The token is the first of those that the node derives from, and the node has its
line. In an assignment the token is the name of the target. -/
structure Node.StartsAt (node : Node) (token : Token) (behind : List Token) : Prop where
  derives : ∃ rest, node.Derives (token :: behind) rest
  line : ∀ line, node.line? = some line → line = token.line
  target : ∀ e name, node = .expr e → e.target = some name → token.kind = .identifier name

/-- The nodes start one after the other, or at one token, in `input`, and the last
does so not behind the beginning of `rest`. -/
inductive Node.InOrder : List Node → List Token → List Token → Prop
  | nil {input rest : List Token} (h : rest <:+ input) : Node.InOrder [] input rest
  | cons {node : Node} {nodes : List Node} {token : Token} {behind input rest : List Token}
    (hHere : token :: behind <:+ input) (hStarts : node.StartsAt token behind)
    (h : Node.InOrder nodes (token :: behind) rest) : Node.InOrder (node :: nodes) input rest

namespace Node.InOrder

variable {nodes more : List Node} {node : Node} {token : Token} {behind input mid rest : List Token}

/-- A node at the first token of all, and its parts behind it. -/
theorem first (hStarts : node.StartsAt token behind) (h : InOrder nodes (token :: behind) rest) :
    InOrder (node :: nodes) (token :: behind) rest :=
  .cons List.suffix_rfl hStarts h

theorem mono (h : InOrder nodes input rest) (hInput : input <:+ mid) : InOrder nodes mid rest := by
  cases h with
  | nil hRest => exact .nil (hRest.trans hInput)
  | cons hHere hStarts hLater => exact .cons (hHere.trans hInput) hStarts hLater

/-- **Nodes in order before nodes in order are in order.** -/
theorem append (h : InOrder nodes input mid) (h' : InOrder more mid rest) :
    InOrder (nodes ++ more) input rest := by
  -- induction on the nodes in front, whose last one ends at `mid` or before
  induction h with
  | nil hMid => exact h'.mono hMid
  | cons hHere hStarts _ ih => exact .cons hHere hStarts (ih h')

/-- A token that belongs to no node may stand in front. -/
theorem skip (h : InOrder nodes input rest) (token : Token) : InOrder nodes (token :: input) rest :=
  h.mono (List.suffix_cons token input)

/-- A token that belongs to no node may stand behind. -/
theorem pass (h : InOrder nodes input (token :: rest)) : InOrder nodes input rest := by
  have hAppend := h.append (.nil (List.suffix_cons token rest))
  rwa [List.append_nil] at hAppend

end Node.InOrder

/-- An expression starts at a token that has its line. -/
theorem Derivation.starts_expr {e : Expr} {input rest : List Token}
    (d : Derivation .expr input e rest) :
    ∃ token behind, input = token :: behind ∧ (Node.expr e).StartsAt token behind := by
  -- an expression starts at its target, or at its first operand if it has none
  cases id d with
  | expr goal operand more ending =>
    refine ⟨_, _, rfl, ⟨_, .expr d⟩, ?_, ?_⟩
    -- the target is the name at the first token
    · rintro _ ⟨⟩
      rfl
    · rintro _ name ⟨⟩ ⟨⟩
      cases goal
      rfl

/-- A statement starts at a token that has its line. -/
theorem Derivation.starts_stmt {outermost : Bool} {s : Stmt} {input rest : List Token}
    (d : Derivation (.statement outermost) input s rest) :
    ∃ token behind, input = token :: behind ∧ (Node.stmt s).StartsAt token behind := by
  cases id d with
  | loop | branch | ret | define =>
    refine ⟨_, _, rfl, ⟨_, .stmt d⟩, ?_, nofun⟩
    rintro _ ⟨⟩
    rfl
  -- a statement of one expression starts where the expression does
  | plain value =>
    obtain ⟨token, behind, rfl, hStarts⟩ := value.starts_expr
    exact ⟨token, behind, rfl, ⟨_, .stmt d⟩, hStarts.line, nofun⟩

/-- The nodes in the tree of a derivation. -/
def Nonterminal.nodes : (n : Nonterminal) → n.Tree → List Node
  | .factor, a => a.nodes
  | .arguments, args => Expr.nodesAll args
  | .moreArguments, args => Expr.nodesAll args
  | .operations, rest => Expr.nodesRest rest
  | .expr, e => e.nodes
  | .alternative, none => []
  | .alternative, some items => Stmt.nodesAll items
  | .statement _, s => s.nodes
  | .block _, items => Stmt.nodesAll items
  | .program, items => Stmt.nodesAll items
  | _, _ => []

/-- **The nodes of a tree start in the order in which they are written.** -/
theorem Derivation.inOrder {n : Nonterminal} {input rest : List Token} {tree : n.Tree}
    (d : Derivation n input tree rest) : Node.InOrder (n.nodes tree) input rest := by
  -- one case for each rule of the grammar: the tokens that it takes itself belong to no node
  induction d with
  | name =>
    refine .first ⟨⟨_, .operand .name⟩, ?_, nofun⟩ (.nil (List.suffix_cons _ _))
    rintro _ ⟨⟩
    rfl
  | number => exact .first ⟨⟨_, .operand .number⟩, nofun, nofun⟩ (.nil (List.suffix_cons _ _))
  | text => exact .first ⟨⟨_, .operand .text⟩, nofun, nofun⟩ (.nil (List.suffix_cons _ _))
  | group inner ih =>
    simp only [Nonterminal.nodes, Operand.nodes]
    exact .first ⟨⟨_, .operand (.group inner)⟩, nofun, nofun⟩ (ih.pass.skip _)
  | call inner ih =>
    simp only [Nonterminal.nodes, Operand.nodes]
    refine .first ⟨⟨_, .operand (.call inner)⟩, ?_, nofun⟩ ((ih.pass.skip _).skip _)
    rintro _ ⟨⟩
    rfl
  -- nothing is taken, and no node is there
  | noArgument | noTarget | noOperation | noElse | blockEnd | lookahead =>
    exact .nil List.suffix_rfl
  | someArguments _ ih => exact ih
  | lastArgument _ ih =>
    simp only [Nonterminal.nodes, Expr.nodesAll, List.append_nil]
    exact ih
  | argument _ _ ihArg ihMore =>
    simp only [Nonterminal.nodes, Expr.nodesAll]
    exact ihArg.pass.append ihMore
  | target | noParameters =>
    exact .nil ((List.suffix_cons _ _).trans (List.suffix_cons _ _))
  | operation _ _ ihOperand ihMore =>
    simp only [Nonterminal.nodes, Expr.nodesRest]
    exact (ihOperand.append ihMore).skip _
  | semicolon | lastName => exact .nil (List.suffix_cons _ _)
  | expr goal operand more ending ihGoal ihOperand ihMore ihEnding =>
    obtain ⟨_, _, ⟨⟩, hStarts⟩ := (Derivation.expr goal operand more ending).starts_expr
    simp only [Nonterminal.nodes, Expr.nodes]
    -- the target and the end of the expression have no nodes
    have hParts := (ihGoal.append ihOperand).append (ihMore.append ihEnding)
    simp only [Nonterminal.nodes, List.nil_append, List.append_nil] at hParts
    exact .first hStarts hParts
  | param _ ih => exact (ih.skip _).skip _
  | parameters _ ih => exact ih.pass.skip _
  | otherwise _ ih => exact ih.skip _
  | @loop outermost c items l _ _ _ _ _ _ condition body ihCondition ihBody =>
    have d : Derivation (.statement outermost) _ (.loop c items l) _ := .loop condition body
    obtain ⟨_, _, ⟨⟩, hStarts⟩ := d.starts_stmt
    -- `while`, then the condition, `do`, the body and `end` with its semicolon
    simp only [Nonterminal.nodes, Stmt.nodes]
    exact .first hStarts ((ihCondition.pass.append ihBody.pass.pass).skip _)
  | @branch outermost c items other l _ _ _ _ _ _ _ condition body alternative ihCondition
      ihBody ihElse =>
    have d : Derivation (.statement outermost) _ (.branch c items other l) _ :=
      .branch condition body alternative
    obtain ⟨_, _, ⟨⟩, hStarts⟩ := d.starts_stmt
    -- the branches share a derivation, in which a missing `else` has no nodes
    have hParts := ihCondition.pass.append (ihBody.append ihElse.pass.pass)
    cases other with
    | none =>
      simp only [Nonterminal.nodes, Stmt.nodes, List.append_nil] at hParts ⊢
      exact .first hStarts (hParts.skip _)
    | some items =>
      simp only [Nonterminal.nodes, Stmt.nodes] at hParts ⊢
      exact .first hStarts (hParts.skip _)
  | @ret outermost e l _ _ result ih =>
    have d : Derivation (.statement outermost) _ (.ret e l) _ := .ret result
    obtain ⟨_, _, ⟨⟩, hStarts⟩ := d.starts_stmt
    simp only [Nonterminal.nodes, Stmt.nodes]
    exact .first hStarts (ih.skip _)
  | @define x xs items l l₁ _ _ _ _ _ _ params body ihParams ihBody =>
    have d : Derivation (.statement true) (⟨.keyword .defWord, l⟩ :: ⟨.identifier x, l₁⟩ :: _)
        (.define x xs items l) _ := .define params body
    obtain ⟨_, _, ⟨⟩, hStarts⟩ := d.starts_stmt
    -- the name of the function stands between `def` and the parameters, and has no node
    simp only [Nonterminal.nodes, Stmt.nodes]
    exact .first hStarts (((ihParams.pass.append ihBody.pass.pass).skip _).skip _)
  | @plain outermost e _ _ value ih =>
    have d : Derivation (.statement outermost) _ (.expr e) _ := .plain value
    obtain ⟨token, behind, rfl, hStarts⟩ := d.starts_stmt
    simp only [Nonterminal.nodes, Stmt.nodes]
    exact .first hStarts ih
  | item _ _ ihFirst ihMore =>
    simp only [Nonterminal.nodes, Stmt.nodesAll]
    exact ihFirst.append ihMore
  | program _ ih => exact ih.pass

-- ---------------------------------------------------------------------------
-- Main result
-- ---------------------------------------------------------------------------

/-- **Nodes that start in order have lines in order**, and they are lines of
tokens. -/
theorem Node.InOrder.lines {nodes : List Node} {input rest : List Token}
    (h : Node.InOrder nodes input rest)
    (hInput : input.Pairwise fun first later => first.line ≤ later.line) :
    (nodes.filterMap Node.line?).Pairwise (· ≤ ·) ∧
      ∀ line ∈ nodes.filterMap Node.line?, ∃ token ∈ input, token.line = line := by
  -- induction on the nodes: each starts at a token that the later ones do not start before
  induction h with
  | nil => exact ⟨.nil, nofun⟩
  | @cons node nodes token behind input rest hHere hStarts _ ih =>
    -- the order of the tokens behind a node is that of the whole list
    have hTokens := hInput.sublist hHere.sublist
    obtain ⟨hOrder, hLines⟩ := ih hTokens
    have hOld : ∀ line ∈ nodes.filterMap Node.line?, ∃ token ∈ input, token.line = line := by
      intro line hLine
      obtain ⟨later, hMem, hSame⟩ := hLines line hLine
      exact ⟨later, hHere.mem hMem, hSame⟩
    cases hNode : node.line? with
    -- a node without a line adds none
    | none =>
      rw [List.filterMap_cons_none hNode]
      exact ⟨hOrder, hOld⟩
    | some line =>
      rw [List.filterMap_cons_some hNode]
      obtain rfl := hStarts.line line hNode
      refine ⟨List.pairwise_cons.mpr ⟨?_, hOrder⟩, List.forall_mem_cons.mpr ⟨?_, hOld⟩⟩
      · intro line hLine
        -- the line of a later node is that of this token, or of one behind it
        obtain ⟨later, hMem, rfl⟩ := hLines line hLine
        rcases List.mem_cons.mp hMem with rfl | hBehind
        · exact Nat.le_refl _
        · exact List.rel_of_pairwise_cons hTokens hBehind
      · exact ⟨token, hHere.mem List.mem_cons_self, rfl⟩

/-- **The lines of a tree never go back.** If a text parses, then the lines of the
nodes of its tree, each node before its parts and the parts as they are written,
do not decrease. They are lines of the text, counted from 1. And each node has the
line of its first token: the nodes start, one after the other, at tokens of the
text from which they derive and which have their lines, an assignment at the name
of its target. -/
theorem Program.lines_in_order {source : String} {program : Program}
    (h : outcome (Program.parse source) = .ok program) :
    program.lines.Pairwise (· ≤ ·) ∧
    (∀ line ∈ program.lines, 1 ≤ line ∧ line ≤ (Text.lines source.toList).length) ∧
    ∃ tokens last, outcome (tokenize source) = .ok (tokens ++ [last]) ∧ last.kind = .eof ∧
      Node.InOrder (Stmt.nodesAll program) tokens [] := by
  obtain ⟨⟨n, hEnding⟩, ⟨d⟩⟩ := (Scanner.parse_eq_ok_iff (Scanner.isEof_ofSource source)).mp h
  have hNodes : Node.InOrder (Stmt.nodesAll program) (Scanner.ofSource source).stream.tokens [] :=
    d.inOrder
  obtain ⟨hOrder, hLines⟩ := hNodes.lines (Scanner.ahead_inOrder 0 (Text.lines source.toList))
  refine ⟨hOrder, ?_, _, ⟨.eof, n⟩, ?_, rfl, hNodes⟩
  · intro line hLine
    obtain ⟨token, hToken, rfl⟩ := hLines line hLine
    have hBounds := Scanner.ahead_line 0 (Text.lines source.toList) token hToken
    omega
  · have hTokens := Scanner.tokenize_spec (.ofSource source)
    rw [hEnding] at hTokens
    obtain ⟨after, hRun⟩ := hTokens
    exact congrArg outcome hRun

/-- The assignment starts on the line of its target and the call in it on the next;
`return` stands on the line on which the call ends. -/
theorem Program.lines_in_order_call :
    let source := "x =\nf(1,\ny); return\nx;"
    let program : Program :=
      [.expr ⟨some "x", .call "f" [⟨none, .number 1, [], 2⟩, ⟨none, .ident "y" 3, [], 3⟩] 2, [], 1⟩,
        .ret ⟨none, .ident "x" 4, [], 4⟩ 3]
    outcome (Program.parse source) = .ok program ∧
    program.lines = [1, 1, 2, 2, 3, 3, 3, 4, 4] ∧ program.lines.Pairwise (· ≤ ·) ∧
    (∀ line ∈ program.lines, 1 ≤ line ∧ line ≤ (Text.lines source.toList).length) ∧
    ∃ tokens last, outcome (tokenize source) = .ok (tokens ++ [last]) ∧ last.kind = .eof ∧
      Node.InOrder (Stmt.nodesAll program) tokens [] := by
  intro source program
  have hParse : outcome (Program.parse source) = .ok program := by cbv
  exact ⟨hParse, rfl, Program.lines_in_order hParse⟩

end Scriptlet
