import Scriptlet.Tree.Parse

/-!
# Scriptlet — the grammar

The grammar of programs as a type of derivations. A derivation of a
nonterminal leads from a list of tokens to the list that is left after it, and
it has a tree:

* `factor := NAME '(' [expr (',' expr)*] ')' | NAME | NUMBER | STRING | '(' expr ')'`
* `expr := [NAME '='] factor (OPERATOR factor)*`, and then a `;` that is taken
  or a `do`, `)` or `,` that is left in place
* `statement := 'while' expr 'do' block 'end' ';'`
  `| 'if' expr 'do' block ['else' block] 'end' ';' | 'return' expr | expr`
  and, in the outermost block,
  `| 'def' NAME '(' [NAME (',' NAME)*] ')' 'do' block 'end' ';'`
* `block := statement*`
* `program := block eof`

Nothing here says how a derivation is found: where a repetition ends, whether
a name is a variable or a callee and whether an expression has a target is
left open. Every node of a tree has the line of its first token.

Main result: `Derivation.heq_of_tree` — the tokens and the tree leave no
choice in a derivation.
-/

namespace Scriptlet

/-- What the derivations of a nonterminal stand for. -/
abbrev Nonterminal.Tree : Nonterminal → Type
  | factor => Operand
  | arguments => List Expr
  | moreArguments => List Expr
  | target => Option String
  | operations => List (Operator × Operand)
  | ending => Unit
  | expr => Expr
  | names => List String
  | parameters => List String
  | alternative => Option (List Stmt)
  | statement _ => Stmt
  | block _ => List Stmt
  | program => Program

/-- The tokens that end an expression and stay in place. -/
def closesExpr : TokenKind → Bool
  | .keyword .doWord | .separator .closeParen | .separator .comma => true
  | _ => false

/-- `Derivation n input tree rest`: the tokens of `input` in front of `rest`
derive from `n`, and the derivation has this tree. -/
inductive Derivation : (n : Nonterminal) → List Token → n.Tree → List Token → Type
  | name {x : String} {l : Nat} {rest : List Token} :
    Derivation .factor (⟨.identifier x, l⟩ :: rest) (.ident x l) rest
  | number {v : Int64} {l : Nat} {rest : List Token} :
    Derivation .factor (⟨.number v, l⟩ :: rest) (.number v) rest
  | text {content : String} {l : Nat} {rest : List Token} :
    Derivation .factor (⟨.text content, l⟩ :: rest) (.text content) rest
  | group {l l' : Nat} {e : Expr} {input rest : List Token}
    (inner : Derivation .expr input e (⟨.separator .closeParen, l'⟩ :: rest)) :
    Derivation .factor (⟨.separator .openParen, l⟩ :: input) (.group e) rest
  | call {x : String} {l l₁ l₂ : Nat} {args : List Expr} {input rest : List Token}
    (inner : Derivation .arguments input args (⟨.separator .closeParen, l₂⟩ :: rest)) :
    Derivation .factor (⟨.identifier x, l⟩ :: ⟨.separator .openParen, l₁⟩ :: input)
      (.call x args l) rest
  | noArgument {input : List Token} : Derivation .arguments input [] input
  | someArguments {es : List Expr} {input rest : List Token}
    (inner : Derivation .moreArguments input es rest) : Derivation .arguments input es rest
  | lastArgument {e : Expr} {input rest : List Token} (arg : Derivation .expr input e rest) :
    Derivation .moreArguments input [e] rest
  | argument {e : Expr} {es : List Expr} {l : Nat} {input mid rest : List Token}
    (arg : Derivation .expr input e (⟨.separator .comma, l⟩ :: mid))
    (more : Derivation .moreArguments mid es rest) :
    Derivation .moreArguments input (e :: es) rest
  | noTarget {input : List Token} : Derivation .target input none input
  | target {x : String} {l l' : Nat} {rest : List Token} :
    Derivation .target (⟨.identifier x, l⟩ :: ⟨.assign, l'⟩ :: rest) (some x) rest
  | noOperation {input : List Token} : Derivation .operations input [] input
  | operation {op : Operator} {l : Nat} {a : Operand} {ops : List (Operator × Operand)}
    {input mid rest : List Token}
    (operand : Derivation .factor input a mid) (more : Derivation .operations mid ops rest) :
    Derivation .operations (⟨.operator op, l⟩ :: input) ((op, a) :: ops) rest
  | semicolon {l : Nat} {rest : List Token} :
    Derivation .ending (⟨.separator .semicolon, l⟩ :: rest) () rest
  | lookahead {token : Token} {rest : List Token} (closes : closesExpr token.kind = true) :
    Derivation .ending (token :: rest) () (token :: rest)
  | expr {start : Token} {target : Option String} {first : Operand}
    {ops : List (Operator × Operand)} {input mid₁ mid₂ mid₃ rest : List Token}
    (goal : Derivation .target (start :: input) target mid₁)
    (operand : Derivation .factor mid₁ first mid₂)
    (more : Derivation .operations mid₂ ops mid₃)
    (ending : Derivation .ending mid₃ () rest) :
    Derivation .expr (start :: input) ⟨target, first, ops, start.line⟩ rest
  | lastName {x : String} {l : Nat} {rest : List Token} :
    Derivation .names (⟨.identifier x, l⟩ :: rest) [x] rest
  | param {x : String} {xs : List String} {l l' : Nat} {input rest : List Token}
    (more : Derivation .names input xs rest) :
    Derivation .names (⟨.identifier x, l⟩ :: ⟨.separator .comma, l'⟩ :: input) (x :: xs) rest
  | noParameters {l l' : Nat} {rest : List Token} :
    Derivation .parameters (⟨.separator .openParen, l⟩ :: ⟨.separator .closeParen, l'⟩ :: rest)
      [] rest
  | parameters {l l' : Nat} {xs : List String} {input rest : List Token}
    (inner : Derivation .names input xs (⟨.separator .closeParen, l'⟩ :: rest)) :
    Derivation .parameters (⟨.separator .openParen, l⟩ :: input) xs rest
  | noElse {input : List Token} : Derivation .alternative input none input
  | otherwise {l : Nat} {items : List Stmt} {input rest : List Token}
    (body : Derivation (.block false) input items rest) :
    Derivation .alternative (⟨.keyword .elseWord, l⟩ :: input) (some items) rest
  | loop {outermost : Bool} {c : Expr} {items : List Stmt} {l l₁ l₂ l₃ : Nat}
    {input mid rest : List Token}
    (condition : Derivation .expr input c (⟨.keyword .doWord, l₁⟩ :: mid))
    (body : Derivation (.block false) mid items
      (⟨.keyword .endWord, l₂⟩ :: ⟨.separator .semicolon, l₃⟩ :: rest)) :
    Derivation (.statement outermost) (⟨.keyword .whileWord, l⟩ :: input) (.loop c items l) rest
  | branch {outermost : Bool} {c : Expr} {items : List Stmt} {other : Option (List Stmt)}
    {l l₁ l₂ l₃ : Nat} {input mid₁ mid₂ rest : List Token}
    (condition : Derivation .expr input c (⟨.keyword .doWord, l₁⟩ :: mid₁))
    (body : Derivation (.block false) mid₁ items mid₂)
    (alternative : Derivation .alternative mid₂ other
      (⟨.keyword .endWord, l₂⟩ :: ⟨.separator .semicolon, l₃⟩ :: rest)) :
    Derivation (.statement outermost) (⟨.keyword .ifWord, l⟩ :: input)
      (.branch c items other l) rest
  | ret {outermost : Bool} {e : Expr} {l : Nat} {input rest : List Token}
    (result : Derivation .expr input e rest) :
    Derivation (.statement outermost) (⟨.keyword .returnWord, l⟩ :: input) (.ret e l) rest
  | define {x : String} {xs : List String} {items : List Stmt} {l l₁ l₂ l₃ l₄ : Nat}
    {input mid rest : List Token}
    (params : Derivation .parameters input xs (⟨.keyword .doWord, l₂⟩ :: mid))
    (body : Derivation (.block false) mid items
      (⟨.keyword .endWord, l₃⟩ :: ⟨.separator .semicolon, l₄⟩ :: rest)) :
    Derivation (.statement true) (⟨.keyword .defWord, l⟩ :: ⟨.identifier x, l₁⟩ :: input)
      (.define x xs items l) rest
  | plain {outermost : Bool} {e : Expr} {input rest : List Token}
    (value : Derivation .expr input e rest) :
    Derivation (.statement outermost) input (.expr e) rest
  | blockEnd {outermost : Bool} {input : List Token} :
    Derivation (.block outermost) input [] input
  | item {outermost : Bool} {s : Stmt} {items : List Stmt} {input mid rest : List Token}
    (first : Derivation (.statement outermost) input s mid)
    (more : Derivation (.block outermost) mid items rest) :
    Derivation (.block outermost) input (s :: items) rest
  | program {l : Nat} {items : List Stmt} {input : List Token}
    (body : Derivation (.block true) input items [⟨.eof, l⟩]) :
    Derivation .program input items []

/-- The number of tokens that every derivation of a nonterminal takes at
least. -/
def Nonterminal.least : Nonterminal → Nat
  | arguments | target | operations | ending | alternative | block _ => 0
  | factor | moreArguments | expr | names | parameters | statement _ | program => 1

namespace Derivation

/-- A derivation does not depend on the tokens behind those it leaves. Only
a whole program has to reach the end of the input. -/
def append (more : List Token) {n : Nonterminal} {input rest : List Token} {tree : n.Tree} :
    Derivation n input tree rest → n ≠ .program → Derivation n (input ++ more) tree (rest ++ more)
  | .name, _ => .name
  | .number, _ => .number
  | .text, _ => .text
  | .group inner, _ => .group (inner.append more nofun)
  | .call inner, _ => .call (inner.append more nofun)
  | .noArgument, _ => .noArgument
  | .someArguments inner, _ => .someArguments (inner.append more nofun)
  | .lastArgument arg, _ => .lastArgument (arg.append more nofun)
  | .argument arg args, _ => .argument (arg.append more nofun) (args.append more nofun)
  | .noTarget, _ => .noTarget
  | .target, _ => .target
  | .noOperation, _ => .noOperation
  | .operation operand ops, _ =>
    .operation (operand.append more nofun) (ops.append more nofun)
  | .semicolon, _ => .semicolon
  | .lookahead closes, _ => .lookahead closes
  | .expr goal operand ops ending, _ =>
    .expr (goal.append more nofun) (operand.append more nofun) (ops.append more nofun)
      (ending.append more nofun)
  | .lastName, _ => .lastName
  | .param names, _ => .param (names.append more nofun)
  | .noParameters, _ => .noParameters
  | .parameters inner, _ => .parameters (inner.append more nofun)
  | .noElse, _ => .noElse
  | .otherwise body, _ => .otherwise (body.append more nofun)
  | .loop condition body, _ => .loop (condition.append more nofun) (body.append more nofun)
  | .branch condition body alternative, _ =>
    .branch (condition.append more nofun) (body.append more nofun)
      (alternative.append more nofun)
  | .ret result, _ => .ret (result.append more nofun)
  | .define params body, _ => .define (params.append more nofun) (body.append more nofun)
  | .plain value, _ => .plain (value.append more nofun)
  | .blockEnd, _ => .blockEnd
  | .item first items, _ => .item (first.append more nofun) (items.append more nofun)
  | .program _, h => absurd rfl h

/-- No derivation takes fewer tokens than its nonterminal demands. -/
theorem length_rest {n : Nonterminal} {input rest : List Token} {tree : n.Tree}
    (d : Derivation n input tree rest) : rest.length + n.least ≤ input.length := by
  induction d <;> simp only [List.length_cons, List.length_nil, Nonterminal.least] at * <;> omega

/-- **The tokens and the tree fix the derivation**, and with it the tokens
that are left. -/
theorem heq_of_tree {n : Nonterminal} {input rest : List Token} {tree : n.Tree}
    (d : Derivation n input tree rest) :
    ∀ {rest' : List Token} (d' : Derivation n input tree rest'), rest = rest' ∧ HEq d d' := by
  -- induction on the first derivation: the tree settles the rule of the second, and what each
  -- part of the rule leaves settles the tokens of the part behind it
  induction d with
  | name | number | text | noTarget | target | noOperation | noElse | blockEnd =>
    intro rest' d'
    cases d'
    exact ⟨rfl, HEq.rfl⟩
  | group inner ih =>
    intro rest' d'
    cases d' with
    | group inner' =>
      obtain ⟨⟨⟩, ⟨⟩⟩ := ih inner'
      exact ⟨rfl, HEq.rfl⟩
  | call inner ih =>
    intro rest' d'
    cases d' with
    | call inner' =>
      obtain ⟨⟨⟩, ⟨⟩⟩ := ih inner'
      exact ⟨rfl, HEq.rfl⟩
  | noArgument =>
    intro rest' d'
    cases d' with
    | noArgument => exact ⟨rfl, HEq.rfl⟩
    -- no list that this rule derives is empty
    | someArguments inner' => cases inner'
  | someArguments inner ih =>
    intro rest' d'
    cases d' with
    | noArgument => cases inner
    | someArguments inner' =>
      obtain ⟨⟨⟩, ⟨⟩⟩ := ih inner'
      exact ⟨rfl, HEq.rfl⟩
  | lastArgument arg ih =>
    intro rest' d'
    cases d' with
    | lastArgument arg' =>
      obtain ⟨⟨⟩, ⟨⟩⟩ := ih arg'
      exact ⟨rfl, HEq.rfl⟩
    -- the list has one argument, and this rule derives those with more
    | argument arg' more' => cases more'
  | argument arg more ihArg ihMore =>
    intro rest' d'
    cases d' with
    | lastArgument arg' => cases more
    | argument arg' more' =>
      obtain ⟨⟨⟩, ⟨⟩⟩ := ihArg arg'
      obtain ⟨⟨⟩, ⟨⟩⟩ := ihMore more'
      exact ⟨rfl, HEq.rfl⟩
  | operation operand more ihOperand ihMore =>
    intro rest' d'
    cases d' with
    | operation operand' more' =>
      obtain ⟨⟨⟩, ⟨⟩⟩ := ihOperand operand'
      obtain ⟨⟨⟩, ⟨⟩⟩ := ihMore more'
      exact ⟨rfl, HEq.rfl⟩
  | semicolon =>
    intro rest' d'
    cases d' with
    | semicolon => exact ⟨rfl, HEq.rfl⟩
    -- the tree does not tell the two ends apart, but a semicolon is never left in place
    | lookahead closes => cases closes
  | lookahead closes =>
    intro rest' d'
    cases d' with
    | semicolon => cases closes
    | lookahead _ => exact ⟨rfl, HEq.rfl⟩
  | expr goal operand more ending ihGoal ihOperand ihMore ihEnding =>
    intro rest' d'
    cases d' with
    | expr goal' operand' more' ending' =>
      obtain ⟨⟨⟩, ⟨⟩⟩ := ihGoal goal'
      obtain ⟨⟨⟩, ⟨⟩⟩ := ihOperand operand'
      obtain ⟨⟨⟩, ⟨⟩⟩ := ihMore more'
      obtain ⟨⟨⟩, ⟨⟩⟩ := ihEnding ending'
      exact ⟨rfl, HEq.rfl⟩
  | lastName =>
    intro rest' d'
    cases d' with
    | lastName => exact ⟨rfl, HEq.rfl⟩
    -- names are told apart by their number, as arguments are
    | param more' => cases more'
  | param more ih =>
    intro rest' d'
    cases d' with
    | lastName => cases more
    | param more' =>
      obtain ⟨⟨⟩, ⟨⟩⟩ := ih more'
      exact ⟨rfl, HEq.rfl⟩
  | noParameters =>
    intro rest' d'
    cases d' with
    | noParameters => exact ⟨rfl, HEq.rfl⟩
    | parameters inner' => cases inner'
  | parameters inner ih =>
    intro rest' d'
    cases d' with
    | noParameters => cases inner
    | parameters inner' =>
      obtain ⟨⟨⟩, ⟨⟩⟩ := ih inner'
      exact ⟨rfl, HEq.rfl⟩
  | otherwise body ih =>
    intro rest' d'
    cases d' with
    | otherwise body' =>
      obtain ⟨⟨⟩, ⟨⟩⟩ := ih body'
      exact ⟨rfl, HEq.rfl⟩
  | loop condition body ihCondition ihBody =>
    intro rest' d'
    cases d' with
    | loop condition' body' =>
      obtain ⟨⟨⟩, ⟨⟩⟩ := ihCondition condition'
      obtain ⟨⟨⟩, ⟨⟩⟩ := ihBody body'
      exact ⟨rfl, HEq.rfl⟩
  | branch condition body alternative ihCondition ihBody ihAlternative =>
    intro rest' d'
    cases d' with
    | branch condition' body' alternative' =>
      obtain ⟨⟨⟩, ⟨⟩⟩ := ihCondition condition'
      obtain ⟨⟨⟩, ⟨⟩⟩ := ihBody body'
      obtain ⟨⟨⟩, ⟨⟩⟩ := ihAlternative alternative'
      exact ⟨rfl, HEq.rfl⟩
  | ret result ih =>
    intro rest' d'
    cases d' with
    | ret result' =>
      obtain ⟨⟨⟩, ⟨⟩⟩ := ih result'
      exact ⟨rfl, HEq.rfl⟩
  | define params body ihParams ihBody =>
    intro rest' d'
    cases d' with
    | define params' body' =>
      obtain ⟨⟨⟩, ⟨⟩⟩ := ihParams params'
      obtain ⟨⟨⟩, ⟨⟩⟩ := ihBody body'
      exact ⟨rfl, HEq.rfl⟩
  | plain value ih =>
    intro rest' d'
    cases d' with
    | plain value' =>
      obtain ⟨⟨⟩, ⟨⟩⟩ := ih value'
      exact ⟨rfl, HEq.rfl⟩
  | item first more ihFirst ihMore =>
    intro rest' d'
    cases d' with
    | item first' more' =>
      obtain ⟨⟨⟩, ⟨⟩⟩ := ihFirst first'
      obtain ⟨⟨⟩, ⟨⟩⟩ := ihMore more'
      exact ⟨rfl, HEq.rfl⟩
  | program body ih =>
    intro rest' d'
    cases d' with
    | program body' =>
      obtain ⟨⟨⟩, ⟨⟩⟩ := ih body'
      exact ⟨rfl, HEq.rfl⟩

end Derivation

end Scriptlet
