import Scriptlet.Scanner
import Scriptlet.Tree

/-!
# Scriptlet — from tokens to trees

The grammar, read from the left with one token of look-ahead, and two to tell an assignment:

* `program   := block eof`
* `block     := statement*`, up to `end`, `else` or the end of the input
* `statement := while | if | return | def | expr`, where `def` stands only in the outermost block
* `while     := 'while' expr 'do' block 'end' ';'`
* `if        := 'if' expr 'do' block ['else' block] 'end' ';'`
* `return    := 'return' expr`
* `def       := 'def' NAME '(' [NAME (',' NAME)*] ')' 'do' block 'end' ';'`
* `expr      := [NAME '='] factor (OPERATOR factor)*`, and then either a `;`, which belongs to the
  expression, or a `do`, `)` or `,`, which does not
* `factor    := NAME '(' [expr (',' expr)*] ')' | NAME | NUMBER | STRING | '(' expr ')'`

The first token that fits no rule is the fault. Each function recurs on a fuel argument; the fuel
that `Program.parse` gives suffices, since every round of every rule takes a token.

The rules are written for every source of tokens. What a source is asked, and what it does around a
rule, is the class `TokenSource`; a scanner is a source that does nothing around a rule.
-/

namespace Scriptlet

-- ---------------------------------------------------------------------------
-- Sources of tokens
-- ---------------------------------------------------------------------------

/-- The rules of the grammar. -/
inductive Nonterminal where
  | factor
  /-- The arguments of a call. -/
  | arguments
  /-- The arguments of a call, at least one. -/
  | moreArguments
  /-- The part of an expression up to the assignment sign, if there is one. -/
  | target
  /-- The operators of an expression, each with the operand after it. -/
  | operations
  /-- What ends an expression. -/
  | ending
  | expr
  /-- The parameter names of a function, at least one. -/
  | names
  /-- The parameters of a function with the parentheses around them. -/
  | parameters
  /-- The second block of an `if`, if there is one. -/
  | alternative
  | statement (outermost : Bool)
  | block (outermost : Bool)
  | program

/-- What a parser can do: look at tokens, take them, and stop. -/
class TokenSource (m : Type → Type) where
  /-- The token so many places ahead, which stays where it is. -/
  peek : Nat → m Token
  /-- Takes the next token. -/
  next : m Token
  /-- Ends the parse. -/
  stop {α : Type} : Stop → m α
  /-- What is done around a rule that uses fuel. -/
  enter {α : Type} : Nonterminal → m α → m α

instance : TokenSource Scan where
  peek := Scanner.peek
  next := Scanner.next
  stop := throw
  enter _ rule := rule

namespace TokenSource

/-- In a parse over a scanner, to look ahead is to look ahead in the scanner. -/
theorem peek_scan (k : Nat) : (peek k : Scan Token) = Scanner.peek k :=
  rfl

theorem next_scan : (next : Scan Token) = Scanner.next :=
  rfl

/-- In a parse over a scanner, nothing is done around a rule. -/
theorem enter_scan {α : Type} (rule : Nonterminal) (m : Scan α) : enter rule m = m :=
  rfl

end TokenSource

namespace Parse

open TokenSource (peek next stop enter)

variable {m : Type → Type} [Monad m] [TokenSource m]

-- ---------------------------------------------------------------------------
-- Single tokens
-- ---------------------------------------------------------------------------

/-- Stops at a token that does not fit. -/
def unexpected {α : Type} (token : Token) (expected : Expectation) : m α :=
  stop (.fault (.unexpected token expected))

/-- Whether the next token is of the given kind. -/
def check (kind : TokenKind) : m Bool :=
  return (← peek 0).kind == kind

/-- Takes the next token if it is of the given kind. -/
def accept (kind : TokenKind) : m Bool := do
  if ← check kind then
    let _ ← next
    return true
  else return false

/-- Takes the next token, which must be of the given kind. -/
def require (kind : TokenKind) (expected : Expectation) : m Unit := do
  let token ← next
  if token.kind == kind then return () else unexpected token expected

/-- Takes the next token, which must be a name. -/
def requireName (expected : Expectation) : m String := do
  let token ← next
  match token.kind with
  | .identifier name => return name
  | _ => unexpected token expected

-- ---------------------------------------------------------------------------
-- Expressions
-- ---------------------------------------------------------------------------

/-- Takes the target of an assignment and the sign after it, if the expression that starts with
the given token has them. -/
def target (start : Token) : m (Option String) :=
  match start.kind with
  | .identifier name => do
    if (← peek 1).kind == .assign then
      let _ ← next
      let _ ← next
      return some name
    else return none
  | _ => return none

/-- Takes the semicolon that ends an expression, or leaves the token in place that ends it. -/
def expressionEnd : m Unit := do
  if ← accept (.separator .semicolon) then return ()
  else
    let token ← peek 0
    match token.kind with
    | .keyword .doWord | .separator .closeParen | .separator .comma => return ()
    | _ => unexpected token .expressionEnd

mutual

/-- One operand. -/
def factor : Nat → m Operand
  | 0 => stop .outOfFuel
  | fuel + 1 => enter .factor do
    if ← accept (.separator .openParen) then
      let inner ← expression fuel
      require (.separator .closeParen) .groupEnd
      return .group inner
    else
      let token ← next
      match token.kind with
      | .identifier name =>
        if ← accept (.separator .openParen) then
          let args ← arguments fuel
          require (.separator .closeParen) .argumentsEnd
          return .call name args token.line
        else return .ident name token.line
      | .number value => return .number value
      | .text content => return .text content
      | _ => unexpected token .operand

/-- An expression with what ends it. -/
def expression : Nat → m Expr
  | 0 => stop .outOfFuel
  | fuel + 1 => enter .expr do
    let start ← peek 0
    let target ← target start
    let first ← factor fuel
    let rest ← operations fuel
    expressionEnd
    return ⟨target, first, rest, start.line⟩

/-- Operators, each with the operand after it. -/
def operations : Nat → m (List (Operator × Operand))
  | 0 => stop .outOfFuel
  | fuel + 1 => enter .operations do
    match (← peek 0).kind with
    | .operator op =>
      let _ ← next
      let operand ← factor fuel
      let rest ← operations fuel
      return (op, operand) :: rest
    | .assign => unexpected (← next) .leadingAssignment
    | _ => return []

/-- The arguments of a call, up to the closing parenthesis. -/
def arguments : Nat → m (List Expr)
  | 0 => stop .outOfFuel
  | fuel + 1 => enter .arguments do
    if ← check (.separator .closeParen) then return [] else moreArguments fuel

/-- One argument, and more after each comma. -/
def moreArguments : Nat → m (List Expr)
  | 0 => stop .outOfFuel
  | fuel + 1 => enter .moreArguments do
    let arg ← expression fuel
    if ← accept (.separator .comma) then
      let args ← moreArguments fuel
      return arg :: args
    else return [arg]

end

-- ---------------------------------------------------------------------------
-- Statements
-- ---------------------------------------------------------------------------

/-- One parameter name, and more after each comma. -/
def moreParameters : Nat → m (List String)
  | 0 => stop .outOfFuel
  | fuel + 1 => enter .names do
    let name ← requireName .parameterName
    if ← accept (.separator .comma) then
      let names ← moreParameters fuel
      return name :: names
    else return [name]

/-- The parameter names of a function, with the parentheses around them. -/
def parameters (fuel : Nat) : m (List String) := do
  require (.separator .openParen) .parametersOpen
  let names ← if ← check (.separator .closeParen) then pure [] else moreParameters fuel
  require (.separator .closeParen) .parametersClose
  return names

/-- The keyword `end` and the semicolon after it. -/
def blockEnd (expected : Expectation) : m Unit := do
  require (.keyword .endWord) expected
  require (.separator .semicolon) .endSemicolon

/-- Whether a token ends the block it stands in. -/
def endsBlock : TokenKind → Bool
  | .eof | .keyword .endWord | .keyword .elseWord => true
  | _ => false

mutual

/-- The statements of a block, which may be the outermost one. -/
def block (outermost : Bool) : Nat → m (List Stmt)
  | 0 => stop .outOfFuel
  | fuel + 1 => enter (.block outermost) do
    let token ← peek 0
    if endsBlock token.kind then return []
    else
      let first ← statement outermost token fuel
      let rest ← block outermost fuel
      return first :: rest

/-- The statement that starts with the given token. -/
def statement (outermost : Bool) (start : Token) : Nat → m Stmt
  | 0 => stop .outOfFuel
  | fuel + 1 => enter (.statement outermost) <|
    match start.kind with
    | .keyword .whileWord => do
      let _ ← next
      let condition ← expression fuel
      require (.keyword .doWord) .loopBody
      let body ← block false fuel
      blockEnd .loopEnd
      return .loop condition body start.line
    | .keyword .ifWord => do
      let _ ← next
      let condition ← expression fuel
      require (.keyword .doWord) .branchBody
      let thenBody ← block false fuel
      let elseBody ← elseBlock fuel
      blockEnd .branchEnd
      return .branch condition thenBody elseBody start.line
    | .keyword .returnWord => do
      let _ ← next
      let result ← expression fuel
      return .ret result start.line
    | .keyword .defWord =>
      if outermost then do
        let _ ← next
        let name ← requireName .functionName
        let params ← parameters fuel
        require (.keyword .doWord) .functionBody
        let body ← block false fuel
        blockEnd .functionEnd
        return .define name params body start.line
      else unexpected start .topLevelDefinition
    | _ => do
      let value ← expression fuel
      return .expr value

/-- The second block of an `if` statement, if there is one. -/
def elseBlock : Nat → m (Option (List Stmt))
  | 0 => stop .outOfFuel
  | fuel + 1 => enter .alternative do
    if ← accept (.keyword .elseWord) then
      let body ← block false fuel
      return some body
    else return none

end

/-- A whole program. -/
def program (fuel : Nat) : m Program := do
  let items ← block true fuel
  let token ← peek 0
  if token.isEof then return items else unexpected token .statement

end Parse

/-- Parses what a scanner has left. Four steps for each token suffice, and a few at the end. -/
def Scanner.parse (scanner : Scanner) : EStateM.Result Stop Scanner Program :=
  (Parse.program (4 * scanner.size + 8) : Scan Program).run scanner

/-- Parses a source text. -/
def Program.parse (source : String) : EStateM.Result Stop Scanner Program :=
  (Scanner.ofSource source).parse

end Scriptlet
