import Scriptlet.Fault

/-!
# Scriptlet — diagnostics

The form in which faults are shown: a kind with its label, a message, the line if there is one, and
notes. `Fault.diagnostic` is the one place where a cause gets its words.
-/

namespace Scriptlet

/-- The kinds of diagnostics. -/
inductive DiagnosticKind where
  | lexical | grammatical | name | arity | type | arithmetic | duplicateDefinition | host
  | resourceExhausted | usage
deriving DecidableEq, Repr

/-- The label that opens a diagnostic of the kind. -/
def DiagnosticKind.label : DiagnosticKind → String
  | lexical => "LexError"
  | grammatical => "SyntaxError"
  | name => "NameError"
  | arity => "ArityError"
  | type => "TypeError"
  | arithmetic => "ArithmeticError"
  | duplicateDefinition => "DuplicateDefinitionError"
  | host => "HostError"
  | resourceExhausted => "ResourceExhausted"
  | usage => "UsageError"

/-- A fault in words. -/
structure Diagnostic where
  kind : DiagnosticKind
  message : String
  line : Option Nat
  notes : List String
deriving DecidableEq, Repr

/-- The diagnostic as text: label and message, the line in parentheses, each note on a line. -/
def Diagnostic.render (diagnostic : Diagnostic) : String :=
  let place := match diagnostic.line with
    | some line => " (line " ++ toString line ++ ")"
    | none => ""
  let notes := diagnostic.notes.map ("\n  note: " ++ ·)
  diagnostic.kind.label ++ ": " ++ diagnostic.message ++ place ++ String.join notes

/-- What was expected, in words. -/
def Expectation.message : Expectation → String
  | loopBody => "expected `do` after loop condition"
  | loopEnd => "expected `end` to close `while`"
  | branchBody => "expected `do` after condition"
  | branchEnd => "expected `end` to close `if`"
  | endSemicolon => "expected `;` after `end`"
  | functionName => "expected function name"
  | parametersOpen => "expected `(` after function name"
  | parameterName => "expected parameter name"
  | parametersClose => "expected `)` after parameters"
  | functionBody => "expected `do` before function body"
  | functionEnd => "expected `end` to close function"
  | topLevelDefinition => "functions may only be defined at the top level"
  | leadingAssignment => "assignment is only allowed at the start of an expression"
  | expressionEnd => "expected `;` after expression"
  | groupEnd => "expected `)`"
  | operand => "expected an operand"
  | argumentsEnd => "expected `)` after arguments"
  | statement => "unexpected token"

namespace Cause

/-- The kind of diagnostic that a cause leads to. -/
def kind : Cause → DiagnosticKind
  | unrecognized _ | literalRange _ => .lexical
  | unexpected _ _ | malformedExpression _ => .grammatical
  | undefinedVariable _ | undefinedFunction _ => .name
  | tooFewArguments _ _ _ _ => .arity
  | textCondition | operandTypes _ _ _ => .type
  | divisionByZero | moduloByZero | overflow _ => .arithmetic
  | duplicateFunction _ => .duplicateDefinition
  | hostFailed _ _ | hostCrashed _ _ => .host
  | callDepth _ _ => .resourceExhausted
  | notCompiled | linkNotCompiled => .usage

/-- A name or symbol between backticks. -/
private def ticked (text : String) : String := "`" ++ text ++ "`"

/-- The cause in words. -/
def message : Cause → String
  | unrecognized text => "unrecognized text " ++ ticked text
  | literalRange text => "integer literal " ++ ticked text ++ " is out of range"
  | unexpected token expected =>
    "syntax error near " ++ token.location ++ ": " ++ expected.message
  | malformedExpression rendered => "malformed expression " ++ rendered
  | undefinedVariable name => "undefined variable " ++ ticked name
  | undefinedFunction name => "undefined function " ++ ticked name
  | tooFewArguments name params _ received =>
    "function " ++ ticked name ++ " expects " ++ toString params.length
      ++ " arguments but received " ++ toString received
  | textCondition => "a String cannot be used as a condition"
  | operandTypes op lhs rhs =>
    "unsupported operand types for " ++ ticked op.symbol ++ ": " ++ lhs.name ++ " and " ++ rhs.name
  | divisionByZero => "division by zero"
  | moduloByZero => "modulo by zero"
  | overflow op => "integer overflow in " ++ ticked op.symbol
  | duplicateFunction name => "function " ++ ticked name ++ " is already defined"
  | hostFailed name message => "host function " ++ ticked name ++ " failed: " ++ message
  | hostCrashed name reason =>
    "host function " ++ ticked name ++ " panicked: " ++ reason.getD "unknown panic"
  | callDepth limit name =>
    "maximum call depth of " ++ toString limit ++ " exceeded in " ++ ticked name
  | notCompiled => "program has not been compiled"
  | linkNotCompiled => "cannot link a program that has not been compiled"

/-- Remarks that go with the message: where a function that was called with too few arguments is
defined. -/
def notes : Cause → List String
  | tooFewArguments name params line _ =>
    [ticked (name ++ "(" ++ ", ".intercalate params ++ ")") ++ " is defined at line "
      ++ toString line]
  | _ => []

end Cause

/-- The fault in words. -/
def Fault.diagnostic (fault : Fault) : Diagnostic where
  kind := fault.cause.kind
  message := fault.cause.message
  line := fault.line
  notes := fault.cause.notes

end Scriptlet
