/-!
# Scriptlet — the arguments of the command line

The command line is `run SCRIPT [--lib FILE]... [--max-call-depth N]`, `eval SOURCE`,
`tokens SCRIPT`, `ast SCRIPT` or `--version`. An option's value stands in the next argument or
after an equals sign; a value in an argument of its own does not look like an option. After `--`
nothing is an option. `Command.ofArguments` gives nothing for arguments of any other form.
-/

namespace Scriptlet

/-- What the command line asks for. -/
inductive Command where
  | run (script : String) (libraries : List String) (maxDepth : Option Nat)
  | eval (source : String)
  | tokens (script : String)
  | tree (script : String)
  | version
deriving DecidableEq, Repr

/-- The arguments of a command, sorted into options with their values and the rest, each in
order. -/
structure SortedArguments where
  options : List (String × String)
  operands : List String
deriving DecidableEq, Repr

namespace SortedArguments

/-- Whether an argument has the form of an option. A dash alone has not. -/
def isOption (arg : String) : Bool :=
  arg.toList.head? == some '-' && arg != "-"

/-- An option's name, and its value if it stands after an equals sign. -/
def splitOption (arg : String) : String × Option String :=
  let name := String.ofList (arg.toList.takeWhile (· != '='))
  match arg.toList.dropWhile (· != '=') with
  | [] => (name, none)
  | _ :: value => (name, some (String.ofList value))

/-- Puts an option in front. -/
def addOption (name value : String) (sorted : SortedArguments) : SortedArguments :=
  { sorted with options := (name, value) :: sorted.options }

/-- Puts an operand in front. -/
def addOperand (arg : String) (sorted : SortedArguments) : SortedArguments :=
  { sorted with operands := arg :: sorted.operands }

/-- Sorts arguments, where only the options in `known` are allowed and each takes a value. -/
def sort? (known : List String) : List String → Option SortedArguments
  | [] => some ⟨[], []⟩
  | arg :: args =>
    if arg == "--" then some ⟨[], args⟩
    else if isOption arg then
      let (name, value) := splitOption arg
      if known.contains name then
        match value, args with
        | some value, args => (sort? known args).map (addOption name value)
        | none, value :: args =>
          if isOption value then none else (sort? known args).map (addOption name value)
        | none, [] => none
      else none
    else (sort? known args).map (addOperand arg)

/-- The values of an option, in order. -/
def values (sorted : SortedArguments) (name : String) : List String :=
  (sorted.options.filter (·.1 == name)).map (·.2)

/-- The only operand, if there is exactly one. -/
def operand? (sorted : SortedArguments) : Option String :=
  match sorted.operands with
  | [operand] => some operand
  | _ => none

end SortedArguments

namespace Command

/-- The name of a file, which is not empty. -/
def path? (arg : String) : Option String :=
  if arg.isEmpty then none else some arg

/-- A call depth: decimal digits, perhaps after a plus sign, for a number below 2^64. -/
def depth? (arg : String) : Option Nat :=
  let digits := match arg.toList with
    | '+' :: digits => digits
    | digits => digits
  let value := Nat.ofDigitChars 10 digits 0
  if !digits.isEmpty && digits.all Char.isDigit && value < UInt64.size then some value else none

/-- The only call depth among the values of its option, if there is any. -/
def maxDepth? : List String → Option (Option Nat)
  | [] => some none
  | [arg] => (depth? arg).map some
  | _ => none

/-- The arguments of `run`. -/
def run? (args : List String) : Option Command := do
  let sorted ← SortedArguments.sort? ["--lib", "--max-call-depth"] args
  let script ← sorted.operand?.bind path?
  let libraries ← (sorted.values "--lib").mapM path?
  let maxDepth ← maxDepth? (sorted.values "--max-call-depth")
  return .run script libraries maxDepth

/-- The only argument of a command without options. -/
def single? (args : List String) : Option String := do
  (← SortedArguments.sort? [] args).operand?

/-- What the arguments ask for, if they have one of the allowed forms. -/
def ofArguments : List String → Option Command
  | [] => none
  | arg :: args =>
    match arg with
    | "run" => run? args
    | "eval" => (single? args).map .eval
    | "tokens" => ((single? args).bind path?).map .tokens
    | "ast" => ((single? args).bind path?).map .tree
    | "--version" => some .version
    | arg => if ['-', 'V'].isPrefixOf arg.toList then some .version else none

/-- The files that a command reads, in order. -/
def paths : Command → List String
  | run script libraries _ => libraries ++ [script]
  | eval _ => []
  | tokens script => [script]
  | tree script => [script]
  | version => []

end Command

end Scriptlet
