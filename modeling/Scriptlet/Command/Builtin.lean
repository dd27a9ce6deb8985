import Scriptlet.Registry.Link

/-!
# Scriptlet — the host functions of the command line

Scripts run from the command line can print, measure texts, and choose the least or greatest of
some integers. What they print is collected in a `Console`.
-/

namespace Scriptlet

/-- The lines printed so far. -/
structure Console where
  /-- The lines, the newest first. -/
  newestFirst : List String
deriving DecidableEq, Repr

namespace Console

/-- The console before anything is printed. -/
def empty : Console := ⟨[]⟩

/-- Prints a line. -/
def print (console : Console) (line : String) : Console :=
  ⟨line :: console.newestFirst⟩

/-- Everything printed so far, each line with its ending. -/
def text (console : Console) : String :=
  String.join (console.newestFirst.reverse.map (· ++ "\n"))

end Console

namespace Builtin

/-- A host function that leaves the console alone. -/
def silent (name : String) (answer : List Value → Except String Value) : HostFunction Console where
  name := name
  respond args console :=
    match answer args with
    | .ok value => (.returned value, console)
    | .error message => (.failed message, console)

/-- Prints its arguments in one line, with blanks between them. -/
def print : HostFunction Console where
  name := "print"
  respond args console :=
    (.returned .zero, console.print (" ".intercalate (args.map Value.render)))

/-- The number of characters of its first argument, which is a text. -/
def length : List Value → Except String Value
  | .text s :: _ => .ok (.int (Int64.ofNat s.length))
  | _ => .error "len expects a String argument"

/-- The integers among which to choose. -/
def integers (args : List Value) : Except String (List Int64) :=
  args.mapM fun
    | .int n => .ok n
    | value => .error ("expected Int, found " ++ value.type.name)

/-- The integer that `pick` leaves of all its arguments. -/
def choose (pick : Int64 → Int64 → Int64) (args : List Value) : Except String Value := do
  match ← integers args with
  | [] => .error "expected at least one argument"
  | n :: ns => return .int (ns.foldl pick n)

/-- All host functions of the command line. -/
def all : List (HostFunction Console) :=
  [print, silent "len" length, silent "min" (choose min), silent "max" (choose max)]

/-- Adds the host functions of the command line to a registry. -/
def install (registry : Registry Console) (world : World Console) :
    Registry Console × World Console :=
  all.foldl (fun (registry, world) f => registry.registerIn f world) (registry, world)

end Builtin

end Scriptlet
