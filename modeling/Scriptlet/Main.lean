import Scriptlet.Command

/-!
# Scriptlet — the program

Reads the files that the arguments name, carries out the command, and writes what it says.
-/

namespace Scriptlet

/-- More steps than any run takes in a lifetime. -/
def ampleFuel : Nat := 1000000000000000000

/-- The allowed forms of the arguments. -/
def usageText : String :=
  "usage: run SCRIPT [--lib FILE]... [--max-call-depth N] | eval SOURCE"
    ++ " | tokens SCRIPT | ast SCRIPT | --version"

/-- Reads a file as text. -/
def readText (path : String) : IO FileContent := do
  try
    match String.fromUTF8? (← IO.FS.readBinFile path) with
    | some content => return .text content
    | none => return .undecodable
  catch _ => return .missing

end Scriptlet

open Scriptlet in
/-- The program. Exit code 2 means that the arguments have no allowed form. -/
def main (args : List String) : IO UInt32 := do
  match Command.ofArguments args with
  | none =>
    IO.eprintln usageText
    return 2
  | some command =>
    let contents ← command.paths.mapM fun path => return (path, ← readText path)
    let files path := (contents.lookup path).getD .missing
    let exit := command.execute files ampleFuel
    IO.print exit.output
    exit.log.forM IO.eprintln
    IO.eprint exit.errors
    return UInt32.ofNat exit.code
