import Scriptlet.Command.Arguments
import Scriptlet.Command.Builtin

/-!
# Scriptlet — the command line

What each command does, as a function of the files it reads: what it prints, what it reports as an
error, and with which code it ends. Libraries are linked in their order before the script is read,
and what was printed before a failure stays printed.
-/

namespace Scriptlet

/-- What reading a file gives. -/
inductive FileContent where
  | text (content : String)
  | missing
  /-- The file's bytes are not the encoding of a text. -/
  | undecodable
deriving DecidableEq, Repr

/-- How a command ends: its exit code, and what it wrote. -/
structure Exit where
  code : Nat
  output : String
  errors : String
  /-- The lines of the log. -/
  log : List String
deriving DecidableEq, Repr

namespace Command

/-- Why a command fails. -/
inductive Failure where
  | stop (stop : Stop)
  | missingFile
  | undecodableFile
deriving DecidableEq, Repr

/-- A failure in words. -/
def Failure.render : Failure → String
  | stop (.fault fault) => fault.diagnostic.render
  | stop .outOfFuel => "the run was broken off"
  | missingFile => "I/O error: No such file or directory (os error 2)"
  | undecodableFile => "I/O error: stream did not contain valid UTF-8"

/-- A part of a command's work. -/
abbrev Shell := EStateM Failure (World Console)

/-- How files are looked up. -/
abbrev Files := String → FileContent

namespace Shell

/-- Turns an operation on the world into a part of a command. -/
def lift {α β : Type} (operation : World Console → Except Stop α × β × World Console) :
    Shell (α × β) := fun world =>
  match operation world with
  | (.ok a, b, world) => .ok (a, b) world
  | (.error stop, _, world) => .error (.stop stop) world

/-- Prints a line. -/
def print (line : String) : Shell Unit :=
  modify fun world => { world with host := world.host.print line }

/-- Reads a file. -/
def readFile (files : Files) (path : String) : Shell String :=
  match files path with
  | .text content => return content
  | .missing => throw .missingFile
  | .undecodable => throw .undecodableFile

/-- A source text as a compiled script. -/
def compile (source : String) : Shell Script := do
  let ((), script) ← lift (Script.ofSource source).compile
  return script

/-- A registry with the host functions of the command line. -/
def registry (maxDepth : Nat) : Shell (Registry Console) := do
  let (registry, world) := Builtin.install (.empty maxDepth) (← get)
  set world
  return registry

/-- Reads and links libraries one after the other. -/
def linkAll (files : Files) (fuel : Nat) (registry : Registry Console) :
    List String → Shell (Registry Console)
  | [] => return registry
  | path :: paths => do
    let library ← compile (← readFile files path)
    let ((), registry) ← lift fun world =>
      let (outcome, registry, _, world) := registry.link library fuel world
      (outcome, registry, world)
    linkAll files fuel registry paths

/-- Runs a source text and prints its value. -/
def runSource (registry : Registry Console) (maxDepth fuel : Nat) (source : String) :
    Shell Unit := do
  let script ← compile source
  let (value, _) ← lift (script.run ⟨some registry, maxDepth⟩ fuel)
  print value.render

/-- A token in a listing: its line in four columns, and its class and text. -/
def listToken (token : Token) : String :=
  let line := toString token.line
  String.ofList (List.replicate (4 - line.length) ' ') ++ line ++ " " ++ token.kind.render

/-- Prints the tokens of a source text. -/
def listTokens (source : String) : Shell Unit := do
  match tokenize source with
  | .ok listed _ => listed.forM fun token => print (listToken token)
  | .error stop _ => throw (.stop stop)

end Shell

/-- The name and the version of the program. -/
def versionText : String := "sloth 0.1.0"

/-- Carries out a command. -/
def perform (files : Files) (fuel : Nat) : Command → Shell Unit
  | run script libraries maxDepth => do
    let maxDepth := maxDepth.getD defaultDepth
    let registry ← Shell.registry maxDepth
    let registry ← Shell.linkAll files fuel registry libraries
    Shell.runSource registry maxDepth fuel (← Shell.readFile files script)
  | eval source => do
    let registry ← Shell.registry defaultDepth
    Shell.runSource registry defaultDepth fuel source
  | tokens script => do Shell.listTokens (← Shell.readFile files script)
  | tree script => do
    let script ← Shell.compile (← Shell.readFile files script)
    script.tree.forM fun program => Shell.print (Program.render program)
  | version => Shell.print versionText

/-- The lines that the log shows: the warnings, which all come from linking. -/
def logLines (log : Log) : List String :=
  (log.atLevel .warn).map fun event => "sloth::vm: " ++ event.message

/-- Carries out a command and says how it ends. -/
def execute (files : Files) (fuel : Nat) (command : Command) : Exit :=
  match (command.perform files fuel).run (.start .empty) with
  | .ok () world => ⟨0, world.host.text, "", logLines world.log⟩
  | .error failure world =>
    ⟨1, world.host.text, "error: " ++ failure.render ++ "\n", logLines world.log⟩

end Command

end Scriptlet
