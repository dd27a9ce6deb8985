import Scriptlet.Diagnostic

/-!
# Scriptlet — the log

What the scanner, the evaluator and the embedding operations report as they go. An `Event` is data;
its level and its wording are functions of it. A `Log` collects events in the order they happen,
and `Log.toList` is its view.
-/

namespace Scriptlet

/-- How important an event is, the most important first. -/
inductive Level where
  | warn | debug | trace
deriving DecidableEq, Repr

namespace Level

/-- The level's name in log lines. -/
def name : Level → String
  | warn => "WARN"
  | debug => "DEBUG"
  | trace => "TRACE"

/-- The verbosity at which events of this level are first shown. -/
def rank : Level → Nat
  | warn => 0
  | debug => 1
  | trace => 2

end Level

/-- Something worth reporting. -/
inductive Event where
  /-- A line with at least one token was scanned. -/
  | scannedLine (line tokens : Nat)
  | compiled (items : Nat)
  | alreadyCompiled
  | runFinished (result : Value)
  | runFailed (fault : Fault)
  /-- A script function is entered; `depth` calls are active around it. -/
  | callingScript (function : String) (depth : Nat)
  | callingHost (function : String)
  | shadowed (function : String)
  | linked (functions : Nat)
  | registered (function : String)
deriving DecidableEq, Repr

namespace Event

/-- The level of an event. -/
def level : Event → Level
  | scannedLine _ _ | callingScript _ _ | callingHost _ => .trace
  | compiled _ | alreadyCompiled | runFinished _ | runFailed _ | linked _ | registered _ => .debug
  | shadowed _ => .warn

/-- The event in words, followed by its fields. -/
def message : Event → String
  | scannedLine line tokens =>
    "scanned line line=" ++ toString line ++ " tokens=" ++ toString tokens
  | compiled items => "compiled program items=" ++ toString items
  | alreadyCompiled => "program already compiled, skipping"
  | runFinished result => "run finished result=" ++ result.render
  | runFailed fault => "run failed error=" ++ fault.diagnostic.render
  | callingScript function depth =>
    "calling script function function=" ++ function ++ " depth=" ++ toString depth
  | callingHost function => "calling host function function=" ++ function
  | shadowed function => "linked function shadows an earlier definition function=" ++ function
  | linked functions => "linked library functions=" ++ toString functions
  | registered function => "registered host function function=" ++ function

/-- The event as a log line: its level, then its message. -/
def render (event : Event) : String :=
  event.level.name ++ " " ++ event.message

end Event

/-- Events in the order in which they happened. -/
structure Log where
  /-- The events, the newest first. -/
  newestFirst : List Event
deriving DecidableEq, Repr

namespace Log

/-- The log without events. -/
def empty : Log := ⟨[]⟩

/-- Adds an event at the end. -/
def push (log : Log) (event : Event) : Log :=
  ⟨event :: log.newestFirst⟩

/-- Adds all events of a later log at the end. -/
def append (log later : Log) : Log :=
  ⟨later.newestFirst ++ log.newestFirst⟩

/-- The events, the oldest first. -/
def toList (log : Log) : List Event :=
  log.newestFirst.reverse

/-- The events of the given level or a more important one, the oldest first. -/
def atLevel (log : Log) (level : Level) : List Event :=
  log.toList.filter (·.level.rank ≤ level.rank)

@[simp] theorem toList_empty : empty.toList = [] := rfl

/-- An event that is added comes last. -/
@[simp] theorem toList_push (log : Log) (event : Event) :
    (log.push event).toList = log.toList ++ [event] := by
  simp [toList, push]

/-- The events of the later log come last. -/
@[simp] theorem toList_append (log later : Log) :
    (log.append later).toList = log.toList ++ later.toList := by
  simp [toList, append]

/-- An event that is added shows at the levels that are not more important than
its own. -/
theorem atLevel_push (log : Log) (event : Event) (level : Level) :
    (log.push event).atLevel level =
      log.atLevel level ++ if event.level.rank ≤ level.rank then [event] else [] := by
  rw [atLevel, atLevel, toList_push, List.filter_append, List.filter_cons, List.filter_nil]
  simp only [decide_eq_true_eq]

end Log

end Scriptlet
