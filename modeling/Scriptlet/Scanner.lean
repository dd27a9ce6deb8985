import Scriptlet.Log
import Scriptlet.Token.Line

/-!
# Scriptlet — the scanner

A scanner hands out the tokens of a source text and reads the text no further than it must: a line
is scanned only when a token that the queue does not hold is asked for. A line with a fault leaves
the tokens before the fault in the queue and is not read again, so the fault is reported once and
scanning goes on with the next line. When all lines are read and the queue is empty, the answer is
the end of the input, as often as one asks.

A line ends at a newline, and a carriage return directly before that newline belongs to the ending.
Text after the last newline is a line of its own unless it is empty; a carriage return at its end
is part of the line.
-/

namespace Scriptlet

-- ---------------------------------------------------------------------------
-- Lines
-- ---------------------------------------------------------------------------

/-- The lines of a text, without their endings. -/
def Text.lines : List Char → List (List Char)
  | [] => []
  | '\n' :: text => [] :: Text.lines text
  | '\r' :: '\n' :: text => [] :: Text.lines text
  | c :: text =>
    match Text.lines text with
    | [] => [[c]]
    | line :: rest => (c :: line) :: rest

example : Text.lines "a\r\n\r\nb\r".toList = [['a'], [], ['b', '\r']] := by decide

-- ---------------------------------------------------------------------------
-- Scanners
-- ---------------------------------------------------------------------------

/-- The state of a scan. -/
structure Scanner where
  /-- Tokens that are scanned and not yet handed out. -/
  queue : List Token
  /-- Lines that are not yet scanned. -/
  unread : List (List Char)
  /-- The number of lines scanned so far. -/
  line : Nat
  /-- What was reported along the way. -/
  log : Log
deriving Repr

/-- A computation that draws tokens from a scanner. -/
abbrev Scan := EStateM Stop Scanner

namespace Scanner

/-- A scanner at the start of a source text. -/
def ofSource (source : String) : Scanner :=
  ⟨[], Text.lines source.toList, 0, .empty⟩

/-- A scanner that has read all of a text of `line` lines and holds the given tokens. -/
def ofTokens (tokens : List Token) (line : Nat) : Scanner :=
  ⟨tokens, [], line, .empty⟩

/-- An upper bound for the number of tokens to come. -/
def size (scanner : Scanner) : Nat :=
  scanner.unread.foldr (fun text n => text.length + n) scanner.queue.length

/-- The token at the end of the input, on the last line. -/
def eof (scanner : Scanner) : Token := ⟨.eof, scanner.line⟩

/-- Scans lines until the queue is `enough`, all lines are read, or a line has a fault. -/
def fillFrom (enough : List Token → Bool) (queue : List Token) (line : Nat) (log : Log) :
    List (List Char) → EStateM.Result Stop Scanner Unit
  | [] => .ok () ⟨queue, [], line, log⟩
  | text :: unread =>
    if enough queue then .ok () ⟨queue, text :: unread, line, log⟩
    else
      let (kinds, cause) := scanLine text
      let queue := queue ++ kinds.map (⟨·, line + 1⟩)
      match cause with
      | some cause => .error (.fault (.at cause (line + 1))) ⟨queue, unread, line + 1, log⟩
      | none =>
        let log := if kinds.isEmpty then log else log.push (.scannedLine (line + 1) kinds.length)
        fillFrom enough queue (line + 1) log unread

/-- Scans lines until the queue is `enough`. -/
def fill (enough : List Token → Bool) : Scan Unit := fun scanner =>
  fillFrom enough scanner.queue scanner.line scanner.log scanner.unread

/-- The token `k` places ahead, which stays where it is. -/
def peek (k : Nat) : Scan Token := do
  fill fun queue => !(queue.drop k).isEmpty
  let scanner ← get
  return scanner.queue[k]?.getD scanner.eof

/-- Takes the next token. -/
def next : Scan Token := do
  fill fun queue => !queue.isEmpty
  let scanner ← get
  match scanner.queue with
  | [] => return scanner.eof
  | token :: queue =>
    set { scanner with queue }
    return token

/-- Takes all tokens, the end of the input included. -/
def tokenize : Scan (List Token) := do
  fill fun _ => false
  let scanner ← get
  set { scanner with queue := [] }
  return scanner.queue ++ [scanner.eof]

end Scanner

/-- The tokens of a source text. -/
def tokenize (source : String) : EStateM.Result Stop Scanner (List Token) :=
  Scanner.tokenize.run (.ofSource source)

end Scriptlet
