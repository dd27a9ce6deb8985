import Scriptlet.Proofs.Spelling
import Scriptlet.Scanner

/-!
# Scriptlet — what a scanner delivers

A scanner answers requests, to take a token or to look some places ahead, and
it goes on after a fault. However the requests are mixed, a text is delivered
whole and once: its tokens to those who take, the faults of its lines to
whoever asks when the line is read. A look ahead may report the fault of a line
while tokens of earlier lines, and of that line itself, still wait to be taken.

* `tokensOf`, `faultsOf` — what there is to deliver of some lines;
* `due`, `pending` — what a scanner still has to deliver of it;
* `ReadOn`, `fill_readOn` — reading on moves tokens into the queue and settles
  one fault at most;
* `answers_deliver` — what was delivered and what is due make up the whole;
* `answers_of_queue` — what stands in the queue is taken before anything else;
* `drawn_of_peek`, `few_of_peek`, `ended_of_next` — what an answer says about
  later ones, and about what is left;
* `requests_deliver_text` — all of it, for a source text.
-/

namespace Scriptlet

namespace Scanner

-- ---------------------------------------------------------------------------
-- What there is to deliver
-- ---------------------------------------------------------------------------

/-- The tokens of some lines, of which the first has the number `first`. A line
with a fault has the tokens before the fault. -/
def tokensOf (first : Nat) (lines : List (List Char)) : List Token :=
  (lines.zipIdx first).flatMap fun (text, line) => (scanLine text).1.map (⟨·, line⟩)

/-- The faults of some lines, of which the first has the number `first`. -/
def faultsOf (first : Nat) (lines : List (List Char)) : List Fault :=
  (lines.zipIdx first).filterMap fun (text, line) => (scanLine text).2.map (Fault.at · line)

@[simp] theorem tokensOf_nil (first : Nat) : tokensOf first [] = [] := rfl

@[simp] theorem faultsOf_nil (first : Nat) : faultsOf first [] = [] := rfl

/-- The tokens of the first line come first. -/
theorem tokensOf_cons (first : Nat) (text : List Char) (lines : List (List Char)) :
    tokensOf first (text :: lines) =
      (scanLine text).1.map (⟨·, first⟩) ++ tokensOf (first + 1) lines := by
  simp [tokensOf, List.zipIdx_cons]

/-- So does the fault of the first line. -/
theorem faultsOf_cons (first : Nat) (text : List Char) (lines : List (List Char)) :
    faultsOf first (text :: lines) =
      ((scanLine text).2.map (Fault.at · first)).toList ++ faultsOf (first + 1) lines := by
  cases h : (scanLine text).2 <;> simp [faultsOf, List.zipIdx_cons, h]

/-- No line has an end of input among its tokens. -/
theorem isEof_of_mem_tokensOf {first : Nat} {lines : List (List Char)} {token : Token}
    (h : token ∈ tokensOf first lines) : token.isEof = false := by
  obtain ⟨⟨text, line⟩, _, hToken⟩ := List.mem_flatMap.mp h
  obtain ⟨kind, hKind, rfl⟩ := List.mem_map.mp hToken
  exact beq_eq_false_iff_ne.mpr (scanLine_ne_eof hKind)

/-- The tokens that a scanner has still to deliver. -/
def due (scanner : Scanner) : List Token :=
  scanner.queue ++ tokensOf (scanner.line + 1) scanner.unread

/-- The faults that a scanner has still to report. -/
def pending (scanner : Scanner) : List Fault :=
  faultsOf (scanner.line + 1) scanner.unread

/-- The number of lines of the whole text. -/
def lineCount (scanner : Scanner) : Nat :=
  scanner.line + scanner.unread.length

-- ---------------------------------------------------------------------------
-- Reading on
-- ---------------------------------------------------------------------------

/-- The second scanner is the first after it has read some lines, on the way
reporting the given faults. -/
structure ReadOn (scanner later : Scanner) (faults : List Fault) : Prop where
  due : later.due = scanner.due
  pending : scanner.pending = faults ++ later.pending
  lineCount : later.lineCount = scanner.lineCount
  queue : scanner.queue <+: later.queue

namespace ReadOn

theorem refl (scanner : Scanner) : ReadOn scanner scanner [] :=
  ⟨rfl, rfl, rfl, List.prefix_refl _⟩

/-- A scanner may read on without a fault and then further, up to the first
fault. -/
theorem trans {first second third : Scanner} {faults : List Fault}
    (h : ReadOn first second []) (h' : ReadOn second third faults) : ReadOn first third faults where
  due := h'.due.trans h.due
  pending := h.pending.trans h'.pending
  lineCount := h'.lineCount.trans h.lineCount
  queue := h.queue.trans h'.queue

/-- The reading of one line. -/
theorem line {text : List Char} {kinds : List TokenKind} {cause : Option Cause}
    (h : scanLine text = (kinds, cause)) (queue : List Token) (unread : List (List Char))
    (line : Nat) (log later : Log) :
    ReadOn ⟨queue, text :: unread, line, log⟩
      ⟨queue ++ kinds.map (⟨·, line + 1⟩), unread, line + 1, later⟩
      (cause.map (Fault.at · (line + 1))).toList where
  due := by
    simp only [Scanner.due, tokensOf_cons, h, List.append_assoc]
  pending := by
    simp only [Scanner.pending, faultsOf_cons, h]
  lineCount := by
    simp only [Scanner.lineCount, List.length_cons]
    omega
  queue := List.prefix_append _ _

end ReadOn

/-- Filling the queue reads on until there is enough, nothing is left to read,
or a fault is met, which is then reported. -/
theorem fillFrom_readOn (enough : List Token → Bool) (queue : List Token) (line : Nat) (log : Log)
    (unread : List (List Char)) :
    match fillFrom enough queue line log unread with
    | .ok () filled => ReadOn ⟨queue, unread, line, log⟩ filled [] ∧
        (enough filled.queue = true ∨ filled.unread = [])
    | .error stop filled => ∃ fault, stop = .fault fault ∧
        ReadOn ⟨queue, unread, line, log⟩ filled [fault] := by
  -- line by line, until there is enough, or nothing left, or a fault
  induction unread generalizing queue line log with
  | nil => exact ⟨.refl _, Or.inr rfl⟩
  | cons text unread ih =>
    rw [fillFrom]
    by_cases hEnough : enough queue = true
    · rw [if_pos hEnough]
      exact ⟨.refl _, Or.inl hEnough⟩
    · rw [if_neg hEnough]
      cases hScan : scanLine text with
      | mk kinds cause =>
        have hLine := ReadOn.line hScan queue unread line log
        cases cause with
        | some cause => exact ⟨_, rfl, hLine log⟩
        | none =>
          -- the line is good, so what is read after it is read on from there
          have hRest := ih (queue ++ kinds.map (⟨·, line + 1⟩)) (line + 1)
            (if kinds.isEmpty then log else log.push (.scannedLine (line + 1) kinds.length))
          revert hRest
          dsimp only
          cases fillFrom enough (queue ++ kinds.map (⟨·, line + 1⟩)) (line + 1)
            (if kinds.isEmpty then log else log.push (.scannedLine (line + 1) kinds.length))
            unread with
          | ok _ filled => exact fun hRest => ⟨(hLine _).trans hRest.1, hRest.2⟩
          | error stop filled =>
            rintro ⟨fault, hStop, hRead⟩
            exact ⟨fault, hStop, (hLine _).trans hRead⟩

/-- Filling reads on as far as it has to. -/
theorem fill_readOn (enough : List Token → Bool) (scanner : Scanner) :
    match fill enough scanner with
    | .ok () filled =>
      ReadOn scanner filled [] ∧ (enough filled.queue = true ∨ filled.unread = [])
    | .error stop filled => ∃ fault, stop = .fault fault ∧ ReadOn scanner filled [fault] :=
  fillFrom_readOn enough scanner.queue scanner.line scanner.log scanner.unread

/-- Nothing is read if the queue has enough. -/
theorem fill_of_enough {enough : List Token → Bool} {scanner : Scanner}
    (h : enough scanner.queue = true) : fill enough scanner = .ok () scanner := by
  obtain ⟨queue, unread, line, log⟩ := scanner
  cases unread with
  | nil => rfl
  | cons text unread => exact if_pos h

-- ---------------------------------------------------------------------------
-- Looking and taking
-- ---------------------------------------------------------------------------

/-- The end of the input is shown where all lines are read and the queue is
too short. -/
structure EndsBefore (scanner : Scanner) (k : Nat) : Prop where
  unread : scanner.unread = []
  queue : scanner.queue.length ≤ k

/-- A scanner that has to read on to the end has nothing to report, and no more
tokens than the queue then holds. -/
theorem ReadOn.ends {scanner later : Scanner} (h : ReadOn scanner later []) {k : Nat}
    (hEnd : later.EndsBefore k) :
    later.eof = ⟨.eof, scanner.lineCount⟩ ∧ scanner.pending = [] ∧ scanner.due.length ≤ k := by
  -- all lines are read, hence all that is left is in the queue
  have hNone : later.pending = [] := by
    rw [Scanner.pending, hEnd.unread, faultsOf_nil]
  have hQueue : later.due = later.queue := by
    rw [Scanner.due, hEnd.unread, tokensOf_nil, List.append_nil]
  have hLine : later.lineCount = later.line := by
    rw [Scanner.lineCount, hEnd.unread, List.length_nil, Nat.add_zero]
  refine ⟨?_, ?_, ?_⟩
  · rw [eof, ← hLine, h.lineCount]
  · rw [h.pending, hNone, List.append_nil]
  · rw [← h.due, hQueue]
    exact hEnd.queue

/-- **A look ahead reads on**, and then shows what the queue has there or the
end of the input. -/
theorem peek_readOn (k : Nat) (scanner : Scanner) :
    match peek k scanner with
    | .ok token later => ReadOn scanner later [] ∧
        (later.queue[k]? = some token ∨ later.EndsBefore k ∧ token = later.eof)
    | .error stop later => ∃ fault, stop = .fault fault ∧ ReadOn scanner later [fault] := by
  have hFill := fill_readOn (fun queue => !(queue.drop k).isEmpty) scanner
  rw [peek]
  cases h : fill (fun queue => !(queue.drop k).isEmpty) scanner with
  | error stop filled =>
    rw [h] at hFill
    rw [bind_of_error h]
    exact hFill
  | ok _ filled =>
    rw [h] at hFill
    rw [bind_of_ok h]
    obtain ⟨hRead, hStop⟩ := hFill
    show ReadOn scanner filled [] ∧ (filled.queue[k]? = some (filled.queue[k]?.getD filled.eof) ∨
      filled.EndsBefore k ∧ filled.queue[k]?.getD filled.eof = filled.eof)
    refine ⟨hRead, ?_⟩
    cases hToken : filled.queue[k]? with
    | some token => exact Or.inl rfl
    | none =>
      -- only the end of the text has kept the scanner from reading on
      have hShort := List.getElem?_eq_none_iff.mp hToken
      have hUnread : filled.unread = [] := by
        refine hStop.resolve_left ?_
        simp [List.drop_eq_nil_of_le hShort]
      exact Or.inr ⟨⟨hUnread, hShort⟩, rfl⟩

/-- **To take a token, a scanner reads on** and hands out the first of its
queue, or the end of the input. -/
theorem next_readOn (scanner : Scanner) :
    match next scanner with
    | .ok token later => ∃ filled, ReadOn scanner filled [] ∧
        (filled = { later with queue := token :: later.queue } ∨
          filled.EndsBefore 0 ∧ later = filled ∧ token = filled.eof)
    | .error stop later => ∃ fault, stop = .fault fault ∧ ReadOn scanner later [fault] := by
  have hFill := fill_readOn (fun queue => !queue.isEmpty) scanner
  rw [next]
  cases h : fill (fun queue => !queue.isEmpty) scanner with
  | error stop filled =>
    rw [h] at hFill
    rw [bind_of_error h]
    exact hFill
  | ok _ filled =>
    rw [h] at hFill
    rw [bind_of_ok h, bind_get]
    obtain ⟨hRead, hStop⟩ := hFill
    obtain ⟨queue, unread, line, log⟩ := filled
    cases queue with
    | cons token queue => exact ⟨_, hRead, Or.inl rfl⟩
    | nil =>
      have hUnread : unread = [] := hStop.resolve_left (by simp)
      exact ⟨_, hRead, Or.inr ⟨⟨hUnread, Nat.le_refl 0⟩, rfl, rfl⟩⟩

/-- A token that stands first in the queue is taken without reading. -/
theorem next_of_queue {scanner : Scanner} {token : Token} {queue : List Token}
    (h : scanner.queue = token :: queue) : next scanner = .ok token { scanner with queue } := by
  obtain ⟨_, unread, line, log⟩ := scanner
  cases h
  rw [next, bind_of_ok (fill_of_enough rfl)]
  rfl

-- ---------------------------------------------------------------------------
-- Requests and answers
-- ---------------------------------------------------------------------------

/-- What one can ask of a scanner. -/
inductive Request where
  | next
  | peek (k : Nat)
deriving DecidableEq, Repr

/-- Asks the scanner. -/
def Request.perform : Request → Scan Token
  | .next => Scanner.next
  | .peek k => Scanner.peek k

/-- A request with its answer. -/
abbrev Exchange := Request × Except Stop Token

/-- The answers to requests that are made one after the other, be there faults
among the answers or not. -/
def answers (scanner : Scanner) : List Request → List Exchange
  | [] => []
  | request :: requests =>
    (request, outcome (request.perform scanner)) ::
      answers (final (request.perform scanner)) requests

/-- The scanner after some requests. -/
def after (scanner : Scanner) (requests : List Request) : Scanner :=
  requests.foldl (fun scanner request => final (request.perform scanner)) scanner

/-- The answers to those requests that take a token. -/
def drawn (exchanges : List Exchange) : List (Except Stop Token) :=
  exchanges.filterMap fun
    | (.next, answer) => some answer
    | _ => none

/-- The tokens that were taken. The end of the input cannot be taken. -/
def taken (exchanges : List Exchange) : List Token :=
  (drawn exchanges).filterMap fun
    | .ok token => if token.isEof then none else some token
    | .error _ => none

/-- What was reported in place of a token. -/
def reported (exchanges : List Exchange) : List Stop :=
  exchanges.filterMap fun
    | (_, .error stop) => some stop
    | _ => none

/-- The exchanges lead from the first scanner to the second, and deliver what
the second has no longer to deliver. -/
structure Delivers (scanner : Scanner) (exchanges : List Exchange) (later : Scanner) : Prop where
  tokens : scanner.due = taken exchanges ++ later.due
  faults : scanner.pending.map Stop.fault = reported exchanges ++ later.pending.map Stop.fault
  lineCount : later.lineCount = scanner.lineCount

namespace Delivers

theorem refl (scanner : Scanner) : Delivers scanner [] scanner :=
  ⟨rfl, rfl, rfl⟩

/-- What is delivered first comes in front of what is delivered later. -/
theorem trans {first second third : Scanner} {exchanges exchanges' : List Exchange}
    (h : Delivers first exchanges second) (h' : Delivers second exchanges' third) :
    Delivers first (exchanges ++ exchanges') third where
  tokens := by
    rw [h.tokens, h'.tokens, taken, taken, taken, drawn, drawn, drawn, List.filterMap_append,
      List.filterMap_append, List.append_assoc]
  faults := by
    rw [h.faults, h'.faults, reported, reported, reported, List.filterMap_append,
      List.append_assoc]
  lineCount := h'.lineCount.trans h.lineCount

/-- What is left to deliver was there to deliver. -/
theorem isEof_of_mem_due {scanner later : Scanner} {exchanges : List Exchange}
    (h : Delivers scanner exchanges later)
    (hTokens : ∀ token ∈ scanner.due, token.isEof = false) :
    ∀ token ∈ later.due, token.isEof = false := by
  intro token hToken
  refine hTokens token ?_
  rw [h.tokens]
  exact List.mem_append_right _ hToken

/-- A fault takes no token away. -/
theorem of_fault {scanner later : Scanner} {fault : Fault} (h : ReadOn scanner later [fault])
    (request : Request) : Delivers scanner [(request, .error (.fault fault))] later where
  tokens := by
    rw [← h.due]
    cases request <;> rfl
  faults := by
    rw [h.pending]
    cases request <;> rfl
  lineCount := h.lineCount

/-- A look ahead that succeeds delivers nothing. -/
theorem of_peek {scanner later : Scanner} (h : ReadOn scanner later []) (k : Nat)
    (token : Token) : Delivers scanner [(.peek k, .ok token)] later :=
  ⟨h.due.symm, congrArg _ h.pending, h.lineCount⟩

end Delivers

/-- **One request delivers what it answers.** -/
theorem perform_delivers (request : Request) (scanner : Scanner)
    (hTokens : ∀ token ∈ scanner.due, token.isEof = false) :
    Delivers scanner [(request, outcome (request.perform scanner))]
      (final (request.perform scanner)) := by
  cases request with
  | peek k =>
    have hPeek := peek_readOn k scanner
    rw [Request.perform]
    cases hAnswer : peek k scanner with
    | ok token later =>
      rw [hAnswer] at hPeek
      exact .of_peek hPeek.1 k token
    | error stop later =>
      rw [hAnswer] at hPeek
      obtain ⟨fault, rfl, hRead⟩ := hPeek
      exact .of_fault hRead _
  | next =>
    have hNext := next_readOn scanner
    rw [Request.perform]
    cases hAnswer : next scanner with
    | error stop later =>
      rw [hAnswer] at hNext
      obtain ⟨fault, rfl, hRead⟩ := hNext
      exact .of_fault hRead _
    | ok token later =>
      rw [hAnswer] at hNext
      -- the token is taken from the queue, or it is the end of the input
      obtain ⟨filled, hRead, rfl | ⟨_, rfl, rfl⟩⟩ := hNext
      · have hDue : scanner.due = token :: later.due := hRead.due.symm
        have hToken : token.isEof = false := hTokens token (hDue ▸ List.mem_cons_self)
        refine ⟨?_, congrArg _ hRead.pending, hRead.lineCount⟩
        show scanner.due = taken [(.next, .ok token)] ++ later.due
        rw [hDue]
        simp [taken, drawn, hToken]
      · exact ⟨hRead.due.symm, congrArg _ hRead.pending, hRead.lineCount⟩

/-- **What was delivered and what is due make up the whole**, after any
requests. -/
theorem answers_deliver (requests : List Request) (scanner : Scanner)
    (hTokens : ∀ token ∈ scanner.due, token.isEof = false) :
    Delivers scanner (scanner.answers requests) (scanner.after requests) := by
  -- request by request, as none of them takes an end of input
  induction requests generalizing scanner with
  | nil => exact .refl scanner
  | cons request requests ih =>
    have hFirst := perform_delivers request scanner hTokens
    exact hFirst.trans (ih _ (hFirst.isEof_of_mem_due hTokens))

/-- **Tokens in the queue are taken before anything else**, whatever is looked
at in between. -/
theorem answers_of_queue {tokens : List Token} (requests : List Request) {scanner : Scanner}
    (h : tokens <+: scanner.queue) :
    (drawn (scanner.answers requests)).take tokens.length <+: tokens.map .ok := by
  -- on the requests: a look ahead may make the queue longer, and only `next` takes its first
  -- token
  induction requests generalizing scanner tokens with
  | nil => simp [answers, drawn]
  | cons request requests ih =>
    cases request with
    | peek k =>
      have hQueue : scanner.queue <+: (final (peek k scanner)).queue := by
        have hPeek := peek_readOn k scanner
        cases hAnswer : peek k scanner with
        | ok token later =>
          rw [hAnswer] at hPeek
          exact hPeek.1.queue
        | error stop later =>
          rw [hAnswer] at hPeek
          obtain ⟨_, _, hRead⟩ := hPeek
          exact hRead.queue
      exact ih (h.trans hQueue)
    | next =>
      cases tokens with
      | nil => exact List.nil_prefix
      | cons token tokens =>
        obtain ⟨more, hMore⟩ := h
        have hNext : next scanner = .ok token { scanner with queue := tokens ++ more } :=
          next_of_queue hMore.symm
        have hLeft : tokens <+: ({ scanner with queue := tokens ++ more } : Scanner).queue :=
          List.prefix_append tokens more
        have hAnswers : scanner.answers (.next :: requests) =
            (.next, .ok token) ::
              answers { scanner with queue := tokens ++ more } requests := by
          rw [answers, Request.perform, hNext]
          rfl
        rw [hAnswers]
        exact List.cons_prefix_cons.mpr ⟨rfl, ih hLeft⟩

/-- At the end of the input every request is answered with it. -/
theorem answers_of_end {scanner : Scanner} (h : scanner.EndsBefore 0) (requests : List Request) :
    ∀ exchange ∈ scanner.answers requests, exchange.2 = .ok scanner.eof := by
  obtain ⟨queue, unread, line, log⟩ := scanner
  obtain ⟨hUnread, hQueue⟩ := h
  cases hUnread
  obtain rfl : queue = [] := List.eq_nil_of_length_eq_zero (Nat.le_zero.mp hQueue)
  have hPerform : ∀ request : Request,
      request.perform ⟨[], [], line, log⟩ = .ok ⟨.eof, line⟩ ⟨[], [], line, log⟩ := by
    intro request
    cases request <;> rfl
  -- no request changes a scanner that has nothing left
  induction requests with
  | nil => exact List.forall_mem_nil _
  | cons request requests ih =>
    rw [answers, hPerform]
    exact List.forall_mem_cons.mpr ⟨rfl, ih⟩

-- ---------------------------------------------------------------------------
-- What an answer promises
-- ---------------------------------------------------------------------------

/-- **A token that is shown can be taken**, after those before it. -/
theorem drawn_of_peek {k : Nat} {token : Token} {scanner later : Scanner}
    (hPeek : peek k scanner = .ok token later) (hToken : token.isEof = false) :
    ∃ before, before.length = k ∧ ∀ requests,
      (drawn (later.answers requests)).take (k + 1) <+: (before ++ [token]).map .ok := by
  have hRead := peek_readOn k scanner
  rw [hPeek] at hRead
  -- the token is in the queue, or an end of the input
  obtain ⟨_, hShown | ⟨_, rfl⟩⟩ := hRead
  · have hk : k < later.queue.length := (List.getElem?_eq_some_iff.mp hShown).1
    have hTake : later.queue.take (k + 1) = later.queue.take k ++ [token] := by
      rw [List.take_add_one, hShown]
      rfl
    have hLength : (later.queue.take k).length = k := List.length_take_of_le (Nat.le_of_lt hk)
    refine ⟨later.queue.take k, hLength, fun requests => ?_⟩
    have hFirst := answers_of_queue requests (List.take_prefix (k + 1) later.queue)
    rw [List.length_take_of_le hk, hTake] at hFirst
    exact hFirst
  · cases hToken

section End

-- No token to be delivered is an end of input, so that is only shown when all
-- is read.
variable {scanner later : Scanner} (hTokens : ∀ token ∈ scanner.due, token.isEof = false)
  {token : Token} (hToken : token.isEof = true)

include hTokens hToken

/-- The end of the input is shown if there are too few tokens left. -/
theorem few_of_peek {k : Nat} (hPeek : peek k scanner = .ok token later) :
    token = ⟨.eof, scanner.lineCount⟩ ∧ scanner.pending = [] ∧ scanner.due.length ≤ k := by
  have hRead := peek_readOn k scanner
  rw [hPeek] at hRead
  -- a token of the queue is no end of the input
  obtain ⟨hRead, hShown | ⟨hEnd, rfl⟩⟩ := hRead
  · have hMem : token ∈ scanner.due :=
      hRead.due ▸ List.mem_append_left _ (List.mem_of_getElem? hShown)
    rw [hTokens token hMem] at hToken
    cases hToken
  · exact hRead.ends hEnd

/-- The end of the input is handed out if nothing is left, and then for good. -/
theorem ended_of_next (hNext : next scanner = .ok token later) :
    token = ⟨.eof, scanner.lineCount⟩ ∧ scanner.pending = [] ∧ scanner.due = [] ∧
      ∀ requests, ∀ exchange ∈ later.answers requests, exchange.2 = .ok token := by
  have hRead := next_readOn scanner
  rw [hNext] at hRead
  obtain ⟨filled, hRead, rfl | ⟨hEnd, rfl, rfl⟩⟩ := hRead
  · have hMem : token ∈ scanner.due := hRead.due ▸ List.mem_cons_self
    rw [hTokens token hMem] at hToken
    cases hToken
  · obtain ⟨hEof, hNone, hFew⟩ := hRead.ends hEnd
    have hEmpty : scanner.due = [] := List.eq_nil_of_length_eq_zero (Nat.le_zero.mp hFew)
    exact ⟨hEof, hNone, hEmpty, answers_of_end hEnd⟩

end End

-- ---------------------------------------------------------------------------
-- A source text
-- ---------------------------------------------------------------------------

/-- **However one asks, a scanner delivers its text whole and once.** After any
requests, faults or not:
the tokens taken are the first ones of the text's lines, and what was reported
are the first faults of its lines;
a token that is shown `k` places ahead is the last of the next `k + 1` to be
taken, with no fault before it, whatever else is looked at;
the end of the input, on the last line, is shown `k` places ahead only if all
faults are reported and at most `k` tokens are left;
and it is handed out only if all tokens are taken and all faults reported, and
from then on it is the answer to every request. -/
theorem requests_deliver_text (source : String) (requests : List Request) :
    let lines := Text.lines source.toList
    let exchanges := (ofSource source).answers requests
    let scanner := (ofSource source).after requests
    taken exchanges <+: tokensOf 1 lines ∧
    reported exchanges <+: (faultsOf 1 lines).map Stop.fault ∧
    (∀ k token later, peek k scanner = .ok token later → token.isEof = false →
      ∃ before, before.length = k ∧ ∀ requests',
        (drawn (later.answers requests')).take (k + 1) <+: (before ++ [token]).map .ok) ∧
    (∀ k token later, peek k scanner = .ok token later → token.isEof = true →
      token = ⟨.eof, lines.length⟩ ∧ reported exchanges = (faultsOf 1 lines).map Stop.fault ∧
      (tokensOf 1 lines).length ≤ (taken exchanges).length + k) ∧
    ∀ token later, next scanner = .ok token later → token.isEof = true →
      token = ⟨.eof, lines.length⟩ ∧ reported exchanges = (faultsOf 1 lines).map Stop.fault ∧
      taken exchanges = tokensOf 1 lines ∧
      ∀ requests', ∀ exchange ∈ later.answers requests', exchange.2 = .ok token := by
  intro lines exchanges scanner
  have hTokens : ∀ token ∈ (ofSource source).due, token.isEof = false :=
    fun token hToken => isEof_of_mem_tokensOf hToken
  have hDelivers : Delivers (ofSource source) exchanges scanner :=
    answers_deliver requests (ofSource source) hTokens
  have hAll : tokensOf 1 lines = taken exchanges ++ scanner.due := hDelivers.tokens
  have hFaults : (faultsOf 1 lines).map Stop.fault =
      reported exchanges ++ scanner.pending.map Stop.fault := hDelivers.faults
  have hLines : scanner.lineCount = lines.length :=
    hDelivers.lineCount.trans (Nat.zero_add lines.length)
  have hReported : scanner.pending = [] →
      reported exchanges = (faultsOf 1 lines).map Stop.fault := by
    intro hNone
    rw [hFaults, hNone, List.map_nil, List.append_nil]
  -- what is still due are tokens of the text, none of which is an end of input
  have hDue := hDelivers.isEof_of_mem_due hTokens
  refine ⟨⟨_, hAll.symm⟩, ⟨_, hFaults.symm⟩, ?_, ?_, ?_⟩
  · exact fun k token later hPeek hToken => drawn_of_peek hPeek hToken
  · intro k token later hPeek hToken
    obtain ⟨hEof, hNone, hFew⟩ := few_of_peek hDue hToken hPeek
    refine ⟨hEof.trans (by rw [hLines]), hReported hNone, ?_⟩
    rw [hAll, List.length_append]
    omega
  · intro token later hNext hToken
    obtain ⟨hEof, hNone, hEmpty, hLater⟩ := ended_of_next hDue hToken hNext
    refine ⟨hEof.trans (by rw [hLines]), hReported hNone, ?_, hLater⟩
    rw [hAll, hEmpty, List.append_nil]

/-- A look past `a` meets the fault of the first line, and both tokens are still
there. -/
example : ((ofSource "a ?\nb").answers [.peek 1, .next, .next, .peek 3]).map (·.2) =
    [.error (.fault (.at (.unrecognized "?") 1)), .ok ⟨.identifier "a", 1⟩,
      .ok ⟨.identifier "b", 2⟩, .ok ⟨.eof, 2⟩] := by
  cbv

end Scanner

end Scriptlet
