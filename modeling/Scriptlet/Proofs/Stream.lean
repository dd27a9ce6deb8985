import Scriptlet.Proofs.Spelling
import Scriptlet.Scanner

/-!
# Scriptlet — the stream behind a scanner

A scanner reads lines only on demand, so its state says little about what it
will hand out. Its *stream* says just that: the tokens up to the first faulty
line or the end of the text, and which of the two comes then. The tokens that
a faulty line has before its fault are not in the stream, since the fault is
reported when that line is read.

* `peek_spec`, `next_spec` — looking and taking are functions of the stream;
* `tokenize_spec` — so is tokenizing the whole text;
* `exists_of_mem_ahead` — each token of a text is one of a line, and stands there;
* `ahead_isEof`, `ahead_fault` — the tokens of a text lie on lines before the
  fault, if there is one, and none of them is the end of the input;
* `ahead_line`, `ahead_inOrder` — they stand on the lines of the text, in order;
* `length_stream_le` — there are no more tokens than characters.
-/

namespace Scriptlet

/-- Tokens in order, and what follows them: the end of a text with so many
lines, or a fault. -/
structure Stream where
  tokens : List Token
  ending : Except Fault Nat

namespace Stream

/-- What one sees `k` places ahead. -/
def look (stream : Stream) (k : Nat) : Except Fault Token :=
  match stream.tokens[k]? with
  | some token => .ok token
  | none => stream.ending.map (⟨.eof, ·⟩)

/-- What is left after one token is taken. -/
def tail (stream : Stream) : Stream :=
  ⟨stream.tokens.tail, stream.ending⟩

end Stream

namespace Scanner

/-- The stream of lines that are not yet scanned, after `line` others. -/
def ahead (line : Nat) : List (List Char) → Stream
  | [] => ⟨[], .ok line⟩
  | text :: unread =>
    match scanLine text with
    | (_, some cause) => ⟨[], .error (.at cause (line + 1))⟩
    | (kinds, none) =>
      let later := ahead (line + 1) unread
      ⟨kinds.map (⟨·, line + 1⟩) ++ later.tokens, later.ending⟩

theorem ahead_of_fault {line : Nat} {text : List Char} {unread : List (List Char)} {cause : Cause}
    (h : (scanLine text).2 = some cause) :
    ahead line (text :: unread) = ⟨[], .error (.at cause (line + 1))⟩ := by
  rw [ahead, show scanLine text = (_, some cause) from Prod.ext rfl h]

theorem ahead_of_none {line : Nat} {text : List Char} {unread : List (List Char)}
    (h : (scanLine text).2 = none) :
    ahead line (text :: unread) =
      ⟨(scanLine text).1.map (⟨·, line + 1⟩) ++ (ahead (line + 1) unread).tokens,
        (ahead (line + 1) unread).ending⟩ := by
  rw [ahead, show scanLine text = (_, none) from Prod.ext rfl h]

/-- The stream of a scanner: first what it has in its queue. -/
def stream (scanner : Scanner) : Stream :=
  let later := ahead scanner.line scanner.unread
  ⟨scanner.queue ++ later.tokens, later.ending⟩

/-- A scanner with nothing left to read has its queue as its stream. -/
theorem stream_of_unread_nil {scanner : Scanner} (h : scanner.unread = []) :
    scanner.stream = ⟨scanner.queue, .ok scanner.line⟩ := by
  rw [stream, h, ahead, List.append_nil]

theorem stream_ofTokens (tokens : List Token) (line : Nat) :
    (ofTokens tokens line).stream = ⟨tokens, .ok line⟩ :=
  stream_of_unread_nil rfl

-- ---------------------------------------------------------------------------
-- Filling, looking and taking
-- ---------------------------------------------------------------------------

/-- Filling the queue keeps the stream and stops when there is enough or
nothing left to read. It meets a fault only if the stream ends with that
fault and all its tokens are not enough. -/
theorem fillFrom_spec (enough : List Token → Bool) (queue : List Token) (line : Nat) (log : Log)
    (unread : List (List Char)) :
    match fillFrom enough queue line log unread with
    | .ok () scanner =>
      scanner.stream = ⟨queue ++ (ahead line unread).tokens, (ahead line unread).ending⟩ ∧
        (enough scanner.queue = true ∨ scanner.unread = [])
    | .error stop _ =>
      ∃ fault, stop = .fault fault ∧ (ahead line unread).ending = .error fault ∧
        enough (queue ++ (ahead line unread).tokens) = false := by
  -- induction on the unread lines: a line that is scanned goes from the text to the queue
  induction unread generalizing queue line log with
  | nil => exact ⟨rfl, Or.inr rfl⟩
  | cons text unread ih =>
    rw [fillFrom]
    by_cases hEnough : enough queue = true
    · rw [if_pos hEnough]
      exact ⟨rfl, Or.inl hEnough⟩
    · rw [if_neg hEnough, ahead]
      obtain ⟨kinds, cause⟩ := scanLine text
      cases cause with
      | some cause =>
        -- a fault is only met when the queue is still too short, and no token follows
        refine ⟨_, rfl, rfl, ?_⟩
        rw [List.append_nil]
        exact Bool.not_eq_true _ ▸ hEnough
      | none =>
        have h := ih (queue ++ kinds.map (⟨·, line + 1⟩)) (line + 1)
          (if kinds.isEmpty then log else log.push (.scannedLine (line + 1) kinds.length))
        simpa only [List.append_assoc] using h

/-- Filling the queue of a scanner keeps its stream, and meets only the fault at
its end. -/
theorem fill_spec (enough : List Token → Bool) (scanner : Scanner) :
    match fill enough scanner with
    | .ok () filled =>
      filled.stream = scanner.stream ∧ (enough filled.queue = true ∨ filled.unread = [])
    | .error stop _ =>
      ∃ fault, stop = .fault fault ∧ scanner.stream.ending = .error fault ∧
        enough scanner.stream.tokens = false :=
  fillFrom_spec enough scanner.queue scanner.line scanner.log scanner.unread

/-- A token that the queue holds is the one the stream shows. -/
theorem look_of_queue {scanner : Scanner} {k : Nat} {token : Token}
    (h : scanner.queue[k]? = some token) : scanner.stream.look k = .ok token := by
  have hk : k < scanner.queue.length := (List.getElem?_eq_some_iff.mp h).1
  rw [Stream.look, stream]
  simp only [List.getElem?_append_left hk, h]

/-- Where the queue ends and nothing is left to read, the stream shows the end
of the input. -/
theorem look_of_unread_nil {scanner : Scanner} {k : Nat} (hUnread : scanner.unread = [])
    (h : scanner.queue[k]? = none) : scanner.stream.look k = .ok scanner.eof := by
  rw [stream_of_unread_nil hUnread, Stream.look]
  simp only [h]
  rfl

/-- A fault is met only where the stream has no token left to show. -/
theorem look_of_fault {stream : Stream} {k : Nat} {fault : Fault}
    (hEnding : stream.ending = .error fault) (h : stream.tokens[k]? = none) :
    stream.look k = .error fault := by
  rw [Stream.look, h, hEnding]
  rfl

/-- **Looking ahead shows what the stream has there**, and keeps the stream. -/
theorem peek_spec (k : Nat) (scanner : Scanner) :
    match scanner.stream.look k with
    | .ok token => ∃ after, peek k scanner = .ok token after ∧ after.stream = scanner.stream
    | .error fault => ∃ after, peek k scanner = .error (.fault fault) after := by
  have hFill := fill_spec (fun queue => !(queue.drop k).isEmpty) scanner
  rw [peek]
  cases h : fill (fun queue => !(queue.drop k).isEmpty) scanner with
  | ok _ filled =>
    rw [h] at hFill
    obtain ⟨hStream, hStop⟩ := hFill
    rw [bind_of_ok h, ← hStream]
    cases hToken : filled.queue[k]? with
    | some token =>
      rw [look_of_queue hToken]
      refine ⟨filled, ?_, rfl⟩
      show EStateM.Result.ok (filled.queue[k]?.getD filled.eof) filled = _
      rw [hToken]
      rfl
    | none =>
      -- not enough, so everything is read
      have hUnread : filled.unread = [] := by
        refine hStop.resolve_left ?_
        have hk := List.getElem?_eq_none_iff.mp hToken
        simp [List.drop_eq_nil_of_le hk]
      rw [look_of_unread_nil hUnread hToken]
      refine ⟨filled, ?_, rfl⟩
      show EStateM.Result.ok (filled.queue[k]?.getD filled.eof) filled = _
      rw [hToken]
      rfl
  | error stop filled =>
    rw [h] at hFill
    obtain ⟨fault, rfl, hEnding, hFew⟩ := hFill
    -- all the tokens of the stream were not enough, so there is none at this place
    have hNone : scanner.stream.tokens[k]? = none := by
      simpa using hFew
    rw [look_of_fault hEnding hNone]
    exact ⟨filled, bind_of_error h⟩

/-- **Taking a token gives what the stream shows first**, and leaves its
tail. -/
theorem next_spec (scanner : Scanner) :
    match scanner.stream.look 0 with
    | .ok token => ∃ after, next scanner = .ok token after ∧ after.stream = scanner.stream.tail
    | .error fault => ∃ after, next scanner = .error (.fault fault) after := by
  have hFill := fill_spec (fun queue => !queue.isEmpty) scanner
  rw [next]
  cases h : fill (fun queue => !queue.isEmpty) scanner with
  | ok _ filled =>
    rw [h] at hFill
    obtain ⟨hStream, hStop⟩ := hFill
    rw [bind_of_ok h, ← hStream]
    obtain ⟨queue, unread, line, log⟩ := filled
    cases queue with
    | cons token queue =>
      rw [look_of_queue rfl]
      exact ⟨⟨queue, unread, line, log⟩, rfl, rfl⟩
    | nil =>
      -- an empty queue is never enough, so everything is read
      have hUnread : unread = [] := by
        refine hStop.resolve_left ?_
        simp
      subst hUnread
      rw [look_of_unread_nil rfl rfl]
      exact ⟨⟨[], [], line, log⟩, rfl, rfl⟩
  | error stop filled =>
    rw [h] at hFill
    obtain ⟨fault, rfl, hEnding, hFew⟩ := hFill
    -- all the tokens of the stream were not enough, so there is none
    have hNone : scanner.stream.tokens[0]? = none := by
      simpa using hFew
    rw [look_of_fault hEnding hNone]
    exact ⟨filled, bind_of_error h⟩

/-- **Tokenizing takes the whole stream**, or stops with the fault at its
end. -/
theorem tokenize_spec (scanner : Scanner) :
    match scanner.stream.ending with
    | .ok line =>
      ∃ after, tokenize scanner = .ok (scanner.stream.tokens ++ [⟨.eof, line⟩]) after
    | .error fault => ∃ after, tokenize scanner = .error (.fault fault) after := by
  have hFill := fill_spec (fun _ => false) scanner
  rw [tokenize]
  cases h : fill (fun _ => false) scanner with
  | ok _ filled =>
    rw [h] at hFill
    obtain ⟨hStream, hStop⟩ := hFill
    -- nothing is ever enough here
    have hUnread : filled.unread = [] := hStop.resolve_left (by simp)
    rw [bind_of_ok h, ← hStream, stream_of_unread_nil hUnread]
    exact ⟨_, rfl⟩
  | error stop filled =>
    rw [h] at hFill
    obtain ⟨fault, rfl, hEnding, _⟩ := hFill
    rw [hEnding]
    exact ⟨filled, bind_of_error h⟩

-- ---------------------------------------------------------------------------
-- The tokens of a text
-- ---------------------------------------------------------------------------

/-- A token of a text is one of the tokens of a line, and stands on that line. -/
theorem exists_of_mem_ahead {line : Nat} {unread : List (List Char)} {token : Token}
    (h : token ∈ (ahead line unread).tokens) :
    ∃ i text, unread[i]? = some text ∧ token.line = line + i + 1 ∧
      token.kind ∈ (scanLine text).1 := by
  -- induction on the lines: the tokens are those of the first line and those of the others
  induction unread generalizing line with
  | nil => cases h
  | cons text unread ih =>
    cases hCause : (scanLine text).2 with
    | some cause =>
      rw [ahead_of_fault hCause] at h
      cases h
    | none =>
      rw [ahead_of_none hCause] at h
      rcases List.mem_append.mp h with hHere | hLater
      · obtain ⟨kind, hKind, rfl⟩ := List.mem_map.mp hHere
        exact ⟨0, text, rfl, rfl, hKind⟩
      · obtain ⟨i, later, hText, hLine, hKind⟩ := ih hLater
        exact ⟨i + 1, later, hText, by omega, hKind⟩

/-- The end of the input is not among the tokens that are scanned. -/
theorem ahead_isEof (line : Nat) (unread : List (List Char)) :
    ∀ token ∈ (ahead line unread).tokens, token.isEof = false := by
  intro token hToken
  obtain ⟨_, text, _, _, hKind⟩ := exists_of_mem_ahead hToken
  exact beq_eq_false_iff_ne.mpr (scanLine_ne_eof hKind)

/-- The tokens of a text stand on its lines. -/
theorem ahead_line (line : Nat) (unread : List (List Char)) :
    ∀ token ∈ (ahead line unread).tokens,
      line < token.line ∧ token.line ≤ line + unread.length := by
  intro token hToken
  obtain ⟨i, text, hText, hLine, _⟩ := exists_of_mem_ahead hToken
  have hIndex : i < unread.length := (List.getElem?_eq_some_iff.mp hText).1
  omega

/-- The tokens of a text come in the order of their lines. -/
theorem ahead_inOrder (line : Nat) (unread : List (List Char)) :
    (ahead line unread).tokens.Pairwise fun first later => first.line ≤ later.line := by
  induction unread generalizing line with
  | nil => exact .nil
  | cons text unread ih =>
    cases hCause : (scanLine text).2 with
    | some cause =>
      rw [ahead_of_fault hCause]
      exact .nil
    | none =>
      rw [ahead_of_none hCause]
      refine List.pairwise_append.mpr ⟨?_, ih (line + 1), ?_⟩
      · exact List.pairwise_map.mpr (List.pairwise_of_forall fun _ _ => Nat.le_refl _)
      · intro first hFirst later hLater
        obtain ⟨kind, _, rfl⟩ := List.mem_map.mp hFirst
        exact Nat.le_of_lt (ahead_line (line + 1) unread later hLater).1

theorem isEof_ofSource (source : String) :
    ∀ token ∈ (ofSource source).stream.tokens, token.isEof = false :=
  ahead_isEof 0 (Text.lines source.toList)

/-- A fault is one of the text, and it lies on a line after all tokens. -/
theorem ahead_fault {line : Nat} {unread : List (List Char)} {fault : Fault}
    (h : (ahead line unread).ending = .error fault) :
    ∃ cause faultLine, fault = .at cause faultLine ∧ cause.kind = .lexical ∧
      line < faultLine ∧ ∀ token ∈ (ahead line unread).tokens, token.line < faultLine := by
  induction unread generalizing line with
  | nil => cases h
  | cons text unread ih =>
    cases hCause : (scanLine text).2 with
    | some cause =>
      rw [ahead_of_fault hCause] at h ⊢
      cases h
      exact ⟨cause, line + 1, rfl, scanLine_lexical hCause, Nat.lt_succ_self line, by simp⟩
    | none =>
      -- the fault is on one of the later lines, and so after the tokens of this one
      rw [ahead_of_none hCause] at h ⊢
      obtain ⟨cause, faultLine, rfl, hKind, hLine, hTokens⟩ := ih h
      refine ⟨cause, faultLine, rfl, hKind, by omega, ?_⟩
      intro token hToken
      rcases List.mem_append.mp hToken with hHere | hLater
      · obtain ⟨kind, _, rfl⟩ := List.mem_map.mp hHere
        exact hLine
      · exact hTokens token hLater

/-- There are no more tokens than characters to read. -/
theorem length_stream_le (scanner : Scanner) :
    scanner.stream.tokens.length ≤ scanner.size := by
  obtain ⟨queue, unread, line, log⟩ := scanner
  rw [stream, size]
  simp only [List.length_append]
  -- each line has no more tokens than characters, and the queue stays as it is
  induction unread generalizing line with
  | nil => simp [ahead]
  | cons text unread ih =>
    have hLength := length_scanLine_le text
    have hLater := ih (line + 1)
    rw [List.foldr_cons]
    cases hCause : (scanLine text).2 with
    | some cause =>
      rw [ahead_of_fault hCause, List.length_nil]
      omega
    | none =>
      rw [ahead_of_none hCause, List.length_append, List.length_map]
      omega

end Scanner

end Scriptlet
