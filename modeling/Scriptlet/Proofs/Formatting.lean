import Scriptlet.Proofs.Agreement
import Scriptlet.Proofs.Unlined

/-!
# Scriptlet — formatting does not change the meaning

Two texts with the same tokens may differ in blanks, line breaks, comments and
the spelling of literals, so their tokens are the same up to lines. To compare
their parses, both lists are seen as one list on other lines: the one in which
each token has its place in the list for its line. A fault in that list names
the place at which the parse fails.

* `parse_places` — a text parses as the places of its tokens do;
* `formatting_keeps_meaning` — texts with the same tokens parse to the same
  tree and run alike, or fail at the same place.
-/

namespace Scriptlet

-- ---------------------------------------------------------------------------
-- Places for lines
-- ---------------------------------------------------------------------------

namespace Token

/-- The tokens, each with its place in the list for its line. -/
def places (tokens : List Token) : List Token :=
  tokens.mapIdx fun i token => ⟨token.kind, i⟩

/-- The line of the token at a place. -/
def lineAt (tokens : List Token) (i : Nat) : Nat :=
  (tokens[i]?.map Token.line).getD 0

theorem getElem?_places (tokens : List Token) (i : Nat) :
    (places tokens)[i]? = tokens[i]?.map fun token => ⟨token.kind, i⟩ :=
  List.getElem?_mapIdx

theorem isEof_places {tokens : List Token} (h : ∀ token ∈ tokens, token.isEof = false) :
    ∀ token ∈ places tokens, token.isEof = false := by
  intro token hToken
  obtain ⟨i, hi, rfl⟩ := List.mem_mapIdx.mp hToken
  exact h tokens[i] (List.getElem_mem hi)

/-- Lists with the same kinds of tokens have the same places. -/
theorem places_congr {tokens others : List Token}
    (h : tokens.map Token.kind = others.map Token.kind) : places tokens = places others := by
  -- at each index only the kind of the token is left to compare
  refine List.ext_getElem? fun i => ?_
  have hKind := congrArg (·[i]?) h
  simp only [List.getElem?_map] at hKind
  rw [getElem?_places, getElem?_places]
  cases hToken : tokens[i]? <;> cases hOther : others[i]? <;> simp_all

/-- Put on the lines of the tokens, their places are the tokens. -/
theorem map_places {tokens all : List Token} (h : tokens <+: all) :
    (places tokens).map (Token.mapLine (lineAt all)) = tokens := by
  obtain ⟨more, rfl⟩ := h
  refine List.ext_getElem? fun i => ?_
  rw [List.getElem?_map, getElem?_places]
  cases hToken : tokens[i]? with
  | none => rfl
  | some token =>
    -- the place is one of the first tokens, so its line can be looked up in `all` too
    have hi := (List.getElem?_eq_some_iff.mp hToken).1
    have hLine : lineAt (tokens ++ more) i = token.line := by
      rw [lineAt, List.getElem?_append_left hi, hToken]
      rfl
    show some (Token.mk token.kind (lineAt (tokens ++ more) i)) = some token
    rw [hLine]

end Token

/-- The outcome of parsing the tokens of a whole text, the end of the input
included, with places for lines. -/
def parsePlaces (all : List Token) : Except Stop Program :=
  outcome (Scanner.ofTokens (Token.places all.dropLast) all.dropLast.length).parse

/-- `FailsAt all i expected`: the parse of these tokens fails at the one at
place `i`, where it wants something else. -/
def FailsAt (all : List Token) (i : Nat) (expected : Expectation) : Prop :=
  ∃ kind, parsePlaces all = .error (.fault (.unexpected ⟨kind, i⟩ expected))

/-- Lists with the same kinds of tokens have the same places, and these the same
parse. -/
theorem parsePlaces_congr {all others : List Token}
    (h : all.map Token.kind = others.map Token.kind) : parsePlaces all = parsePlaces others := by
  have hKinds : all.dropLast.map Token.kind = others.dropLast.map Token.kind := by
    rw [List.map_dropLast, List.map_dropLast, h]
  have hLength : all.dropLast.length = others.dropLast.length := by
    simpa using congrArg List.length hKinds
  rw [parsePlaces, parsePlaces, Token.places_congr hKinds, hLength]

-- ---------------------------------------------------------------------------
-- Parsing places
-- ---------------------------------------------------------------------------

/-- The tokens of a text are those its parse depends on, and the end of the
input. -/
theorem exists_tokens_of_tokenize {source : String} {all : List Token}
    (h : outcome (tokenize source) = .ok all) :
    ∃ tokens line, all = tokens ++ [⟨.eof, line⟩] ∧ (∀ token ∈ tokens, token.isEof = false) ∧
      outcome (Program.parse source) = outcome (Scanner.ofTokens tokens line).parse := by
  have hSpec := Scanner.tokenize_spec (.ofSource source)
  have hTokens := Scanner.isEof_ofSource source
  have hOutcome : outcome (Scanner.tokenize (.ofSource source)) = .ok all := h
  -- all tokens are read without a fault, so the stream does not end with one
  cases hEnding : (Scanner.ofSource source).stream.ending with
  | error fault =>
    rw [hEnding] at hSpec
    obtain ⟨_, hRun⟩ := hSpec
    rw [hRun] at hOutcome
    cases hOutcome
  | ok line =>
    rw [hEnding] at hSpec
    obtain ⟨_, hRun⟩ := hSpec
    rw [hRun] at hOutcome
    refine ⟨_, line, (Except.ok.inj hOutcome).symm, hTokens, ?_⟩
    have hStream : (Scanner.ofSource source).stream =
        (Scanner.ofTokens (Scanner.ofSource source).stream.tokens line).stream := by
      rw [Scanner.stream_ofTokens, ← hEnding]
    -- the parse of a source depends on its stream alone
    rcases agree_parse hStream hTokens with ⟨_, _, hParse, hParse', _⟩ | ⟨_, hParse, hParse', _⟩
    · exact hParse.trans hParse'.symm
    · exact hParse.trans hParse'.symm

/-- A parse of places fails at a place, for want of something else than the
token there. -/
theorem stop_of_places {tokens : List Token} (hTokens : ∀ token ∈ tokens, token.isEof = false)
    (line : Nat) {stop : Stop}
    (h : outcome (Scanner.ofTokens (Token.places tokens) tokens.length).parse = .error stop) :
    ∃ i token expected, (tokens ++ [⟨.eof, line⟩])[i]? = some token ∧
      stop = .fault (.unexpected ⟨token.kind, i⟩ expected) := by
  have hStream := Scanner.stream_ofTokens (Token.places tokens) tokens.length
  have hAgree := agree_parse rfl (by rw [hStream]; exact Token.isEof_places hTokens)
  rcases hAgree with ⟨_, _, hParse, _⟩ | ⟨stop', hParse, _, hStops⟩
  · rw [h] at hParse
    cases hParse
  · rw [h] at hParse
    cases hParse
    rw [hStream] at hStops
    -- a list of tokens ends without a fault, so the parse can only meet a wrong token
    cases hStops with
    | fault hFault => cases hFault
    | @unexpected token expected hShows =>
      obtain ⟨i, hLook⟩ := hShows
      rw [Stream.look, Token.getElem?_places] at hLook
      cases hToken : tokens[i]? with
      | some found =>
        rw [hToken] at hLook
        cases hLook
        have hi := (List.getElem?_eq_some_iff.mp hToken).1
        exact ⟨i, found, expected, by rw [List.getElem?_append_left hi, hToken], rfl⟩
      -- beyond the last token it was the end of the input that was met
      | none =>
        rw [hToken] at hLook
        cases hLook
        exact ⟨tokens.length, ⟨.eof, line⟩, expected, by simp, rfl⟩

/-- **A text parses as the places of its tokens do.** It has the tree of the
places on its own lines, or it fails at the token of the place at which they
fail. -/
theorem parse_places {source : String} {all : List Token}
    (h : outcome (tokenize source) = .ok all) :
    (∃ ast, parsePlaces all = .ok ast ∧
      outcome (Program.parse source) = .ok (Program.mapLines (Token.lineAt all) ast)) ∨
    (∃ i token expected, all[i]? = some token ∧
      parsePlaces all = .error (.fault (.unexpected ⟨token.kind, i⟩ expected)) ∧
      outcome (Program.parse source) = .error (.fault (.unexpected token expected))) := by
  obtain ⟨tokens, line, rfl, hTokens, hParse⟩ := exists_tokens_of_tokenize h
  -- the parser takes the places and the tokens through the same steps
  have hMirrored := parse_mapLine (Token.lineAt (tokens ++ [⟨.eof, line⟩])) (Token.places tokens)
    tokens.length
  have hEnd : Token.lineAt (tokens ++ [⟨.eof, line⟩]) tokens.length = line := by
    simp [Token.lineAt]
  rw [Token.map_places (List.prefix_append _ _), hEnd] at hMirrored
  have hDrop : (tokens ++ [Token.mk .eof line]).dropLast = tokens := List.dropLast_concat
  rw [parsePlaces, hDrop, hParse]
  cases hPlaces : outcome (Scanner.ofTokens (Token.places tokens) tokens.length).parse with
  | ok ast =>
    exact Or.inl ⟨ast, rfl, (hMirrored.outcome_eq_ok_iff _).mpr ⟨ast, hPlaces, rfl⟩⟩
  | error stop =>
    -- the fault stands where the place says, and its line is that of the token there
    obtain ⟨i, token, expected, hToken, rfl⟩ := stop_of_places hTokens line hPlaces
    refine Or.inr ⟨i, token, expected, hToken, rfl, ?_⟩
    obtain ⟨stop, hLike, hStop⟩ := hMirrored.outcome_of_error hPlaces
    have hLine : Token.lineAt (tokens ++ [⟨.eof, line⟩]) i = token.line := by
      rw [Token.lineAt, hToken]
      rfl
    rw [hStop, hLike.eq_of_unexpected, Token.mapLine, hLine]

-- ---------------------------------------------------------------------------
-- Main result
-- ---------------------------------------------------------------------------

/-- **Formatting does not change the meaning.** Let the tokens of two texts be
the same up to lines. Then both texts parse to the same tree up to lines, and
in every context, from every state and with any amount of fuel, the two runs
have the same outcome and leave the same host calls, variables and functions,
up to lines. Or both parses fail, at the same place and for want of the same, so
the diagnostics would be the same on one line. -/
theorem formatting_keeps_meaning {a b : String} {tokens others : List Token}
    (hFirst : outcome (tokenize a) = .ok tokens) (hSecond : outcome (tokenize b) = .ok others)
    (hKinds : tokens.map Token.kind = others.map Token.kind) :
    (∃ p q, outcome (Program.parse a) = .ok p ∧ outcome (Program.parse b) = .ok q ∧
      Program.unlined p = Program.unlined q ∧
      ∀ (σ : Type) (context : Context σ) (fuel : Nat) (state : RunState σ),
        OutcomesAgree (outcome (p.eval context fuel state))
          (outcome (q.eval context fuel state)) ∧
        (final (p.eval context fuel state)).SameButLines (final (q.eval context fuel state))) ∨
    (∃ i token other expected, tokens[i]? = some token ∧ others[i]? = some other ∧
      FailsAt tokens i expected ∧ FailsAt others i expected ∧
      outcome (Program.parse a) = .error (.fault (.unexpected token expected)) ∧
      outcome (Program.parse b) = .error (.fault (.unexpected other expected)) ∧
      ∀ line, (Fault.unexpected ⟨token.kind, line⟩ expected).diagnostic =
        (Fault.unexpected ⟨other.kind, line⟩ expected).diagnostic) := by
  have hPlaces := parsePlaces_congr hKinds
  rcases parse_places hFirst with ⟨ast, hAst, hParse⟩ | ⟨i, token, expected, hToken, hFail, hParse⟩
  -- the two trees come from the same places, and differ by the lines put on them
  · rcases parse_places hSecond with ⟨ast', hAst', hParse'⟩ | ⟨_, _, _, _, hFail', _⟩
    · obtain rfl : ast = ast' := by
        rw [hPlaces, hAst'] at hAst
        exact (Except.ok.inj hAst).symm
      have hUnlined : Program.unlined (Program.mapLines (Token.lineAt tokens) ast) =
          Program.unlined (Program.mapLines (Token.lineAt others) ast) := by
        rw [Program.unlined_mapLines, Program.unlined_mapLines]
      refine Or.inl ⟨_, _, hParse, hParse', hUnlined, fun σ context fuel state => ?_⟩
      exact (Program.eval_sameButLines context fuel hUnlined (.refl state)).visible
    -- one list of places cannot both parse and fail
    · rw [hPlaces, hFail'] at hAst
      cases hAst
  · rcases parse_places hSecond with ⟨_, hAst', _⟩ | ⟨j, other, expected', hOther, hFail', hParse'⟩
    · rw [hPlaces, hAst'] at hFail
      cases hFail
    · -- both lists have the same places, so the two faults are one
      have hSame := hFail
      rw [hPlaces, hFail'] at hSame
      have hCause := congrArg Fault.cause (Stop.fault.inj (Except.error.inj hSame))
      obtain ⟨hBoth, rfl⟩ := Cause.unexpected.inj hCause
      obtain ⟨hKind, rfl⟩ := Token.mk.inj hBoth
      refine Or.inr ⟨j, token, other, expected', hToken, hOther, ⟨_, hFail⟩, ⟨_, hFail'⟩, hParse,
        hParse', fun line => ?_⟩
      rw [hKind]

/-- A division by zero, written on one line and over several, with a comment
and a leading zero. -/
theorem formatting_keeps_division :
    outcome (tokenize "x=1/0;") =
        .ok [⟨.identifier "x", 1⟩, ⟨.assign, 1⟩, ⟨.number 1, 1⟩, ⟨.operator .div, 1⟩,
          ⟨.number 0, 1⟩, ⟨.separator .semicolon, 1⟩, ⟨.eof, 1⟩] ∧
      outcome (tokenize "\nx = 01 // one\n  / 0;") =
        .ok [⟨.identifier "x", 2⟩, ⟨.assign, 2⟩, ⟨.number 1, 2⟩, ⟨.operator .div, 3⟩,
          ⟨.number 0, 3⟩, ⟨.separator .semicolon, 3⟩, ⟨.eof, 3⟩] ∧
      ∃ p q, outcome (Program.parse "x=1/0;") = .ok p ∧
        outcome (Program.parse "\nx = 01 // one\n  / 0;") = .ok q ∧
        Program.unlined p = Program.unlined q ∧
        ∀ (σ : Type) (context : Context σ) (fuel : Nat) (state : RunState σ),
          OutcomesAgree (outcome (p.eval context fuel state))
            (outcome (q.eval context fuel state)) ∧
          (final (p.eval context fuel state)).SameButLines
            (final (q.eval context fuel state)) := by
  have hFirst : outcome (tokenize "x=1/0;") =
      .ok [⟨.identifier "x", 1⟩, ⟨.assign, 1⟩, ⟨.number 1, 1⟩, ⟨.operator .div, 1⟩,
        ⟨.number 0, 1⟩, ⟨.separator .semicolon, 1⟩, ⟨.eof, 1⟩] := by cbv
  have hSecond : outcome (tokenize "\nx = 01 // one\n  / 0;") =
      .ok [⟨.identifier "x", 2⟩, ⟨.assign, 2⟩, ⟨.number 1, 2⟩, ⟨.operator .div, 3⟩,
        ⟨.number 0, 3⟩, ⟨.separator .semicolon, 3⟩, ⟨.eof, 3⟩] := by cbv
  refine ⟨hFirst, hSecond, ?_⟩
  rcases formatting_keeps_meaning hFirst hSecond rfl with hRun | ⟨_, _, _, _, _, _, _, _, hFail, _⟩
  · exact hRun
  · have hParse : outcome (Program.parse "x=1/0;") =
        .ok [.expr ⟨some "x", .number 1, [(.div, .number 0)], 1⟩] := by cbv
    rw [hParse] at hFail
    cases hFail

end Scriptlet
