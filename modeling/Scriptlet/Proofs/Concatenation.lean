import Mathlib
import Scriptlet.Proofs.Recognition
import Scriptlet.Proofs.Relocation

/-!
# Scriptlet — texts one after the other

A program that is complete takes nothing of what follows it. So if a text
parses, and another is put behind it on lines of its own, then the whole parses
exactly if the other text does, to the statements of both.

* `Text.lines_append_newline` — the lines of two texts with a newline between
  them;
* `scanLine_dropReturn` — the one character that the newline may take from the
  line before it does not matter;
* `Scanner.ahead_append`, `Scanner.ahead_shift` — the tokens of both texts;
* `Derivation.append_block`, `Derivation.split_block` — the statements of both;
* `parse_append` — programs written one after the other.
-/

namespace Scriptlet

-- ---------------------------------------------------------------------------
-- Lines
-- ---------------------------------------------------------------------------

namespace Text

/-- A character that ends no line stands in front of the first line. -/
theorem lines_cons {c : Char} {text : List Char} (hNewline : c ≠ '\n')
    (hReturn : c = '\r' → text.head? ≠ some '\n') :
    lines (c :: text) = (c :: (lines text).headD []) :: (lines text).tail := by
  rw [lines]
  · cases lines text <;> rfl
  · exact hNewline
  · rintro after rfl rfl
    exact hReturn rfl rfl

theorem eq_nil_of_lines {text : List Char} (h : lines text = []) : text = [] := by
  fun_cases lines text with
  | case1 => rfl
  | case2 | case3 | case4 | case5 => simp_all [lines]

/-- `Ended lines lines'`: the lines of a text, and its lines once a newline is
put behind it. An empty text gets a line, and the last line may lose a carriage
return. -/
inductive Ended : List (List Char) → List (List Char) → Prop
  | empty : Ended [] [[]]
  | kept (line : List Char) : Ended [line] [line]
  | trimmed (line : List Char) : Ended [line ++ ['\r']] [line]
  | later (line : List Char) {lines lines' : List (List Char)} (h : Ended lines lines') :
    Ended (line :: lines) (line :: lines')

/-- A character in front of the first line makes no difference to the last. -/
theorem Ended.cons_head {first first' : List Char} {rest rest' : List (List Char)}
    (h : Ended (first :: rest) (first' :: rest')) (c : Char) :
    Ended ((c :: first) :: rest) ((c :: first') :: rest') := by
  cases h with
  | kept => exact .kept _
  | trimmed => exact .trimmed (c :: first')
  | later _ h => exact .later _ h

/-- A newline ends the lines of the text before it, and what follows has lines
of its own. -/
theorem lines_append_newline (a : List Char) :
    ∃ front, Ended (lines a) front ∧ front.length = a.count '\n' + 1 ∧
      ∀ b, lines (a ++ '\n' :: b) = front ++ lines b := by
  -- one case for each pattern of `lines`: no text, the two line ends, and any other character
  fun_induction lines a with
  | case1 => exact ⟨[[]], .empty, rfl, fun b => rfl⟩
  | case2 text ih =>
    obtain ⟨front, hEnded, hLength, hLines⟩ := ih
    refine ⟨[] :: front, .later [] hEnded, ?_, fun b => ?_⟩
    · rw [List.length_cons, hLength, List.count_cons_self]
    · rw [List.cons_append, lines, hLines, List.cons_append]
  | case3 text ih =>
    obtain ⟨front, hEnded, hLength, hLines⟩ := ih
    refine ⟨[] :: front, .later [] hEnded, ?_, fun b => ?_⟩
    · rw [List.length_cons, hLength, List.count_cons_of_ne (by decide), List.count_cons_self]
    · rw [List.cons_append, List.cons_append, lines, hLines, List.cons_append]
  | case4 c text hNewline _ hText _ =>
    -- the last character, which may be a carriage return
    obtain rfl := eq_nil_of_lines hText
    by_cases hReturn : c = '\r'
    · subst hReturn
      exact ⟨[[]], .trimmed [], rfl, fun b => rfl⟩
    · refine ⟨[[c]], .kept [c], ?_, fun b => ?_⟩
      · rw [List.count_cons_of_ne hNewline, List.count_nil, List.length_singleton]
      · rw [List.cons_append, lines_cons hNewline fun h => absurd h hReturn]
        rfl
  -- a character before others of its line, which joins what the newline has made of that line
  | case5 c text hNewline hReturn line rest hText ih =>
    obtain ⟨front, hEnded, hLength, hLines⟩ := ih
    obtain ⟨first, front, rfl⟩ := List.exists_cons_of_length_eq_add_one hLength
    rw [hText] at hEnded
    refine ⟨(c :: first) :: front, hEnded.cons_head c, ?_, fun b => ?_⟩
    · rw [List.count_cons_of_ne hNewline, ← hLength]
      rfl
    · obtain ⟨d, text, rfl⟩ : ∃ d tail, text = d :: tail := by
        cases text with
        | nil => cases hText
        | cons d tail => exact ⟨d, tail, rfl⟩
      have hHead : c = '\r' → (d :: text ++ '\n' :: b).head? ≠ some '\n' := by
        rintro rfl hd
        cases hd
        exact hReturn text rfl rfl
      rw [List.cons_append, lines_cons hNewline hHead, hLines]
      rfl

end Text

-- ---------------------------------------------------------------------------
-- A carriage return at the end of a line
-- ---------------------------------------------------------------------------

open Text

theorem EndsClass.of_append {p : Char → Bool} {rest : List Char} {c : Char}
    (h : EndsClass p (rest ++ [c])) : EndsClass p rest := by
  cases rest with
  | nil => simp [EndsClass]
  | cons d rest => exact h

theorem head?_ne_of_append {rest : List Char} {c d : Char}
    (h : (rest ++ [c]).head? ≠ some d) : rest.head? ≠ some d := by
  cases rest with
  | nil => simp
  | cons e rest => exact h

/-- A token does not depend on the last character of the text behind it. -/
theorem Spelled.of_append {raw rest : List Char} {kind : TokenKind} {c : Char}
    (h : Spelled raw kind (rest ++ [c])) : Spelled raw kind rest := by
  cases h with
  | keyword hEnd => exact .keyword hEnd.of_append
  | identifier hStart hChars hOther hEnd => exact .identifier hStart hChars hOther hEnd.of_append
  | number hDigits hEnd hValue => exact .number hDigits hEnd.of_append hValue
  | negative hDigits hValue => exact .negative hDigits hValue
  | text hInner => exact .text hInner
  | operator hEqual hSlash =>
    -- an operator looks at one character behind it, and that is not taken
    exact .operator (fun hOp => head?_ne_of_append (hEqual hOp))
      fun hOp => head?_ne_of_append (hSlash hOp)
  | assign hEqual => exact .assign (head?_ne_of_append hEqual)
  | separator hOpen =>
    -- without the last character, no minus and digits appear behind a parenthesis
    refine .separator fun hSign => ?_
    rintro ⟨digits, after, hDigits, rfl⟩
    exact hOpen hSign ⟨digits, after ++ [c], hDigits, by simp⟩

/-- No token ends with a carriage return. -/
theorem Spelled.getLast?_ne {raw rest : List Char} {kind : TokenKind}
    (h : Spelled raw kind rest) : raw.getLast? ≠ some '\r' := by
  cases h with
  -- a text and a negative number end in a sign, and the other forms hold no carriage return
  | keyword hEnd =>
    rename_i word
    cases word <;> decide
  | identifier hStart hChars hOther hEnd =>
    intro hLast
    rcases List.mem_cons.mp (List.mem_of_getLast? hLast) with rfl | hMem
    · cases hStart
    · cases hChars _ hMem
  | number hDigits hEnd hValue =>
    intro hLast
    cases hDigits.2 _ (List.mem_of_getLast? hLast)
  | negative hDigits hValue =>
    rw [List.getLast?_concat]
    decide
  | text hInner =>
    rw [List.getLast?_concat]
    decide
  | operator hEqual hSlash =>
    rename_i op
    cases op <;> decide
  | assign hEqual => decide
  | separator hOpen =>
    rename_i sign
    cases sign <;> decide

/-- A carriage return at the end of a line belongs to its blanks or to its
comment, and the line follows the rules without it. -/
theorem Layout.Valid.dropReturn {pieces : List Piece} {blanks comment line : List Char}
    (h : Layout.Valid ⟨pieces, blanks, comment⟩)
    (hText : Layout.text ⟨pieces, blanks, comment⟩ = line ++ ['\r']) :
    ∃ blanks' comment', Layout.Valid ⟨pieces, blanks', comment'⟩ ∧
      Layout.text ⟨pieces, blanks', comment'⟩ = line := by
  -- induction on the tokens of the line, since the carriage return stands behind the last one
  induction pieces generalizing line with
  | nil =>
    have hTail : blanks ++ comment = line ++ ['\r'] := hText
    rcases h.comment with hEmpty | ⟨after, hAfter⟩
    -- no comment, so the carriage return is a blank
    · obtain rfl : comment = [] := hEmpty
      rw [List.append_nil] at hTail
      subst hTail
      refine ⟨line, [], ⟨trivial, ?_, Or.inl rfl⟩, List.append_nil line⟩
      exact fun c hc => h.blank c (List.mem_append_left _ hc)
    · obtain rfl : comment = '/' :: '/' :: after := hAfter
      -- the comment has its two slashes, so the carriage return is a character after them
      rcases List.eq_nil_or_concat after with rfl | ⟨after, c, rfl⟩
      · have hLast := congrArg List.getLast? hTail
        simp at hLast
      · have hSplit : (blanks ++ '/' :: '/' :: after) ++ [c] = line ++ ['\r'] := by
          simpa using hTail
        obtain ⟨hLine, -⟩ := List.append_inj' hSplit rfl
        exact ⟨blanks, '/' :: '/' :: after, ⟨trivial, h.blank, Or.inr ⟨after, rfl⟩⟩, hLine⟩
  | cons piece pieces ih =>
    obtain ⟨before, raw, kind⟩ := piece
    have hBefore : ∀ c ∈ before, isBlank c = true := h.spells.1
    have hSpelled : Spelled raw kind (Layout.text ⟨pieces, blanks, comment⟩) := h.spells.2.1
    have hLine : before ++ (raw ++ Layout.text ⟨pieces, blanks, comment⟩) = line ++ ['\r'] := hText
    rcases List.eq_nil_or_concat (Layout.text ⟨pieces, blanks, comment⟩) with
      hRest | ⟨rest, c, hConcat⟩
    · -- the line ends with a token
      obtain ⟨d, raw', rfl, _⟩ := hSpelled.head
      refine absurd ?_ hSpelled.getLast?_ne
      have hLast := congrArg List.getLast? hLine
      rw [hRest, List.append_nil, List.getLast?_concat, List.getLast?_append] at hLast
      simpa using hLast
    · have hRest := hConcat.trans List.concat_eq_append
      have hSplit : (before ++ (raw ++ rest)) ++ [c] = line ++ ['\r'] := by
        rw [← hLine, hRest]
        simp
      obtain ⟨rfl, hc⟩ := List.append_inj' hSplit rfl
      cases hc
      obtain ⟨blanks', comment', hValid, hText'⟩ := ih h.later hRest
      have hShorter : Spelled raw kind (Layout.text ⟨pieces, blanks', comment'⟩) := by
        rw [hText']
        rw [hRest] at hSpelled
        exact hSpelled.of_append
      refine ⟨blanks', comment', hValid.cons hBefore hShorter, ?_⟩
      show before ++ (raw ++ Layout.text ⟨pieces, blanks', comment'⟩) = _
      rw [hText']

/-- **A line without a fault has the same tokens without a carriage return at
its end.** -/
theorem scanLine_dropReturn {line : List Char} (h : (scanLine (line ++ ['\r'])).2 = none) :
    scanLine line = scanLine (line ++ ['\r']) := by
  obtain ⟨⟨pieces, blanks, comment⟩, hValid, hText⟩ := exists_layout h
  obtain ⟨blanks', comment', hValid', rfl⟩ := hValid.dropReturn hText
  rw [← hText, hValid.scanLine_text, hValid'.scanLine_text]
  rfl

-- ---------------------------------------------------------------------------
-- The tokens of both texts
-- ---------------------------------------------------------------------------

namespace Stream

/-- The stream on other lines. -/
def mapLine (f : Nat → Nat) (stream : Stream) : Stream :=
  ⟨stream.tokens.map (Token.mapLine f),
    match stream.ending with
    | .ok line => .ok (f line)
    | .error fault => .error ⟨fault.cause, fault.line.map f⟩⟩

/-- A stream is without a fault on other lines exactly if it is on its own. -/
theorem ending_mapLine (f : Nat → Nat) (stream : Stream) :
    (∃ line, (stream.mapLine f).ending = .ok line) ↔ ∃ line, stream.ending = .ok line := by
  obtain ⟨tokens, ending⟩ := stream
  cases ending with
  | ok line => exact ⟨fun _ => ⟨line, rfl⟩, fun _ => ⟨f line, rfl⟩⟩
  | error fault => constructor <;> rintro ⟨_, ⟨⟩⟩

end Stream

namespace Scanner

/-- Behind lines without a fault, other lines have the tokens that they have
anyway. -/
theorem ahead_append {line n : Nat} {front : List (List Char)}
    (h : (ahead line front).ending = .ok n) (more : List (List Char)) :
    n = line + front.length ∧
      ahead line (front ++ more) =
        ⟨(ahead line front).tokens ++ (ahead n more).tokens, (ahead n more).ending⟩ := by
  -- induction on the lines in front: they have no fault, so each adds its tokens
  induction front generalizing line with
  | nil =>
    cases h
    exact ⟨rfl, rfl⟩
  | cons text front ih =>
    cases hCause : (scanLine text).2 with
    | some cause =>
      rw [ahead_of_fault hCause] at h
      cases h
    | none =>
      rw [ahead_of_none hCause] at h
      obtain ⟨rfl, hAhead⟩ := ih h
      refine ⟨by rw [List.length_cons]; omega, ?_⟩
      rw [List.cons_append, ahead_of_none hCause, ahead_of_none hCause, hAhead]
      simp only [List.append_assoc]

/-- Lines that come later have the same tokens on later lines. -/
theorem ahead_shift (n line : Nat) (unread : List (List Char)) :
    ahead (line + n) unread = (ahead line unread).mapLine (· + n) := by
  induction unread generalizing line with
  | nil => rfl
  | cons text unread ih =>
    have hNext : line + n + 1 = line + 1 + n := by omega
    cases hCause : (scanLine text).2 with
    | some cause =>
      rw [ahead_of_fault hCause, ahead_of_fault hCause, hNext]
      rfl
    | none =>
      rw [ahead_of_none hCause, ahead_of_none hCause, hNext, ih]
      simp only [Stream.mapLine, List.map_append, List.map_map]
      rfl

/-- A newline at the end of a text without a fault adds no token and takes
none. -/
theorem ahead_ended {line n : Nat} {lines lines' : List (List Char)}
    (hEnded : Text.Ended lines lines') (h : (ahead line lines).ending = .ok n) :
    (ahead line lines').tokens = (ahead line lines).tokens ∧
      ∃ n', (ahead line lines').ending = .ok n' := by
  -- by how the newline changes the last line; the lines before it stay
  induction hEnded generalizing line with
  | empty =>
    have hScan : scanLine [] = ([], none) := scanLine_of_done rfl
    rw [ahead_of_none (congrArg Prod.snd hScan), hScan]
    exact ⟨rfl, line + 1, rfl⟩
  | kept text => exact ⟨rfl, n, h⟩
  | trimmed text =>
    cases hCause : (scanLine (text ++ ['\r'])).2 with
    | some cause =>
      rw [ahead_of_fault hCause] at h
      cases h
    | none =>
      have hScan := scanLine_dropReturn hCause
      -- a carriage return was taken from the last line, whose tokens stay
      rw [ahead_of_none hCause, ahead_of_none (hScan ▸ hCause), hScan]
      exact ⟨rfl, line + 1, rfl⟩
  | later text _ ih =>
    cases hCause : (scanLine text).2 with
    | some cause =>
      rw [ahead_of_fault hCause] at h
      cases h
    | none =>
      rw [ahead_of_none hCause] at h
      obtain ⟨hTokens, hEnding⟩ := ih h
      rw [ahead_of_none hCause, ahead_of_none hCause, hTokens]
      exact ⟨rfl, hEnding⟩

/-- **Behind a text without a fault, another text has its own tokens**, on
later lines. -/
theorem stream_append {a : String} {n : Nat} (h : (ofSource a).stream.ending = .ok n)
    (b : String) :
    (ofSource (a ++ "\n" ++ b)).stream =
      ⟨(ofSource a).stream.tokens ++
          ((ofSource b).stream.mapLine (· + (a.toList.count '\n' + 1))).tokens,
        ((ofSource b).stream.mapLine (· + (a.toList.count '\n' + 1))).ending⟩ := by
  -- the newline makes lines of the first text that have its tokens, and the others follow
  obtain ⟨front, hEnded, hLength, hLines⟩ := Text.lines_append_newline a.toList
  have hText : (a ++ "\n" ++ b).toList = a.toList ++ '\n' :: b.toList := by simp
  have hFirst : (ahead 0 (Text.lines a.toList)).ending = .ok n := h
  obtain ⟨hTokens, n', hEnding⟩ := ahead_ended hEnded hFirst
  obtain ⟨rfl, hAhead⟩ := ahead_append hEnding (Text.lines b.toList)
  show ahead 0 (Text.lines (a ++ "\n" ++ b).toList) = _
  rw [hText, hLines, hAhead, hTokens, hLength, ahead_shift]
  rfl

end Scanner

-- ---------------------------------------------------------------------------
-- The statements of both texts
-- ---------------------------------------------------------------------------

namespace Derivation

/-- The statements of two blocks, one behind the other. -/
theorem append_block {outermost : Bool} {items more : List Stmt} {input mid rest : List Token}
    (d : Derivation (.block outermost) input items mid)
    (d' : Derivation (.block outermost) mid more rest) :
    Nonempty (Derivation (.block outermost) input (items ++ more) rest) := by
  -- induction on the first block, whose end is where the second one begins
  induction items generalizing input with
  | nil =>
    cases d with
    | blockEnd => exact ⟨d'⟩
  | cons s items ih =>
    cases d with
    | item first later =>
      obtain ⟨d''⟩ := ih later
      exact ⟨.item first d''⟩

/-- A statement shows itself where it ends, so the tokens settle it. -/
theorem statement_unique {outermost : Bool} {s s' : Stmt} {input rest rest' : List Token}
    (d : Derivation (.statement outermost) input s rest)
    (d' : Derivation (.statement outermost) input s' rest') : s = s' ∧ rest = rest' := by
  -- the parser gives one answer for these tokens
  have hRun := run_of_derivation d trivial 0 .empty _ (Nat.le_refl _)
  rw [run_of_derivation d' trivial 0 .empty _ (Nat.le_refl _)] at hRun
  obtain rfl : s' = s := (EStateM.Result.ok.inj hRun).1
  exact ⟨rfl, (d.heq_of_tree d').1⟩

/-- A complete block is a part of every block that starts with its tokens. -/
theorem split_block {outermost : Bool} {items all : List Stmt} {input more rest : List Token}
    (d : Derivation (.block outermost) input items [])
    (d' : Derivation (.block outermost) (input ++ more) all rest) (hRest : rest = []) :
    ∃ later, all = items ++ later ∧ Nonempty (Derivation (.block outermost) more later rest) := by
  -- induction on the statements of the complete block, which the other one has to start with
  induction items generalizing input all with
  | nil =>
    cases d with
    | blockEnd => exact ⟨all, rfl, ⟨d'⟩⟩
  | cons s items ih =>
    cases d with
    | item first later =>
      have first' := first.append more (by rintro ⟨⟩)
      cases d' with
      | blockEnd =>
        -- a statement takes at least one token, and none is there
        have hLength := first'.length_rest
        rw [hRest] at hLength
        simp [Nonterminal.least] at hLength
      | item found others =>
        obtain ⟨rfl, rfl⟩ := first'.statement_unique found
        obtain ⟨tail, rfl, hTail⟩ := ih later others
        exact ⟨tail, rfl, hTail⟩

end Derivation

-- ---------------------------------------------------------------------------
-- Main results
-- ---------------------------------------------------------------------------

/-- A scanner parses to a tree exactly if its stream has no fault and derives
from the grammar with that tree. -/
theorem Scanner.parse_eq_ok_iff {scanner : Scanner}
    (hTokens : ∀ token ∈ scanner.stream.tokens, token.isEof = false) {ast : Program} :
    outcome scanner.parse = .ok ast ↔
      (∃ line, scanner.stream.ending = .ok line) ∧
        Nonempty (Derivation (.block true) scanner.stream.tokens ast []) := by
  constructor
  · intro hParse
    -- the parser agrees with the grammar on a stream that ends without a fault
    rcases agree_parse rfl hTokens with ⟨ast', line, hParse', _, hEnding, hTree⟩ | ⟨_, hStop, _, _⟩
    · rw [hParse] at hParse'
      cases hParse'
      exact ⟨⟨line, hEnding⟩, hTree⟩
    · rw [hParse] at hStop
      cases hStop
  · rintro ⟨⟨line, hEnding⟩, ⟨d⟩⟩
    have hStream : scanner.stream = (ofTokens scanner.stream.tokens line).stream := by
      rw [stream_ofTokens, ← hEnding]
    have hParse := outcome_of_derivation hTokens (.program (d.append [⟨.eof, line⟩] nofun))
    rcases agree_parse hStream hTokens with ⟨ast', _, hFound, hFound', _, _⟩ | ⟨_, _, hStop, _⟩
    · rw [hFound'] at hParse
      rw [hFound, hParse]
    · rw [hParse] at hStop
      cases hStop

/-- A finished list of tokens parses to a tree exactly if it derives from the
grammar with that tree. -/
theorem Scanner.parse_ofTokens_eq_ok_iff {tokens : List Token} (line : Nat)
    (hTokens : ∀ token ∈ tokens, token.isEof = false) {ast : Program} :
    outcome (ofTokens tokens line).parse = .ok ast ↔
      Nonempty (Derivation (.block true) tokens ast []) := by
  have hStream := stream_ofTokens tokens line
  -- a list of tokens has a line at its end, and no fault
  rw [parse_eq_ok_iff (by rw [hStream]; exact hTokens), hStream]
  exact and_iff_right ⟨line, rfl⟩

/-- Tokens on other lines derive from the grammar exactly with the trees on
those lines. -/
theorem derivation_mapLine (f : Nat → Nat) {tokens : List Token}
    (hTokens : ∀ token ∈ tokens, token.isEof = false) (all : Program) :
    Nonempty (Derivation (.block true) (tokens.map (Token.mapLine f)) all []) ↔
      ∃ ast, Nonempty (Derivation (.block true) tokens ast []) ∧ all = Program.mapLines f ast := by
  have hMapped : ∀ token ∈ tokens.map (Token.mapLine f), token.isEof = false := by
    intro token hToken
    obtain ⟨token, hMem, rfl⟩ := List.mem_map.mp hToken
    exact hTokens token hMem
  -- the parser takes the same steps on both lists
  have hMirrored := (parse_mapLine f tokens 0).outcome_eq_ok_iff all
  rw [Scanner.parse_ofTokens_eq_ok_iff _ hMapped] at hMirrored
  simpa only [Scanner.parse_ofTokens_eq_ok_iff 0 hTokens] using hMirrored

/-- Behind a text that parses, a text that parses is parsed to the same
statements on later lines. -/
theorem parse_append_of_ok {a b : String} {items more : Program}
    (hFirst : outcome (Program.parse a) = .ok items)
    (hSecond : outcome (Program.parse b) = .ok more) :
    outcome (Program.parse (a ++ "\n" ++ b)) =
      .ok (items ++ Program.mapLines (· + (a.toList.count '\n' + 1)) more) := by
  -- both are parsed to their blocks, and the tokens of the second are put on later lines
  obtain ⟨⟨n, hEnding⟩, ⟨d⟩⟩ := (Scanner.parse_eq_ok_iff (Scanner.isEof_ofSource a)).mp hFirst
  obtain ⟨hEnding', hMore⟩ := (Scanner.parse_eq_ok_iff (Scanner.isEof_ofSource b)).mp hSecond
  refine (Scanner.parse_eq_ok_iff (Scanner.isEof_ofSource _)).mpr ?_
  rw [Scanner.stream_append hEnding]
  refine ⟨(Stream.ending_mapLine _ _).mpr hEnding', ?_⟩
  obtain ⟨d'⟩ := (derivation_mapLine _ (Scanner.isEof_ofSource b) _).mpr ⟨more, hMore, rfl⟩
  exact (d.append _ nofun).append_block d'

/-- Behind a text that parses, nothing parses but a text that parses on its
own. -/
theorem parse_of_append {a b : String} {items all : Program}
    (hFirst : outcome (Program.parse a) = .ok items)
    (hAll : outcome (Program.parse (a ++ "\n" ++ b)) = .ok all) :
    ∃ more, outcome (Program.parse b) = .ok more := by
  obtain ⟨⟨n, hEnding⟩, ⟨d⟩⟩ := (Scanner.parse_eq_ok_iff (Scanner.isEof_ofSource a)).mp hFirst
  obtain ⟨hEnding', hWhole⟩ := (Scanner.parse_eq_ok_iff (Scanner.isEof_ofSource _)).mp hAll
  rw [Scanner.stream_append hEnding] at hEnding' hWhole
  obtain ⟨d'⟩ := hWhole
  -- the whole starts with the complete block, so its rest derives from the later tokens
  obtain ⟨later, _, hLater⟩ := d.split_block d' rfl
  obtain ⟨more, hMore, _⟩ := (derivation_mapLine _ (Scanner.isEof_ofSource b) _).mp hLater
  exact ⟨more, (Scanner.parse_eq_ok_iff (Scanner.isEof_ofSource b)).mpr
    ⟨(Stream.ending_mapLine _ _).mp hEnding', hMore⟩⟩

/-- **Programs can be written one after the other.** Behind a text that parses,
on lines of its own, a text parses exactly if it does alone. The whole has the
statements of both, those of the second on later lines: as many as the first
text has newlines, and one more. -/
theorem parse_append {a : String} {items : Program} (h : outcome (Program.parse a) = .ok items)
    (b : String) (all : Program) :
    outcome (Program.parse (a ++ "\n" ++ b)) = .ok all ↔
      ∃ more, outcome (Program.parse b) = .ok more ∧
        all = items ++ Program.mapLines (· + (a.toList.count '\n' + 1)) more := by
  constructor
  · intro hAll
    obtain ⟨more, hMore⟩ := parse_of_append h hAll
    refine ⟨more, hMore, ?_⟩
    rw [parse_append_of_ok h hMore] at hAll
    exact (Except.ok.inj hAll).symm
  · rintro ⟨more, hMore, rfl⟩
    exact parse_append_of_ok h hMore

/-- The first text ends in a comment with a carriage return, and the call in
the second moves from line 1 to line 3. -/
theorem parse_append_after_comment :
    outcome (Program.parse "x = 1;\n// set\r") = .ok [.expr ⟨some "x", .number 1, [], 1⟩] ∧
      outcome (Program.parse ("x = 1;\n// set\r" ++ "\n" ++ "f(x);")) =
        .ok [.expr ⟨some "x", .number 1, [], 1⟩,
          .expr ⟨none, .call "f" [⟨none, .ident "x" 3, [], 3⟩] 3, [], 3⟩] := by
  have hFirst : outcome (Program.parse "x = 1;\n// set\r") =
      .ok [.expr ⟨some "x", .number 1, [], 1⟩] := by cbv
  have hSecond : outcome (Program.parse "f(x);") =
      .ok [.expr ⟨none, .call "f" [⟨none, .ident "x" 1, [], 1⟩] 1, [], 1⟩] := by cbv
  exact ⟨hFirst, (parse_append hFirst "f(x);" _).mpr ⟨_, hSecond, rfl⟩⟩

end Scriptlet
