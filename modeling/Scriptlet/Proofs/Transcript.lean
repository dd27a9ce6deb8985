import Scriptlet.Proofs.Concatenation
import Scriptlet.Proofs.WrittenForms

/-!
# Scriptlet — tokens written out

Every token can be written out: a name, a keyword or a sign as it is, a number in
decimal, in parentheses if it is negative, and a text between quotes, with quotes,
backslashes and newlines escaped. Tokens that are written out one after the other,
with blanks between them, are scanned to the same tokens, each on the line on which
it was written.

* `TokenKind.written` — how a token is written out;
* `TokenKind.Writable.spelled_written` — it is spelled so, if a blank or nothing follows;
* `Scans.blanks`, `Scans.token` — what blanks and a token in front of a text add
  to the tokens of the text;
* `Transcript` — tokens with blanks between them, as a text;
* `Transcript.Valid.tokenize_text` — the main result.
-/

namespace Scriptlet

open Text

-- ---------------------------------------------------------------------------
-- One token
-- ---------------------------------------------------------------------------

/-- How a character is written between the quotes of a string literal. -/
def Segment.escape : Char → List Char
  | '\\' => ['\\', '\\']
  | '"' => ['\\', '"']
  | '\n' => ['\\', 'n']
  | c => [c]

/-- Escaping a text gives a spelling of it. -/
theorem Segment.escaped_escape (content : List Char) :
    Escaped (content.flatMap escape) content := by
  induction content with
  | nil => exact .nil
  | cons c content ih =>
    rw [List.flatMap_cons]
    unfold escape
    -- one case for each pattern of `escape`, in its order
    split
    · exact .backslash ih
    · exact .quote ih
    · exact .newline ih
    · next hBackslash hQuote _ => exact .plain hQuote hBackslash ih

/-- Escaping leaves no newline. -/
theorem Segment.newline_notMem_escape (c : Char) : '\n' ∉ escape c := by
  unfold escape
  split
  · decide
  · decide
  · decide
  · next hNewline => simpa using Ne.symm hNewline

namespace TokenKind

/-- The token, written out. The end of the input has no written form. -/
def written : TokenKind → List Char
  | identifier name => name.toList
  | number value =>
    let decimal := (toString value.toInt).toList
    if 0 ≤ value.toInt then decimal else '(' :: decimal ++ [')']
  | text content => '"' :: content.toList.flatMap Segment.escape ++ ['"']
  | operator op => op.symbol.toList
  | assign => ['=']
  | keyword word => word.text.toList
  | separator sign => sign.text.toList
  | eof => []

/-- The tokens that can be written out: a name is not a keyword, and the end of the
input is not among them. -/
def Writable : TokenKind → Prop
  | identifier name => isName name = true ∧ ∀ word : Keyword, word.text ≠ name
  | eof => False
  | _ => True

/-- A number is written in decimal, with a sign if it is negative. -/
theorem exists_digits_toString (n : Int) :
    ∃ digits, Digits digits ∧ Segment.digitsValue digits = n.natAbs ∧
      (toString n).toList = if 0 ≤ n then digits else '-' :: digits := by
  refine ⟨Nat.toDigits 10 n.natAbs, ⟨Nat.toDigits_ne_nil, fun c hc => ?_⟩, ?_, ?_⟩
  · exact Nat.isDigit_of_mem_toDigits (by decide) (by decide) hc
  · exact Nat.ofDigitChars_toDigits (by decide) (by decide)
  · rw [Int.toString_eq_repr, Int.repr_eq_if]
    split
    -- `toString` writes natural numbers only, so the sign is put in front by hand
    · rw [Nat.repr_eq_ofList_toDigits, String.toList_ofList, show n.toNat = n.natAbs by omega]
    · rw [String.toList_append, Nat.repr_eq_ofList_toDigits,
        String.toList_ofList (l := Nat.toDigits 10 (-n).toNat),
        show (-n).toNat = n.natAbs by omega]
      rfl

end TokenKind

/-- The text starts with a blank, or it is empty. -/
def StartsBlank (text : List Char) : Prop :=
  ∀ c ∈ text.head?, isBlank c = true

namespace StartsBlank

variable {rest : List Char}

/-- No class of characters without blanks goes on. -/
theorem endsClass (h : StartsBlank rest) {p : Char → Bool}
    (hp : ∀ c, p c = true → isBlank c = false) : EndsClass p rest := by
  intro c hc
  -- a blank of the class would be a blank and not one
  rw [← Bool.not_eq_true]
  intro hClass
  have hBlank := h c hc
  rw [hp c hClass] at hBlank
  cases hBlank

theorem head?_ne (h : StartsBlank rest) {c : Char} (hc : isBlank c = false) :
    rest.head? ≠ some c := by
  intro hHead
  have hBlank := h c hHead
  rw [hc] at hBlank
  cases hBlank

/-- The text starts with no mark that belongs to the word before it. -/
theorem unmarked (h : StartsBlank rest) : Segment.Unmarked rest := by
  intro c hc hMark
  rw [isWordMark_of_isBlank (h c hc)] at hMark
  cases hMark

end StartsBlank

namespace TokenKind

variable {kind : TokenKind}

/-- **A token is spelled as it is written out**, if a blank or nothing follows. -/
theorem Writable.spelled_written (hKind : kind.Writable) {rest : List Char}
    (hRest : StartsBlank rest) : Spelled kind.written kind rest := by
  -- words, numbers and names end at the text that follows, since no blank is a word character
  have hWord : EndsClass isWordChar rest := hRest.endsClass fun c => isBlank_of_isWordChar
  cases kind with
  | identifier name =>
    obtain ⟨hName, hOther⟩ := hKind
    -- a name starts with a letter or an underscore and goes on with word characters
    obtain ⟨c, cs, hCons, hStart, hAll⟩ := exists_of_isName hName
    have hText : String.ofList (c :: cs) = name := by rw [← hCons, String.ofList_toList]
    rw [hCons] at hAll
    rw [written, hCons, ← hText]
    exact .identifier hStart (List.forall_mem_cons.mp hAll).2 (hText ▸ hOther) hWord
  | number value =>
    obtain ⟨digits, hDigits, hValue, hDecimal⟩ := exists_digits_toString value.toInt
    rw [written, hDecimal]
    -- a number that is not negative has no closing parenthesis to end it, and needs `rest`
    by_cases hSign : 0 ≤ value.toInt
    · have hDigit : EndsClass Char.isDigit rest :=
        hRest.endsClass fun c hc => isBlank_of_isWordChar (isWordChar_of_isDigit hc)
      rw [if_pos hSign, if_pos hSign]
      exact .number hDigits hDigit (by omega)
    · rw [if_neg hSign, if_neg hSign]
      exact .negative hDigits (by omega)
  | text content =>
    have hSpelled : Spelled _ (.text (String.ofList content.toList)) rest :=
      .text (Segment.escaped_escape content.toList)
    rwa [String.ofList_toList] at hSpelled
  | operator op =>
    exact .operator (fun _ => hRest.head?_ne (by decide +kernel))
      fun _ => hRest.head?_ne (by decide +kernel)
  | assign => exact .assign (hRest.head?_ne (by decide +kernel))
  | keyword word => exact .keyword hWord
  -- a parenthesis would only be read on if a minus and digits followed it
  | separator sign =>
    refine .separator fun _ => ?_
    rintro ⟨digits, after, _, rfl⟩
    exact hRest.head?_ne (c := '-') (by decide +kernel) rfl
  | eof => exact hKind.elim

/-- A token is written on one line. -/
theorem Writable.newline_notMem_written (hKind : kind.Writable) : '\n' ∉ kind.written := by
  cases kind with
  | identifier name =>
    obtain ⟨_, _, _, _, hAll⟩ := exists_of_isName hKind.1
    intro hNewline
    cases hAll _ hNewline
  | number value =>
    have hDecimal : '\n' ∉ (toString value.toInt).toList := by
      intro hNewline
      cases isNumeral_of_mem_toString _ hNewline
    rw [written]
    split
    · exact hDecimal
    · simpa using hDecimal
  | text content =>
    have hInner : '\n' ∉ content.toList.flatMap Segment.escape := by
      intro hNewline
      obtain ⟨c, _, hc⟩ := List.mem_flatMap.mp hNewline
      exact Segment.newline_notMem_escape c hc
    simpa [written] using hInner
  -- the other written forms are fixed texts
  | operator op => cases op <;> decide
  | assign => decide
  | keyword word => cases word <;> decide
  | separator sign => cases sign <;> decide
  | eof => exact hKind.elim

theorem Writable.written_ne_nil (hKind : kind.Writable) : kind.written ≠ [] := by
  have hSpelled : Spelled kind.written kind [] := hKind.spelled_written nofun
  obtain ⟨c, cs, hCons, _⟩ := hSpelled.head
  rw [hCons]
  exact List.cons_ne_nil c cs

end TokenKind

-- ---------------------------------------------------------------------------
-- Lines
-- ---------------------------------------------------------------------------

/-- Text without a newline stands in front of the first line, unless it may lose a
carriage return. -/
theorem Text.lines_append {front : List Char} (text : List Char) (hNonempty : front ≠ [])
    (hNewline : '\n' ∉ front) (hReturn : front.getLast? ≠ some '\r') :
    lines (front ++ text) = (front ++ (lines text).headD []) :: (lines text).tail := by
  -- induction on the text in front, whose last character needs a case of its own
  induction front with
  | nil => exact absurd rfl hNonempty
  | cons c front ih =>
    obtain ⟨hc, hFront⟩ := List.ne_and_not_mem_of_not_mem_cons hNewline
    cases front with
    -- only here may a newline follow, after a character that is not a carriage return
    | nil => exact lines_cons (Ne.symm hc) fun h => absurd (congrArg some h) hReturn
    | cons d front =>
      have hd : '\n' ≠ d := (List.ne_and_not_mem_of_not_mem_cons hFront).1
      have hHead : (d :: front ++ text).head? ≠ some '\n' := fun h => hd (Option.some.inj h).symm
      rw [List.cons_append, lines_cons (Ne.symm hc) fun _ => hHead,
        ih (List.cons_ne_nil d front) hFront hReturn]
      rfl

/-- The first line starts with a blank if the text does. -/
theorem StartsBlank.headD_lines {text : List Char} (h : StartsBlank text) :
    StartsBlank ((lines text).headD []) := by
  -- every line but an empty one starts with the character that the text starts with
  fun_cases lines text with
  | case1 | case2 | case3 =>
    intro d hd
    cases hd
  | case4 c text | case5 c text =>
    intro d hd
    exact h d hd

/-- A line is scanned to the same tokens if its first token and what follows it are the
same. -/
theorem scanLine_congr {line line' : List Char} (h : Segment.next line = Segment.next line') :
    scanLine line = scanLine line' := by
  cases hNext : Segment.next line' with
  | done => rw [scanLine_of_done hNext, scanLine_of_done (h.trans hNext)]
  | token kind rest => rw [scanLine_of_token hNext, scanLine_of_token (h.trans hNext)]
  | unreadable cause => rw [scanLine_of_unreadable hNext, scanLine_of_unreadable (h.trans hNext)]

theorem scanLine_blank {c : Char} (hBlank : isBlank c = true) (line : List Char) :
    scanLine (c :: line) = scanLine line := by
  apply scanLine_congr
  rw [Segment.next, Segment.next, List.dropWhile_cons_of_pos hBlank]

-- ---------------------------------------------------------------------------
-- The tokens of a text
-- ---------------------------------------------------------------------------

/-- After so many lines, the text has no fault, and these are its tokens. -/
def Scans (line : Nat) (text : List Char) (tokens : List Token) : Prop :=
  Scanner.ahead line (lines text) = ⟨tokens, .ok (line + (lines text).length)⟩

namespace Scans

variable {line : Nat} {text : List Char} {tokens : List Token}

theorem nil (line : Nat) : Scans line [] [] :=
  rfl

theorem newline (h : Scans (line + 1) text tokens) : Scans line ('\n' :: text) tokens := by
  have hScan : scanLine [] = ([], none) := scanLine_of_done rfl
  rw [Scans, lines, Scanner.ahead_of_none (congrArg Prod.snd hScan), hScan, h, List.length_cons,
    Nat.add_assoc, Nat.add_comm 1]
  rfl

/-- Text on the first line adds the tokens that it adds to that line. -/
theorem front (front : List Char) (kinds : List TokenKind) (h : Scans line text tokens)
    (hLines : lines (front ++ text) = (front ++ (lines text).headD []) :: (lines text).tail)
    (hScan : scanLine (front ++ (lines text).headD []) =
      (kinds ++ (scanLine ((lines text).headD [])).1, (scanLine ((lines text).headD [])).2)) :
    Scans line (front ++ text) (kinds.map (⟨·, line + 1⟩) ++ tokens) := by
  rw [Scans] at h ⊢
  rw [hLines]
  -- a text of no lines has no first line for the tokens to join, so it is treated apart
  cases hText : lines text with
  | nil =>
    have hEmpty : scanLine [] = ([], none) := scanLine_of_done rfl
    rw [hText, List.headD_nil, hEmpty, List.append_nil] at hScan
    rw [hText] at h
    obtain ⟨rfl, -⟩ := Stream.mk.inj h
    rw [List.headD_nil, List.append_nil, Scanner.ahead_of_none (congrArg Prod.snd hScan), hScan]
    simp [Scanner.ahead]
  | cons first later =>
    rw [hText, List.headD_cons] at hScan
    rw [hText] at h
    cases hCause : (scanLine first).2 with
    | some cause =>
      -- a fault on the first line of `text` contradicts `h`
      rw [Scanner.ahead_of_fault hCause] at h
      cases h
    | none =>
      rw [hCause] at hScan
      rw [Scanner.ahead_of_none hCause] at h
      obtain ⟨rfl, hEnding⟩ := Stream.mk.inj h
      rw [List.headD_cons, Scanner.ahead_of_none (congrArg Prod.snd hScan), hScan]
      simp [hEnding]

/-- A blank adds no token. A newline moves the others to the next line. -/
theorem blank {c : Char} (hBlank : isBlank c = true)
    (h : Scans (line + [c].count '\n') text tokens) : Scans line (c :: text) tokens := by
  by_cases hNewline : c = '\n'
  · subst hNewline
    exact h.newline
  rw [List.count_singleton, if_neg (by simpa using hNewline), Nat.add_zero] at h
  by_cases hReturn : c = '\r' ∧ text.head? = some '\n'
  · -- the two characters end one line
    obtain ⟨rfl, hHead⟩ := hReturn
    obtain ⟨later, rfl⟩ := List.head?_eq_some_iff.mp hHead
    exact h
  · refine h.front [c] [] ?_ (scanLine_blank hBlank _)
    exact lines_cons hNewline fun hc hHead => hReturn ⟨hc, hHead⟩

/-- **Blanks add no token.** Those after them move by as many lines as there are newlines
among the blanks. -/
theorem blanks {blanks : List Char} (hBlanks : ∀ c ∈ blanks, isBlank c = true)
    (h : Scans (line + blanks.count '\n') text tokens) : Scans line (blanks ++ text) tokens := by
  -- induction on the blanks: every newline among them is counted in the line of the rest
  induction blanks generalizing line with
  | nil => exact h
  | cons c blanks ih =>
    obtain ⟨hBlank, hLater⟩ := List.forall_mem_cons.mp hBlanks
    refine blank hBlank (ih hLater ?_)
    rwa [Nat.add_assoc, ← List.count_append]

/-- **A token that is written out adds that token**, on the first line. -/
theorem token {kind : TokenKind} (hKind : kind.Writable) (hText : StartsBlank text)
    (h : Scans line text tokens) :
    Scans line (kind.written ++ text) (⟨kind, line + 1⟩ :: tokens) := by
  have hFirst := hText.headD_lines
  have hSpelled := hKind.spelled_written hFirst
  -- `Layout.next_of_spelled` asks for a layout before the token, and here it is empty
  have hNext : Segment.next ([] ++ (kind.written ++ (lines text).headD [])) =
      .token kind ((lines text).headD []) :=
    Layout.next_of_spelled nofun hSpelled hFirst.unmarked
  refine h.front kind.written [kind] ?_ (scanLine_of_token hNext)
  exact lines_append text hKind.written_ne_nil hKind.newline_notMem_written hSpelled.getLast?_ne

end Scans

-- ---------------------------------------------------------------------------
-- A list of tokens
-- ---------------------------------------------------------------------------

/-- A token with the blanks before it. -/
structure Entry where
  blanks : List Char
  kind : TokenKind

/-- Tokens with the blanks before them, and the blanks after the last one. -/
structure Transcript where
  entries : List Entry
  after : List Char

namespace Transcript

/-- The tokens written out, and what comes after them. -/
def textOf (after : List Char) : List Entry → List Char
  | [] => after
  | entry :: entries => entry.blanks ++ (entry.kind.written ++ textOf after entries)

/-- The tokens behind a text. Each stands on the line on which the text before it ends. -/
def tokensAfter (before : List Char) : List Entry → List Token
  | [] => []
  | entry :: entries =>
    ⟨entry.kind, (before ++ entry.blanks).count '\n' + 1⟩ ::
      tokensAfter (before ++ entry.blanks ++ entry.kind.written) entries

/-- The text of a transcript. -/
def text (transcript : Transcript) : String :=
  String.ofList (textOf transcript.after transcript.entries)

/-- The tokens of a transcript, each on the line on which it is written. -/
def tokens (transcript : Transcript) : List Token :=
  tokensAfter [] transcript.entries

/-- There are only blanks between the tokens, and at least one between two neighbours. -/
structure Valid (transcript : Transcript) : Prop where
  writable : ∀ entry ∈ transcript.entries, entry.kind.Writable
  blank : ∀ entry ∈ transcript.entries, ∀ c ∈ entry.blanks, isBlank c = true
  apart : ∀ entry ∈ transcript.entries.tail, entry.blanks ≠ []
  after : ∀ c ∈ transcript.after, isBlank c = true

variable {after : List Char}

/-- Behind a token comes a blank or nothing. -/
theorem Valid.startsBlank {entry : Entry} {entries : List Entry}
    (h : Valid ⟨entry :: entries, after⟩) : StartsBlank (textOf after entries) := by
  cases entries with
  | nil => exact fun c hc => h.after c (List.mem_of_mem_head? hc)
  | cons next entries =>
    -- the next token is not the first one, so there is a blank before it
    obtain ⟨c, cs, hBlanks⟩ := List.exists_cons_of_ne_nil (h.apart next List.mem_cons_self)
    rintro d hd
    rw [textOf, hBlanks] at hd
    cases hd
    exact h.blank next (List.mem_cons_of_mem _ List.mem_cons_self) c
      (hBlanks ▸ List.mem_cons_self)

/-- Without its first token, a transcript is still valid. -/
theorem Valid.later {entry : Entry} {entries : List Entry}
    (h : Valid ⟨entry :: entries, after⟩) : Valid ⟨entries, after⟩ :=
  ⟨fun e he => h.writable e (List.mem_cons_of_mem _ he),
    fun e he => h.blank e (List.mem_cons_of_mem _ he),
    fun e he => h.apart e (List.mem_of_mem_tail he), h.after⟩

/-- Behind any text, the rest of a transcript has its tokens. -/
theorem Valid.scans {entries : List Entry} (h : Valid ⟨entries, after⟩) (before : List Char) :
    Scans (before.count '\n') (textOf after entries) (tokensAfter before entries) := by
  -- induction on the tokens, with the text before them in the statement, since it sets the line
  induction entries generalizing before with
  | nil =>
    rw [textOf, ← List.append_nil after]
    exact .blanks h.after (.nil _)
  | cons entry entries ih =>
    have hKind := h.writable entry List.mem_cons_self
    have hLater := ih h.later (before ++ entry.blanks ++ entry.kind.written)
    -- no newline is written for a token, so the next one starts on the line where it ended
    rw [List.count_append, List.count_eq_zero.mpr (hKind.newline_notMem_written),
      Nat.add_zero] at hLater
    have hToken := hLater.token hKind h.startsBlank
    rw [List.count_append] at hToken
    rw [textOf, tokensAfter, List.count_append]
    exact hToken.blanks (h.blank entry List.mem_cons_self)

/-- The tokens of a transcript are those of its entries. -/
theorem kind_tokensAfter (before : List Char) (entries : List Entry) :
    (tokensAfter before entries).map Token.kind = entries.map Entry.kind := by
  induction entries generalizing before with
  | nil => rfl
  | cons entry entries ih => rw [tokensAfter, List.map_cons, List.map_cons, ih]

/-- **Tokens that are written out are scanned to the same tokens.** Write the tokens of a
list one after the other, each in its written form, with one or more blanks between two of
them and any blanks before the first and after the last. The text scans to tokens of the
same kinds, which settle their lexemes and values, each on the line on which it was
written, and then to the end of the input. -/
theorem Valid.tokenize_text {transcript : Transcript} (h : transcript.Valid) :
    outcome (tokenize transcript.text) =
        .ok (transcript.tokens ++ [⟨.eof, (lines transcript.text.toList).length⟩]) ∧
      transcript.tokens.map Token.kind = transcript.entries.map Entry.kind := by
  obtain ⟨entries, after⟩ := transcript
  refine ⟨?_, kind_tokensAfter [] entries⟩
  have hText : (text ⟨entries, after⟩).toList = textOf after entries := String.toList_ofList
  have hStream : (Scanner.ofSource (text ⟨entries, after⟩)).stream =
      ⟨tokensAfter [] entries, .ok (lines (textOf after entries)).length⟩ := by
    have hScans : Scans 0 (textOf after entries) (tokensAfter [] entries) := h.scans []
    show Scanner.ahead 0 (lines (text ⟨entries, after⟩).toList) = _
    rw [hText, hScans, Nat.zero_add]
  -- the scanner of a source has read nothing, so all the tokens are those ahead of it
  have hTokens := Scanner.tokenize_spec (Scanner.ofSource (text ⟨entries, after⟩))
  rw [hStream] at hTokens
  obtain ⟨scanner, hRun⟩ := hTokens
  rw [hText]
  exact congrArg outcome hRun

/-- The least number, a text with a comment mark, a quote, a backslash and line ends in it,
two slashes and an open minus that are kept apart, and blanks of many kinds. -/
theorem Valid.tokenize_text_least :
    outcome (tokenize
        "x\t=\r\n(-9223372036854775808)\u00a0\n\n/ / \"//\\\"\\\\\\n\r\"\u2028( - 1\rend\r\n") =
      .ok [⟨.identifier "x", 1⟩, ⟨.assign, 1⟩, ⟨.number (-9223372036854775808), 2⟩,
        ⟨.operator .div, 4⟩, ⟨.operator .div, 4⟩, ⟨.text "//\"\\\n\r", 4⟩,
        ⟨.separator .openParen, 4⟩, ⟨.operator .sub, 4⟩, ⟨.number 1, 4⟩,
        ⟨.keyword .endWord, 4⟩, ⟨.eof, 4⟩] := by
  have hValid : Valid
      ⟨[⟨[], .identifier "x"⟩, ⟨['\t'], .assign⟩,
        ⟨['\r', '\n'], .number (-9223372036854775808)⟩,
        ⟨['\u00a0', '\n', '\n'], .operator .div⟩, ⟨[' '], .operator .div⟩,
        ⟨[' '], .text "//\"\\\n\r"⟩, ⟨['\u2028'], .separator .openParen⟩,
        ⟨[' '], .operator .sub⟩, ⟨[' '], .number 1⟩, ⟨['\r'], .keyword .endWord⟩],
        ['\r', '\n']⟩ := by
    have hName : isName "x" = true := by decide
    have hOther : ∀ word : Keyword, word.text ≠ "x" := by
      intro word
      cases word <;> decide
    constructor
    case writable => simpa [TokenKind.Writable] using ⟨hName, hOther⟩
    case blank =>
      simp only [List.forall_mem_cons, List.not_mem_nil, false_implies, implies_true, and_true]
      decide +kernel
    case apart => simp
    case after =>
      simp only [List.forall_mem_cons, List.not_mem_nil, false_implies, implies_true, and_true]
      decide +kernel
  exact hValid.tokenize_text.1

end Transcript

end Scriptlet
