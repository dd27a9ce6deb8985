import Scriptlet.Fault
import Scriptlet.Text.CharClass

/-!
# Scriptlet — the tokens of one line

A line is read from the left. Blanks are skipped, a comment ends the line, and otherwise the text
starts with the longest token of its class:

* a word of ASCII letters, digits and underscores, which is a keyword if it is one of the seven and
  no word character of another script follows it;
* a number, either a run of digits or a negative one in the form `(-digits)`;
* a string literal up to its first unescaped quote;
* an operator, the assignment sign or a separator.

Text that starts none of these, up to the next blank, is a fault, and so is a number that does not
fit into 64 bits. `Segment.next` reads one token, and `scanLine` repeats it to the end of the line
or to the first fault.
-/

namespace Scriptlet

open Text

/-- What the rest of a line starts with. -/
inductive Segment where
  /-- Nothing but blanks and perhaps a comment is left. -/
  | done
  | token (kind : TokenKind) (rest : List Char)
  | unreadable (cause : Cause)
deriving Repr

namespace Segment

-- ---------------------------------------------------------------------------
-- The classes of tokens
-- ---------------------------------------------------------------------------

/-- The token of a word with the text after it. -/
def wordKind (word : String) (rest : List Char) : TokenKind :=
  match Keyword.ofText? word with
  | some keyword => if rest.head?.any isWordMark then .identifier word else .keyword keyword
  | none => .identifier word

/-- Reads a word, given that the text starts with one. -/
def word (text : List Char) : Segment :=
  let rest := text.dropWhile isWordChar
  .token (wordKind (String.ofList (text.takeWhile isWordChar)) rest) rest

/-- The token of a number that is written `written`. -/
def number (written : List Char) (value : Int) (rest : List Char) : Segment :=
  match int64? value with
  | some n => .token (.number n) rest
  | none => .unreadable (.literalRange (String.ofList written))

/-- The number that a run of digits stands for. -/
def digitsValue (digits : List Char) : Nat :=
  Nat.ofDigitChars 10 digits 0

/-- The digits of a negative number and the text after it, given the text after `(-`. -/
def negative? (text : List Char) : Option (List Char × List Char) :=
  match text.takeWhile Char.isDigit, text.dropWhile Char.isDigit with
  | digit :: digits, ')' :: rest => some (digit :: digits, rest)
  | _, _ => none

/-- What a backslash followed by a character stands for in a string literal. -/
def unescape : Char → List Char
  | 'n' => ['\n']
  | '"' => ['"']
  | '\\' => ['\\']
  | c => ['\\', c]

/-- The content of a string literal and the text after it, given the text after its opening
quote. -/
def quoted? : List Char → Option (List Char × List Char)
  | [] => none
  | '"' :: rest => some ([], rest)
  | ['\\'] => none
  | '\\' :: c :: text => (quoted? text).map fun (content, rest) => (unescape c ++ content, rest)
  | c :: text => (quoted? text).map fun (content, rest) => (c :: content, rest)

/-- The operator, assignment sign or separator that the text starts with, the longer one first. -/
def sign? : List Char → Option (TokenKind × List Char)
  | '=' :: '=' :: rest => some (.operator .equal, rest)
  | '<' :: '=' :: rest => some (.operator .lessEqual, rest)
  | '>' :: '=' :: rest => some (.operator .greaterEqual, rest)
  | '&' :: '&' :: rest => some (.operator .and, rest)
  | '|' :: '|' :: rest => some (.operator .or, rest)
  | '-' :: rest => some (.operator .sub, rest)
  | '+' :: rest => some (.operator .add, rest)
  | '*' :: rest => some (.operator .mul, rest)
  | '/' :: rest => some (.operator .div, rest)
  | '%' :: rest => some (.operator .mod, rest)
  | '<' :: rest => some (.operator .less, rest)
  | '>' :: rest => some (.operator .greater, rest)
  | '=' :: rest => some (.assign, rest)
  | ';' :: rest => some (.separator .semicolon, rest)
  | '(' :: rest => some (.separator .openParen, rest)
  | ')' :: rest => some (.separator .closeParen, rest)
  | ',' :: rest => some (.separator .comma, rest)
  | _ => none

/-- The fault of a text that starts no token. -/
def unrecognized (text : List Char) : Segment :=
  .unreadable (.unrecognized (String.ofList (text.takeWhile (!isBlank ·))))

/-- Reads an operator, an assignment sign or a separator, and nothing else. -/
def sign (text : List Char) : Segment :=
  match sign? text with
  | some (kind, rest) => .token kind rest
  | none => unrecognized text

-- ---------------------------------------------------------------------------
-- One token
-- ---------------------------------------------------------------------------

/-- Reads the token that a text without leading blanks starts with. -/
def read (text : List Char) : Segment :=
  match text with
  | [] => .done
  | '/' :: '/' :: _ => .done
  | '(' :: '-' :: inner =>
    match negative? inner with
    | some (digits, rest) =>
      number ('(' :: '-' :: digits ++ [')']) (-(digitsValue digits : Int)) rest
    | none => sign text
  | '"' :: inner =>
    match quoted? inner with
    | some (content, rest) => .token (.text (String.ofList content)) rest
    | none => unrecognized text
  | c :: _ =>
    if isWordStart c then word text
    else if c.isDigit then
      let digits := text.takeWhile Char.isDigit
      number digits (digitsValue digits) (text.dropWhile Char.isDigit)
    else sign text

/-- Skips blanks and reads the token after them. -/
def next (text : List Char) : Segment :=
  read (text.dropWhile isBlank)

-- ---------------------------------------------------------------------------
-- Every token takes some text
-- ---------------------------------------------------------------------------

private theorem length_dropWhile_le (p : Char → Bool) (text : List Char) :
    (text.dropWhile p).length ≤ text.length :=
  (List.dropWhile_sublist p).length_le

private theorem length_dropWhile_lt {p : Char → Bool} {c : Char} (text : List Char)
    (h : p c = true) : ((c :: text).dropWhile p).length < (c :: text).length := by
  rw [List.dropWhile_cons_of_pos h, List.length_cons]
  exact Nat.lt_succ_of_le (length_dropWhile_le p text)

/-- A number leaves the text that it was given as the rest. -/
theorem number_token {written : List Char} {value : Int} {rest rest' : List Char}
    {kind : TokenKind} (h : number written value rest = .token kind rest') : rest' = rest := by
  unfold number at h
  split at h <;> simp_all

/-- The digits of a negative number and its closing parenthesis are taken. -/
theorem length_negative? {text digits rest : List Char}
    (h : negative? text = some (digits, rest)) : rest.length < text.length := by
  unfold negative? at h
  split at h
  · next hdrop =>
    -- the parenthesis is the first character after the digits
    have hle := length_dropWhile_le Char.isDigit text
    rw [hdrop, List.length_cons] at hle
    simp only [Option.some.injEq, Prod.mk.injEq] at h
    rw [← h.2]
    omega
  · cases h

/-- A string literal takes at least its closing quote. -/
theorem length_quoted? {text content rest : List Char}
    (h : quoted? text = some (content, rest)) : rest.length < text.length := by
  -- one case for each pattern of `quoted?`, of which the last two go on
  fun_induction quoted? text generalizing content with
  | case1 => cases h
  | case2 => simp_all
  | case3 => cases h
  | case4 c text ih =>
    obtain ⟨⟨inner, tail⟩, hinner, heq⟩ := Option.map_eq_some_iff.1 h
    simp only [Prod.mk.injEq] at heq
    have := ih (heq.2 ▸ hinner)
    simp only [List.length_cons]
    omega
  | case5 c text _ _ _ ih =>
    obtain ⟨⟨inner, tail⟩, hinner, heq⟩ := Option.map_eq_some_iff.1 h
    simp only [Prod.mk.injEq] at heq
    have := ih (heq.2 ▸ hinner)
    simp only [List.length_cons]
    omega

theorem length_sign? {text rest : List Char} {kind : TokenKind}
    (h : sign? text = some (kind, rest)) : rest.length < text.length := by
  unfold sign? at h
  split at h <;> simp only [Option.some.injEq, Prod.mk.injEq, reduceCtorEq] at h <;>
    (obtain ⟨_, rfl⟩ := h; simp only [List.length_cons]; omega)

theorem length_sign {text rest : List Char} {kind : TokenKind}
    (h : sign text = .token kind rest) : rest.length < text.length := by
  unfold sign at h
  split at h
  · next hs =>
    cases h
    exact length_sign? hs
  · simp [unrecognized] at h

/-- A token takes at least one character. -/
theorem length_read {text rest : List Char} {kind : TokenKind}
    (h : read text = .token kind rest) : rest.length < text.length := by
  -- the cases of `read`: no text, a comment, a parenthesis with a minus, a quote, and the
  -- others
  unfold read at h
  split at h
  · cases h
  · cases h
  · split at h
    · next hneg =>
      rw [number_token h]
      have := length_negative? hneg
      simp only [List.length_cons]
      omega
    · exact length_sign h
  · split at h
    · next hq =>
      cases h
      have := length_quoted? hq
      simp only [List.length_cons]
      omega
    · simp [unrecognized] at h
  · next c tail _ _ _ =>
    split at h
    · next hw =>
      simp only [word, Segment.token.injEq] at h
      rw [← h.2]
      exact length_dropWhile_lt tail (isWordChar_of_isWordStart hw)
    · split at h
      · next hd =>
        rw [number_token h]
        exact length_dropWhile_lt tail hd
      -- neither a word nor a number, so a sign
      · exact length_sign h

/-- What is left after a token is shorter than the text before it. -/
theorem length_next {text rest : List Char} {kind : TokenKind}
    (h : next text = .token kind rest) : rest.length < text.length :=
  Nat.lt_of_lt_of_le (length_read h) (length_dropWhile_le isBlank text)

end Segment

-- ---------------------------------------------------------------------------
-- The whole line
-- ---------------------------------------------------------------------------

/-- The tokens of a line up to its end or its first fault, and the fault if there is one. -/
def scanLine (text : List Char) : List TokenKind × Option Cause :=
  match h : Segment.next text with
  | .done => ([], none)
  | .unreadable cause => ([], some cause)
  | .token kind rest =>
    have := Segment.length_next h
    let (kinds, cause) := scanLine rest
    (kind :: kinds, cause)
termination_by text.length

end Scriptlet
