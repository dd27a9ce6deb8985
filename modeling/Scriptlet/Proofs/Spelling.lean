import Scriptlet.Diagnostic
import Scriptlet.Token.Line

/-!
# Scriptlet — how the tokens of a line are spelled

A line that scans without a fault is a sequence of tokens with blanks between
them, perhaps with a comment at the end. `Spelled raw kind rest` says which
text `raw` stands for a token when `rest` follows it, class by class and
without an order among the classes; a `Layout` is a whole line taken apart.
The scanner finds the layout if there is one, and there is never more than
one:

* `read_spelled`, `read_of_spelled` — reading one token, in both directions;
* `scanLine_layout` — the same for a whole line;
* `scanLine_ne_eof`, `scanLine_lexical`, `length_scanLine_le` — what else is
  known of the tokens and the fault of a line.

Between the two directions for one token stands a side condition, `Unmarked`.
A keyword directly before a letter of another script is read as a name, which
the rules for tokens do not say; but such a letter starts no token, so that
line has a fault anyway.
-/

namespace Scriptlet

open Text

-- ---------------------------------------------------------------------------
-- Characters
-- ---------------------------------------------------------------------------

/-- Two lists of ranges have no code point in common. -/
def Text.CodeRanges.disjoint (ranges others : CodeRanges) : Bool :=
  ranges.all fun range => others.all fun other => range.2 < other.1 || other.2 < range.1

/-- A character in some ranges is in none that are disjoint from them. -/
theorem Text.CodeRanges.covers_eq_false {ranges others : CodeRanges} {c : Char}
    (hDisjoint : ranges.disjoint others = true) (h : ranges.covers c = true) :
    others.covers c = false := by
  rw [← Bool.not_eq_true, CodeRanges.covers_iff]
  rintro ⟨other, hOther, hLow, hHigh⟩
  obtain ⟨range, hRange, hLow', hHigh'⟩ := CodeRanges.covers_iff.mp h
  have hApart := List.all_eq_true.mp (List.all_eq_true.mp hDisjoint range hRange) other hOther
  simp only [Bool.or_eq_true, decide_eq_true_eq] at hApart
  omega

/-- The characters of names lie between the digit zero and the letter z. -/
theorem toNat_of_isWordChar {c : Char} (h : isWordChar c = true) :
    0x30 ≤ c.toNat ∧ c.toNat ≤ 0x7A := by
  unfold isWordChar Char.isAlphanum Char.isAlpha Char.isUpper Char.isLower Char.isDigit at h
  simp only [Bool.or_eq_true, Bool.and_eq_true, decide_eq_true_eq, beq_iff_eq, ge_iff_le,
    UInt32.le_iff_toNat_le] at h
  have hA : 'A'.val.toNat = 0x41 := rfl
  have hZ : 'Z'.val.toNat = 0x5A := rfl
  have ha : 'a'.val.toNat = 0x61 := rfl
  have hz : 'z'.val.toNat = 0x7A := rfl
  have h0 : '0'.val.toNat = 0x30 := rfl
  have h9 : '9'.val.toNat = 0x39 := rfl
  rw [hA, hZ, ha, hz, h0, h9] at h
  rw [Char.toNat]
  rcases h with h | rfl
  · omega
  · decide

/-- A blank is no word character of any script. -/
theorem isWordMark_of_isBlank {c : Char} (h : isBlank c = true) : isWordMark c = false := by
  have hMark : wordMarkRanges.covers c = false :=
    CodeRanges.covers_eq_false (by decide +kernel) h
  have hChar : isWordChar c = false := by
    -- names have no characters above the letter z, and no blank lies between zero and z
    rw [← Bool.not_eq_true]
    intro hWord
    have hCovers : CodeRanges.covers [(0x30, 0x7A)] c = false :=
      CodeRanges.covers_eq_false (by decide +kernel) h
    have hRange := toNat_of_isWordChar hWord
    rw [← Bool.not_eq_true, CodeRanges.covers_iff] at hCovers
    exact hCovers ⟨_, List.mem_singleton_self _, hRange⟩
  rw [isWordMark, hChar, hMark]
  rfl

/-- A name starts with no digit. -/
theorem isWordStart_of_isDigit {c : Char} (h : c.isDigit = true) : isWordStart c = false := by
  rw [← Bool.not_eq_true]
  intro hStart
  unfold Char.isDigit at h
  unfold isWordStart Char.isAlpha Char.isUpper Char.isLower at hStart
  simp only [Bool.or_eq_true, Bool.and_eq_true, decide_eq_true_eq, beq_iff_eq, ge_iff_le,
    UInt32.le_iff_toNat_le] at h hStart
  have hA : 'A'.val.toNat = 0x41 := rfl
  have ha : 'a'.val.toNat = 0x61 := rfl
  have h9 : '9'.val.toNat = 0x39 := rfl
  rcases hStart with hStart | rfl
  · omega
  · revert h
    decide

theorem isWordChar_of_isDigit {c : Char} (h : c.isDigit = true) : isWordChar c = true := by
  simp [isWordChar, Char.isAlphanum, h]

/-- No blank is one of the characters of names. -/
theorem isBlank_of_isWordChar {c : Char} (h : isWordChar c = true) : isBlank c = false := by
  rw [← Bool.not_eq_true]
  intro hBlank
  have hMark := isWordMark_of_isBlank hBlank
  rw [isWordMark_of_isWordChar h] at hMark
  cases hMark

/-- The keyword of a word is the one that is written like it. -/
theorem Keyword.ofText?_eq_some_iff {word : String} {keyword : Keyword} :
    Keyword.ofText? word = some keyword ↔ keyword.text = word := by
  constructor
  · intro h
    have := List.find?_some h
    simpa using this
  · rintro rfl
    exact Keyword.ofText?_text keyword

-- ---------------------------------------------------------------------------
-- The spelling of one token
-- ---------------------------------------------------------------------------

/-- The text between the quotes of a string literal and what it stands for: a
backslash takes the character after it along, and three such pairs are not
taken literally. -/
inductive Escaped : List Char → List Char → Prop
  | nil : Escaped [] []
  | plain {c : Char} {inner content : List Char} (hQuote : c ≠ '"') (hBackslash : c ≠ '\\')
      (h : Escaped inner content) : Escaped (c :: inner) (c :: content)
  | newline {inner content : List Char} (h : Escaped inner content) :
      Escaped ('\\' :: 'n' :: inner) ('\n' :: content)
  | quote {inner content : List Char} (h : Escaped inner content) :
      Escaped ('\\' :: '"' :: inner) ('"' :: content)
  | backslash {inner content : List Char} (h : Escaped inner content) :
      Escaped ('\\' :: '\\' :: inner) ('\\' :: content)
  | other {c : Char} {inner content : List Char} (hNewline : c ≠ 'n') (hQuote : c ≠ '"')
      (hBackslash : c ≠ '\\') (h : Escaped inner content) :
      Escaped ('\\' :: c :: inner) ('\\' :: c :: content)

/-- At least one character, and all of them digits. -/
def Digits (text : List Char) : Prop :=
  text ≠ [] ∧ ∀ c ∈ text, c.isDigit = true

/-- The text does not go on with a character of the class. -/
def EndsClass (p : Char → Bool) (rest : List Char) : Prop :=
  ∀ c ∈ rest.head?, p c = false

/-- `Spelled raw kind rest`: the text `raw` stands for a token of this kind
where `rest` follows it. -/
inductive Spelled : List Char → TokenKind → List Char → Prop
  | keyword {word : Keyword} {rest : List Char} (hEnd : EndsClass isWordChar rest) :
      Spelled word.text.toList (.keyword word) rest
  | identifier {c : Char} {cs rest : List Char} (hStart : isWordStart c = true)
      (hChars : ∀ d ∈ cs, isWordChar d = true)
      (hOther : ∀ word : Keyword, word.text ≠ String.ofList (c :: cs))
      (hEnd : EndsClass isWordChar rest) :
      Spelled (c :: cs) (.identifier (String.ofList (c :: cs))) rest
  | number {digits rest : List Char} {n : Int64} (hDigits : Digits digits)
      (hEnd : EndsClass Char.isDigit rest) (hValue : n.toInt = Segment.digitsValue digits) :
      Spelled digits (.number n) rest
  | negative {digits rest : List Char} {n : Int64} (hDigits : Digits digits)
      (hValue : n.toInt = -(Segment.digitsValue digits : Int)) :
      Spelled ('(' :: '-' :: digits ++ [')']) (.number n) rest
  | text {inner content rest : List Char} (h : Escaped inner content) :
      Spelled ('"' :: inner ++ ['"']) (.text (String.ofList content)) rest
  | operator {op : Operator} {rest : List Char}
      (hEqual : op = .less ∨ op = .greater → rest.head? ≠ some '=')
      (hSlash : op = .div → rest.head? ≠ some '/') :
      Spelled op.symbol.toList (.operator op) rest
  | assign {rest : List Char} (hEqual : rest.head? ≠ some '=') : Spelled ['='] .assign rest
  | separator {sign : Separator} {rest : List Char}
      (hOpen : sign = .openParen →
        ¬ ∃ digits after, Digits digits ∧ rest = '-' :: digits ++ ')' :: after) :
      Spelled sign.text.toList (.separator sign) rest

/-- No token is spelled with nothing, and none starts with a blank. The first
character is one that words of any script have only if names have it. -/
theorem Spelled.head {raw rest : List Char} {kind : TokenKind} (h : Spelled raw kind rest) :
    ∃ c cs, raw = c :: cs ∧ isBlank c = false ∧ (isWordMark c = true → isWordChar c = true) := by
  cases h with
  | keyword hEnd =>
    rename_i word
    cases word <;> exact ⟨_, _, rfl, by decide +kernel, by decide +kernel⟩
  | identifier hStart hChars hOther hEnd =>
    have hWord := isWordChar_of_isWordStart hStart
    exact ⟨_, _, rfl, isBlank_of_isWordChar hWord, fun _ => hWord⟩
  | number hDigits hEnd hValue =>
    obtain ⟨hNonempty, hAll⟩ := hDigits
    obtain ⟨c, cs, rfl⟩ := List.exists_cons_of_ne_nil hNonempty
    have hWord := isWordChar_of_isDigit (hAll c List.mem_cons_self)
    exact ⟨c, cs, rfl, isBlank_of_isWordChar hWord, fun _ => hWord⟩
  | negative hDigits hValue => exact ⟨_, _, rfl, by decide +kernel, by decide +kernel⟩
  | text h => exact ⟨_, _, rfl, by decide +kernel, by decide +kernel⟩
  | operator hEqual hSlash =>
    rename_i op
    cases op <;> exact ⟨_, _, rfl, by decide +kernel, by decide +kernel⟩
  | assign hEqual => exact ⟨_, _, rfl, by decide +kernel, by decide +kernel⟩
  | separator hOpen =>
    rename_i sign
    cases sign <;> exact ⟨_, _, rfl, by decide +kernel, by decide +kernel⟩

/-- What is left behind the characters of a class does not start with one. -/
theorem endsClass_dropWhile (p : Char → Bool) (text : List Char) :
    EndsClass p (text.dropWhile p) := by
  intro c hc
  have h := List.head?_dropWhile_not p text
  rw [Option.mem_def.mp hc] at h
  simpa using h

/-- A run of characters of a class that does not go on is cut off whole. -/
theorem span_of_endsClass {p : Char → Bool} {raw rest : List Char}
    (hAll : ∀ c ∈ raw, p c = true) (hEnd : EndsClass p rest) :
    (raw ++ rest).takeWhile p = raw ∧ (raw ++ rest).dropWhile p = rest := by
  rw [List.takeWhile_append_of_pos hAll, List.dropWhile_append_of_pos hAll]
  cases rest with
  | nil => simp
  | cons c rest =>
    have hc : p c = false := hEnd c rfl
    simp [hc]

namespace Segment

/-- A negative number in parentheses is read exactly if it is digits up to a
closing one. -/
theorem negative?_eq_some_iff {text digits rest : List Char} :
    negative? text = some (digits, rest) ↔ Digits digits ∧ text = digits ++ ')' :: rest := by
  constructor
  · intro h
    unfold negative? at h
    split at h
    · next digit ds after hTake hDrop =>
      cases h
      refine ⟨⟨by simp, ?_⟩, ?_⟩
      · intro c hc
        rw [← hTake] at hc
        exact List.all_eq_true.mp List.all_takeWhile c hc
      · rw [← hTake, ← hDrop, List.takeWhile_append_dropWhile]
    · cases h
  · rintro ⟨⟨hNonempty, hAll⟩, rfl⟩
    have hEnd : EndsClass Char.isDigit (')' :: rest) := by simp [EndsClass]
    obtain ⟨hTake, hDrop⟩ := span_of_endsClass hAll hEnd
    obtain ⟨digit, ds, rfl⟩ := List.exists_cons_of_ne_nil hNonempty
    rw [negative?, hTake, hDrop]
    rfl

/-- A text is read to the first quote that is not escaped, and its characters
are unescaped on the way. -/
theorem quoted?_eq_some_iff {text content rest : List Char} :
    quoted? text = some (content, rest) ↔
      ∃ inner, text = inner ++ '"' :: rest ∧ Escaped inner content := by
  constructor
  · intro h
    -- by the steps of the reader: one character, or a backslash with the character behind it
    fun_induction quoted? text generalizing content with
    | case1 => cases h
    | case2 after =>
      cases h
      exact ⟨[], rfl, .nil⟩
    | case3 => cases h
    | case4 c text ih =>
      obtain ⟨⟨later, tail⟩, hLater, hEq⟩ := Option.map_eq_some_iff.mp h
      cases hEq
      obtain ⟨inner, rfl, hInner⟩ := ih hLater
      refine ⟨'\\' :: c :: inner, rfl, ?_⟩
      unfold unescape
      split
      · exact .newline hInner
      · exact .quote hInner
      · exact .backslash hInner
      · next hNewline hQuote hBackslash => exact .other hNewline hQuote hBackslash hInner
    | case5 c text hQuote hLone hBackslash ih =>
      obtain ⟨⟨later, tail⟩, hLater, hEq⟩ := Option.map_eq_some_iff.mp h
      cases hEq
      obtain ⟨inner, rfl, hInner⟩ := ih hLater
      refine ⟨c :: inner, rfl, .plain hQuote ?_ hInner⟩
      -- a backslash has a character after it here, so it would be escaped
      rintro rfl
      cases inner with
      | nil => exact hBackslash _ _ rfl rfl
      | cons d inner => exact hBackslash _ _ rfl rfl
  · rintro ⟨inner, rfl, h⟩
    -- by the pairs of what is written, each of which the reader takes in one step
    induction h with
    | nil => rw [List.nil_append, quoted?]
    | plain hQuote hBackslash _ ih =>
      rw [List.cons_append, quoted?, ih]
      · rfl
      · exact hQuote
      · intro h; exact absurd h hBackslash
      · intro _ _ h; exact absurd h hBackslash
    | newline _ ih | quote _ ih | backslash _ ih =>
      rw [List.cons_append, List.cons_append, quoted?, ih]
      rfl
    | other hNewline hQuote hBackslash _ ih =>
      rw [List.cons_append, List.cons_append, quoted?, ih, unescape]
      · rfl
      · exact hNewline
      · exact hQuote
      · exact hBackslash

/-- The text does not go on with the character. -/
private theorem head?_ne_iff {c : Char} {rest : List Char} :
    rest.head? ≠ some c ↔ ∀ after, rest = c :: after → False := by
  cases rest with
  | nil => simp
  | cons d rest => simp

/-- A sign that is read is spelled so, unless it starts a comment or a
negative number. -/
theorem sign?_spelled {text rest : List Char} {kind : TokenKind}
    (h : sign? text = some (kind, rest)) (hComment : ∀ after, text ≠ '/' :: '/' :: after)
    (hNegative : ¬ ∃ digits after, Digits digits ∧ text = '(' :: '-' :: digits ++ ')' :: after) :
    ∃ raw, text = raw ++ rest ∧ Spelled raw kind rest := by
  unfold sign? at h
  -- one case for each sign, longer ones before their beginnings
  split at h <;> try cases h
  · exact ⟨Operator.equal.symbol.toList, rfl, .operator (by simp) (by simp)⟩
  · exact ⟨Operator.lessEqual.symbol.toList, rfl, .operator (by simp) (by simp)⟩
  · exact ⟨Operator.greaterEqual.symbol.toList, rfl, .operator (by simp) (by simp)⟩
  · exact ⟨Operator.and.symbol.toList, rfl, .operator (by simp) (by simp)⟩
  · exact ⟨Operator.or.symbol.toList, rfl, .operator (by simp) (by simp)⟩
  · exact ⟨Operator.sub.symbol.toList, rfl, .operator (by simp) (by simp)⟩
  · exact ⟨Operator.add.symbol.toList, rfl, .operator (by simp) (by simp)⟩
  · exact ⟨Operator.mul.symbol.toList, rfl, .operator (by simp) (by simp)⟩
  · refine ⟨Operator.div.symbol.toList, rfl, .operator (by simp) fun _ => ?_⟩
    rw [head?_ne_iff]
    rintro after rfl
    exact hComment after rfl
  · exact ⟨Operator.mod.symbol.toList, rfl, .operator (by simp) (by simp)⟩
  · next hEqual =>
    exact ⟨Operator.less.symbol.toList, rfl, .operator (fun _ => head?_ne_iff.mpr hEqual) (by simp)⟩
  · next hEqual =>
    exact ⟨Operator.greater.symbol.toList, rfl,
      .operator (fun _ => head?_ne_iff.mpr hEqual) (by simp)⟩
  · next hEqual => exact ⟨['='], rfl, .assign (head?_ne_iff.mpr hEqual)⟩
  · exact ⟨Separator.semicolon.text.toList, rfl, .separator (by simp)⟩
  · refine ⟨Separator.openParen.text.toList, rfl, .separator fun _ => ?_⟩
    rintro ⟨digits, after, hDigits, rfl⟩
    exact hNegative ⟨digits, after, hDigits, rfl⟩
  · exact ⟨Separator.closeParen.text.toList, rfl, .separator (by simp)⟩
  · exact ⟨Separator.comma.text.toList, rfl, .separator (by simp)⟩

/-- Every operator is read where it stands, if no equals sign makes another of
it. -/
theorem sign?_of_operator {op : Operator} {rest : List Char}
    (hEqual : op = .less ∨ op = .greater → rest.head? ≠ some '=') :
    sign? (op.symbol.toList ++ rest) = some (.operator op, rest) := by
  cases op with
  | less =>
    show sign? ('<' :: rest) = _
    rw [sign?]
    exact head?_ne_iff.mp (hEqual (Or.inl rfl))
  | greater =>
    show sign? ('>' :: rest) = _
    rw [sign?]
    exact head?_ne_iff.mp (hEqual (Or.inr rfl))
  | _ => rfl

/-- So is the sign of an assignment. -/
theorem sign?_of_assign {rest : List Char} (hEqual : rest.head? ≠ some '=') :
    sign? ('=' :: rest) = some (.assign, rest) := by
  rw [sign?]
  exact head?_ne_iff.mp hEqual

/-- So is every separator. -/
theorem sign?_of_separator (sign : Separator) (rest : List Char) :
    sign? (sign.text.toList ++ rest) = some (.separator sign, rest) := by
  cases sign <;> rfl

-- ---------------------------------------------------------------------------
-- Reading one token
-- ---------------------------------------------------------------------------

/-- The text does not start with a word character of another script. -/
def Unmarked (text : List Char) : Prop :=
  ∀ c ∈ text.head?, isWordMark c = true → isWordChar c = true

/-- Behind a whole word in unmarked text, no word goes on in any script. -/
theorem any_isWordMark_eq_false {rest : List Char} (hEnd : EndsClass isWordChar rest)
    (hRest : Unmarked rest) : rest.head?.any isWordMark = false := by
  cases rest with
  | nil => rfl
  | cons c rest =>
    show isWordMark c = false
    rw [← Bool.not_eq_true]
    intro hMark
    have hWord := hRest c rfl hMark
    rw [hEnd c rfl] at hWord
    cases hWord

/-- How text is read that starts neither a comment nor a literal with signs of
its own. -/
theorem read_cons {c : Char} (tail : List Char) (hSlash : c ≠ '/') (hOpen : c ≠ '(')
    (hQuote : c ≠ '"') :
    read (c :: tail) =
      if isWordStart c then word (c :: tail)
      else if c.isDigit then
        number ((c :: tail).takeWhile Char.isDigit)
          (digitsValue ((c :: tail).takeWhile Char.isDigit)) ((c :: tail).dropWhile Char.isDigit)
      else sign (c :: tail) := by
  rw [read]
  · intro _ h; exact absurd h hSlash
  · intro _ h; exact absurd h hOpen
  · exact hQuote

/-- A number is read if its value fits, and then with this value. -/
theorem number_eq_token_iff {written rest rest' : List Char} {value : Int} {kind : TokenKind} :
    number written value rest = .token kind rest' ↔
      rest' = rest ∧ ∃ n : Int64, kind = .number n ∧ n.toInt = value := by
  unfold number
  cases h : int64? value with
  -- no number fits, hence none is read
  | none =>
    have hNone : ∀ n : Int64, n.toInt ≠ value := by
      intro n hn
      rw [int64?_eq_some_iff.mpr hn] at h
      cases h
    simp [hNone]
  | some n =>
    have hn := int64?_eq_some_iff.mp h
    constructor
    · intro hToken
      cases hToken
      exact ⟨rfl, n, rfl, hn⟩
    · rintro ⟨rfl, n', rfl, hn'⟩
      rw [int64?_eq_some_iff.mpr hn'] at h
      cases h
      rfl

/-- A word is spelled as a keyword or as a name, as it is among the keywords or
not. -/
theorem word_spelled {c : Char} {tail rest : List Char} {kind : TokenKind}
    (hStart : isWordStart c = true) (h : word (c :: tail) = .token kind rest)
    (hRest : Unmarked rest) : ∃ raw, c :: tail = raw ++ rest ∧ Spelled raw kind rest := by
  have hWord := isWordChar_of_isWordStart hStart
  rw [word, List.takeWhile_cons_of_pos hWord, List.dropWhile_cons_of_pos hWord] at h
  cases h
  have hEnd := endsClass_dropWhile isWordChar tail
  refine ⟨c :: tail.takeWhile isWordChar, ?_, ?_⟩
  · rw [List.cons_append, List.takeWhile_append_dropWhile]
  · rw [wordKind, any_isWordMark_eq_false hEnd hRest]
    cases hKey : Keyword.ofText? (String.ofList (c :: tail.takeWhile isWordChar)) with
    | some keyword =>
      have hText := Keyword.ofText?_eq_some_iff.mp hKey
      have hRaw : c :: tail.takeWhile isWordChar = keyword.text.toList := by
        rw [hText, String.toList_ofList]
      rw [hRaw]
      exact .keyword hEnd
    | none =>
      refine .identifier hStart ?_ ?_ hEnd
      · exact List.all_eq_true.mp List.all_takeWhile
      · intro keyword hText
        rw [Keyword.ofText?_eq_some_iff.mpr hText] at hKey
        cases hKey

/-- A sign is spelled so wherever it is no comment and no negative number. -/
theorem sign_spelled {text rest : List Char} {kind : TokenKind}
    (h : sign text = .token kind rest) (hComment : ∀ after, text ≠ '/' :: '/' :: after)
    (hNegative : ¬ ∃ digits after, Digits digits ∧ text = '(' :: '-' :: digits ++ ')' :: after) :
    ∃ raw, text = raw ++ rest ∧ Spelled raw kind rest := by
  unfold sign at h
  split at h
  · next hSign =>
    cases h
    exact sign?_spelled hSign hComment hNegative
  · cases h

/-- **A token that is read is spelled by the text it takes.** -/
theorem read_spelled {text rest : List Char} {kind : TokenKind}
    (h : read text = .token kind rest) (hRest : Unmarked rest) :
    ∃ raw, text = raw ++ rest ∧ Spelled raw kind rest := by
  unfold read at h
  split at h
  · cases h
  · cases h
  · next inner =>
    split at h
    · next digits after hNegative =>
      obtain ⟨hDigits, rfl⟩ := negative?_eq_some_iff.mp hNegative
      obtain ⟨rfl, n, rfl, hValue⟩ := number_eq_token_iff.mp h
      exact ⟨'(' :: '-' :: digits ++ [')'], by simp, .negative hDigits hValue⟩
    · next hNone =>
      -- digits in parentheses would have been read as a number
      refine sign_spelled h (by simp) ?_
      rintro ⟨digits, after, hDigits, hText⟩
      have hInner : inner = digits ++ ')' :: after := by simpa using hText
      rw [negative?_eq_some_iff.mpr ⟨hDigits, hInner⟩] at hNone
      cases hNone
  · split at h
    · next content after hQuoted =>
      cases h
      obtain ⟨inner, rfl, hInner⟩ := quoted?_eq_some_iff.mp hQuoted
      exact ⟨'"' :: inner ++ ['"'], by simp, .text hInner⟩
    · cases h
  · next c tail hComment hNegative _ =>
    split at h
    · next hStart => exact word_spelled hStart h hRest
    · split at h
      · next hDigit =>
        obtain ⟨rfl, n, rfl, hValue⟩ := number_eq_token_iff.mp h
        refine ⟨(c :: tail).takeWhile Char.isDigit, ?_, .number ⟨?_, ?_⟩ ?_ hValue⟩
        · rw [List.takeWhile_append_dropWhile]
        · rw [List.takeWhile_cons_of_pos hDigit]
          simp
        · exact List.all_eq_true.mp List.all_takeWhile
        · exact endsClass_dropWhile Char.isDigit _
      · refine sign_spelled h ?_ ?_
        · intro after hText
          cases hText
          exact hComment _ rfl rfl
        · rintro ⟨digits, after, _, hText⟩
          cases hText
          exact hNegative _ rfl rfl

/-- What is read where the line is not over: a token, but not the end of the
input, or a fault of the text. -/
def Proper : Segment → Prop
  | .done => False
  | .token kind _ => kind ≠ .eof
  | .unreadable cause => cause.kind = .lexical

/-- Behind a number the line may go on. -/
theorem proper_number (written : List Char) (value : Int) (rest : List Char) :
    (number written value rest).Proper := by
  unfold number
  split
  · intro h
    cases h
  · rfl

/-- Behind a word the line may go on. -/
theorem proper_word (text : List Char) : (word text).Proper := by
  show wordKind _ _ ≠ .eof
  unfold wordKind
  repeat' split
  all_goals
    intro h
    cases h

/-- No sign is the end of the input. -/
theorem sign?_ne_eof {text rest : List Char} {kind : TokenKind}
    (h : sign? text = some (kind, rest)) : kind ≠ .eof := by
  rintro rfl
  unfold sign? at h
  split at h <;> cases h

/-- Behind a sign the line may go on. -/
theorem proper_sign (text : List Char) : (sign text).Proper := by
  unfold sign
  split
  · next h => exact sign?_ne_eof h
  · rfl

/-- Reading stops nowhere but at the end of the text and at a comment. -/
theorem proper_read (text : List Char) :
    text = [] ∨ (∃ after, text = '/' :: '/' :: after) ∨ (read text).Proper := by
  unfold read
  split
  · exact Or.inl rfl
  · exact Or.inr (Or.inl ⟨_, rfl⟩)
  all_goals right; right
  · split
    · exact proper_number _ _ _
    · exact proper_sign _
  · split
    · intro h
      cases h
    · rfl
  · split
    · exact proper_word _
    · split
      · exact proper_number _ _ _
      · exact proper_sign _

/-- A line is over at its end or at a comment, and nowhere else. -/
theorem read_eq_done {text : List Char} (h : read text = .done) :
    text = [] ∨ ∃ after, text = '/' :: '/' :: after := by
  rcases proper_read text with hEnd | hComment | hProper
  · exact Or.inl hEnd
  · exact Or.inr hComment
  · rw [h] at hProper
    exact hProper.elim

/-- What is read behind blanks is proper, too. -/
theorem proper_next {text : List Char} {segment : Segment} (h : next text = segment)
    (hDone : segment ≠ .done) : segment.Proper := by
  rcases proper_read (text.dropWhile isBlank) with hEnd | ⟨after, hComment⟩ | hProper
  · rw [next, hEnd, read] at h
    exact absurd h.symm hDone
  · rw [next, hComment, read] at h
    exact absurd h.symm hDone
  · rw [← h]
    exact hProper

theorem sign_of_sign? {text rest : List Char} {kind : TokenKind}
    (h : sign? text = some (kind, rest)) : sign text = .token kind rest := by
  rw [sign, h]

/-- A whole word is read at once. -/
theorem read_word {c : Char} {cs rest : List Char} (hStart : isWordStart c = true)
    (hChars : ∀ d ∈ cs, isWordChar d = true) (hEnd : EndsClass isWordChar rest) :
    read (c :: cs ++ rest) = .token (wordKind (String.ofList (c :: cs)) rest) rest := by
  have hAll : ∀ d ∈ c :: cs, isWordChar d = true := by
    intro d hd
    rcases List.mem_cons.mp hd with rfl | hd
    · exact isWordChar_of_isWordStart hStart
    · exact hChars d hd
  obtain ⟨hTake, hDrop⟩ := span_of_endsClass hAll hEnd
  rw [List.cons_append] at hTake hDrop ⊢
  rw [read_cons, if_pos hStart, word, hTake, hDrop]
  all_goals
    rintro rfl
    cases hStart

/-- A whole run of digits is read at once. -/
theorem read_digits {digits rest : List Char} (hDigits : Digits digits)
    (hEnd : EndsClass Char.isDigit rest) :
    read (digits ++ rest) = number digits (digitsValue digits) rest := by
  obtain ⟨hNonempty, hAll⟩ := hDigits
  obtain ⟨hTake, hDrop⟩ := span_of_endsClass hAll hEnd
  obtain ⟨c, cs, rfl⟩ := List.exists_cons_of_ne_nil hNonempty
  have hDigit : c.isDigit = true := hAll c List.mem_cons_self
  have hStart : isWordStart c = false := isWordStart_of_isDigit hDigit
  rw [List.cons_append] at hTake hDrop ⊢
  rw [read_cons, hStart, hDigit, hTake, hDrop]
  · rfl
  all_goals
    rintro rfl
    cases hDigit

/-- **A token that is spelled in front of unmarked text is read.** -/
theorem read_of_spelled {raw rest : List Char} {kind : TokenKind} (h : Spelled raw kind rest)
    (hRest : Unmarked rest) : read (raw ++ rest) = .token kind rest := by
  cases h with
  | keyword hEnd =>
    -- all keywords are words, with nothing to be read before them
    rename_i word
    obtain ⟨c, cs, hText, hStart, hChars⟩ : ∃ c cs, word.text.toList = c :: cs ∧
        isWordStart c = true ∧ ∀ d ∈ cs, isWordChar d = true := by
      cases word <;> exact ⟨_, _, rfl, by decide, List.all_eq_true.mp (by decide)⟩
    have hWord : String.ofList (c :: cs) = word.text := by
      rw [← hText, String.ofList_toList]
    rw [hText, read_word hStart hChars hEnd, hWord, wordKind, Keyword.ofText?_text,
      any_isWordMark_eq_false hEnd hRest]
    rfl
  | identifier hStart hChars hOther hEnd =>
    rename_i c cs
    have hNone : Keyword.ofText? (String.ofList (c :: cs)) = none := by
      cases hKey : Keyword.ofText? (String.ofList (c :: cs)) with
      | none => rfl
      | some keyword => exact absurd (Keyword.ofText?_eq_some_iff.mp hKey) (hOther keyword)
    rw [read_word hStart hChars hEnd, wordKind, hNone]
  | number hDigits hEnd hValue =>
    rw [read_digits hDigits hEnd]
    exact number_eq_token_iff.mpr ⟨rfl, _, rfl, hValue⟩
  | negative hDigits hValue =>
    rename_i digits n
    have hNegative : negative? (digits ++ ')' :: rest) = some (digits, rest) :=
      negative?_eq_some_iff.mpr ⟨hDigits, rfl⟩
    rw [show '(' :: '-' :: digits ++ [')'] ++ rest = '(' :: '-' :: (digits ++ ')' :: rest) by simp,
      read, hNegative]
    exact number_eq_token_iff.mpr ⟨rfl, n, rfl, hValue⟩
  | text hInner =>
    rename_i inner content
    have hQuoted : quoted? (inner ++ '"' :: rest) = some (content, rest) :=
      quoted?_eq_some_iff.mpr ⟨inner, rfl, hInner⟩
    rw [show '"' :: inner ++ ['"'] ++ rest = '"' :: (inner ++ '"' :: rest) by simp, read, hQuoted]
  | operator hEqual hSlash =>
    rename_i op
    have hSign := sign_of_sign? (sign?_of_operator hEqual)
    cases op with
    | div =>
      show read ('/' :: rest) = _
      rw [read]
      · exact hSign
      · intro after _ hAfter
        exact head?_ne_iff.mp (hSlash rfl) after hAfter
      · intro inner hOpen
        cases hOpen
      · decide
    | _ => exact hSign
  | assign hEqual => exact sign_of_sign? (sign?_of_assign hEqual)
  | separator hOpen =>
    rename_i sign
    have hSign := sign_of_sign? (sign?_of_separator sign rest)
    cases sign with
    -- an open parenthesis starts a negative number, unless the digits do not come to its end
    | openParen =>
      show read ('(' :: rest) = _
      by_cases hMinus : ∃ inner, rest = '-' :: inner
      · obtain ⟨inner, rfl⟩ := hMinus
        have hNone : negative? inner = none := by
          cases hNegative : negative? inner with
          | none => rfl
          | some found =>
            obtain ⟨hDigits, rfl⟩ := negative?_eq_some_iff.mp hNegative
            exact absurd ⟨_, _, hDigits, rfl⟩ (hOpen rfl)
        rw [read, hNone]
        exact hSign
      · rw [read]
        · exact hSign
        · intro after hSlash
          cases hSlash
        · intro inner _ hInner
          exact hMinus ⟨inner, hInner⟩
        · decide
    | _ => exact hSign

end Segment

-- ---------------------------------------------------------------------------
-- A line taken apart
-- ---------------------------------------------------------------------------

/-- A token of a line: the blanks before it, its text and its kind. -/
structure Piece where
  blanks : List Char
  raw : List Char
  kind : TokenKind

/-- A line taken apart: its tokens with the blanks before them, the blanks
after the last token, and the comment, which may be empty. -/
structure Layout where
  pieces : List Piece
  blanks : List Char
  comment : List Char

namespace Layout

/-- The text of some tokens in front of a tail. -/
def textOf (tail : List Char) : List Piece → List Char
  | [] => tail
  | piece :: pieces => piece.blanks ++ (piece.raw ++ textOf tail pieces)

/-- Every token is spelled where it stands, with nothing but blanks before
it. -/
def Spells (tail : List Char) : List Piece → Prop
  | [] => True
  | piece :: pieces =>
    (∀ c ∈ piece.blanks, isBlank c = true) ∧
      Spelled piece.raw piece.kind (textOf tail pieces) ∧ Spells tail pieces

/-- The whole line. -/
def text (layout : Layout) : List Char :=
  textOf (layout.blanks ++ layout.comment) layout.pieces

/-- The tokens of the line. -/
def kinds (layout : Layout) : List TokenKind :=
  layout.pieces.map Piece.kind

/-- A layout that follows the rules: tokens are spelled, blanks are blank, and
a comment starts with its mark. -/
structure Valid (layout : Layout) : Prop where
  spells : Spells (layout.blanks ++ layout.comment) layout.pieces
  blank : ∀ c ∈ layout.blanks, isBlank c = true
  comment : layout.comment = [] ∨ ∃ after, layout.comment = '/' :: '/' :: after

/-- The tail of a layout starts with a blank, with a comment or not at all. -/
theorem Valid.tail_unmarked {layout : Layout} (h : layout.Valid) :
    Segment.Unmarked (layout.blanks ++ layout.comment) := by
  intro c hc hMark
  obtain ⟨pieces, blanks, comment⟩ := layout
  cases blanks with
  | cons d blanks =>
    cases hc
    have hBlank := h.blank c List.mem_cons_self
    rw [isWordMark_of_isBlank hBlank] at hMark
    cases hMark
  | nil =>
    rcases h.comment with hEmpty | ⟨after, hAfter⟩
    · rw [List.nil_append, hEmpty] at hc
      cases hc
    · rw [List.nil_append, hAfter] at hc
      cases hc
      revert hMark
      decide +kernel

/-- A line starts with no word character of another script if its tail does not. -/
theorem unmarked_textOf {tail : List Char} {pieces : List Piece} (hTail : Segment.Unmarked tail)
    (h : Spells tail pieces) : Segment.Unmarked (textOf tail pieces) := by
  cases pieces with
  | nil => exact hTail
  | cons piece pieces =>
    obtain ⟨hBlanks, hSpelled, _⟩ := h
    obtain ⟨blanks, raw, kind⟩ := piece
    intro c hc hMark
    cases blanks with
    | cons d blanks =>
      cases hc
      rw [isWordMark_of_isBlank (hBlanks c List.mem_cons_self)] at hMark
      cases hMark
    | nil =>
      -- the first token starts where the line does, and is none of such words
      obtain ⟨d, cs, hRaw, _, hHead⟩ := hSpelled.head
      simp only at hRaw
      subst hRaw
      cases hc
      exact hHead hMark

/-- Skipping blanks stops at a token. -/
theorem next_of_spelled {blanks raw rest : List Char} {kind : TokenKind}
    (hBlanks : ∀ c ∈ blanks, isBlank c = true) (hSpelled : Spelled raw kind rest)
    (hRest : Segment.Unmarked rest) :
    Segment.next (blanks ++ (raw ++ rest)) = .token kind rest := by
  obtain ⟨c, cs, rfl, hc, _⟩ := hSpelled.head
  rw [Segment.next, (span_of_endsClass hBlanks (by simpa [EndsClass] using hc)).2]
  exact Segment.read_of_spelled hSpelled hRest

/-- The blanks of a line's tail are all its blanks. -/
theorem Valid.span_tail {layout : Layout} (h : layout.Valid) :
    (layout.blanks ++ layout.comment).takeWhile isBlank = layout.blanks ∧
      (layout.blanks ++ layout.comment).dropWhile isBlank = layout.comment := by
  refine span_of_endsClass h.blank ?_
  rcases h.comment with hEmpty | ⟨after, hAfter⟩
  · rw [hEmpty]
    simp [EndsClass]
  · rw [hAfter]
    intro c hc
    cases hc
    decide +kernel

/-- Nothing is left to read in a line's tail. -/
theorem Valid.next_tail {layout : Layout} (h : layout.Valid) :
    Segment.next (layout.blanks ++ layout.comment) = .done := by
  rw [Segment.next, h.span_tail.2]
  rcases h.comment with hEmpty | ⟨after, hAfter⟩
  · rw [hEmpty, Segment.read]
  · rw [hAfter, Segment.read]

end Layout

/-- A line with nothing to read has no tokens. -/
theorem scanLine_of_done {text : List Char} (h : Segment.next text = .done) :
    scanLine text = ([], none) := by
  rw [scanLine]
  split
  · rfl
  · next h' => rw [h] at h'; cases h'
  · next h' => rw [h] at h'; cases h'

/-- A line that starts with a fault has no tokens in front of it. -/
theorem scanLine_of_unreadable {text : List Char} {cause : Cause}
    (h : Segment.next text = .unreadable cause) : scanLine text = ([], some cause) := by
  rw [scanLine]
  split
  · next h' => rw [h] at h'; cases h'
  · next h' => rw [h] at h'; cases h'; rfl
  · next h' => rw [h] at h'; cases h'

/-- A line that starts with a token goes on behind it. -/
theorem scanLine_of_token {text rest : List Char} {kind : TokenKind}
    (h : Segment.next text = .token kind rest) :
    scanLine text = (kind :: (scanLine rest).1, (scanLine rest).2) := by
  rw [scanLine]
  split
  · next h' => rw [h] at h'; cases h'
  · next h' => rw [h] at h'; cases h'
  · next h' => rw [h] at h'; cases h'; rfl

-- ---------------------------------------------------------------------------
-- The scanner finds the layout
-- ---------------------------------------------------------------------------

/-- A layout of the text after a token, with that token in front. -/
theorem Layout.Valid.cons {layout : Layout} (h : layout.Valid) {blanks raw : List Char}
    {kind : TokenKind} (hBlanks : ∀ c ∈ blanks, isBlank c = true)
    (hSpelled : Spelled raw kind layout.text) :
    Layout.Valid ⟨⟨blanks, raw, kind⟩ :: layout.pieces, layout.blanks, layout.comment⟩ :=
  ⟨⟨hBlanks, hSpelled, h.spells⟩, h.blank, h.comment⟩

/-- The text after the first token is a line that follows the rules. -/
theorem Layout.Valid.later {piece : Piece} {pieces : List Piece} {blanks comment : List Char}
    (h : Layout.Valid ⟨piece :: pieces, blanks, comment⟩) :
    Layout.Valid ⟨pieces, blanks, comment⟩ :=
  ⟨h.spells.2.2, h.blank, h.comment⟩

/-- What follows a token starts with no word character of another script, hence
does not make the token longer. -/
theorem Layout.Valid.unmarked {layout : Layout} (h : layout.Valid) :
    Segment.Unmarked layout.text :=
  Layout.unmarked_textOf h.tail_unmarked h.spells

/-- The first token of a line is read first. -/
theorem Layout.Valid.next_text {piece : Piece} {pieces : List Piece} {blanks comment : List Char}
    (h : Layout.Valid ⟨piece :: pieces, blanks, comment⟩) :
    Segment.next (Layout.text ⟨piece :: pieces, blanks, comment⟩) =
      .token piece.kind (Layout.text ⟨pieces, blanks, comment⟩) :=
  Layout.next_of_spelled h.spells.1 h.spells.2.1 h.later.unmarked

/-- The blanks before the first token are all the blanks a line starts with. -/
theorem Layout.Valid.takeWhile_text {piece : Piece} {pieces : List Piece}
    {blanks comment : List Char} (h : Layout.Valid ⟨piece :: pieces, blanks, comment⟩) :
    (Layout.text ⟨piece :: pieces, blanks, comment⟩).takeWhile isBlank = piece.blanks := by
  obtain ⟨c, cs, hRaw, hc, _⟩ := h.spells.2.1.head
  refine (span_of_endsClass h.spells.1 ?_).1
  rw [hRaw]
  simpa [EndsClass] using hc

/-- A line that follows the rules is scanned to its tokens. -/
theorem Layout.Valid.scanLine_text {layout : Layout} (h : layout.Valid) :
    scanLine layout.text = (layout.kinds, none) := by
  obtain ⟨pieces, blanks, comment⟩ := layout
  -- token by token, each of which is read as it is spelled
  induction pieces with
  | nil => exact scanLine_of_done h.next_tail
  | cons piece pieces ih =>
    rw [scanLine_of_token h.next_text, ih h.later]
    rfl

/-- A line without a fault follows the rules. -/
theorem exists_layout {text : List Char} (h : (scanLine text).2 = none) :
    ∃ layout : Layout, layout.Valid ∧ layout.text = text := by
  -- by the steps of the scanner, each of which adds one token in front of the rest of the line
  fun_induction scanLine text with
  | case1 text hNext =>
    refine ⟨⟨[], text.takeWhile isBlank, text.dropWhile isBlank⟩, ⟨trivial, ?_, ?_⟩, ?_⟩
    · exact List.all_eq_true.mp List.all_takeWhile
    · exact Segment.read_eq_done hNext
    · exact List.takeWhile_append_dropWhile
  | case2 text cause hNext => cases h
  | case3 text kind rest hNext _ kinds cause hScan ih =>
    obtain ⟨layout, hValid, hText⟩ := ih (by rw [hScan]; exact h)
    rw [Segment.next] at hNext
    -- the rest of the line is known to be unmarked only because it has a layout
    obtain ⟨raw, hRaw, hSpelled⟩ := Segment.read_spelled hNext (hText ▸ hValid.unmarked)
    have hBlanks : ∀ c ∈ text.takeWhile isBlank, isBlank c = true :=
      List.all_eq_true.mp List.all_takeWhile
    refine ⟨_, hValid.cons hBlanks (hText ▸ hSpelled), ?_⟩
    show text.takeWhile isBlank ++ (raw ++ layout.text) = text
    rw [hText, ← hRaw, List.takeWhile_append_dropWhile]

/-- **No line can be taken apart in two ways.** -/
theorem Layout.Valid.eq {layout layout' : Layout} (h : layout.Valid) (h' : layout'.Valid)
    (hText : layout.text = layout'.text) : layout = layout' := by
  obtain ⟨pieces, blanks, comment⟩ := layout
  obtain ⟨pieces', blanks', comment'⟩ := layout'
  -- by the tokens of one of the two, the other's being read along
  induction pieces generalizing pieces' with
  | nil =>
    cases pieces' with
    | nil =>
      have hTail : blanks ++ comment = blanks' ++ comment' := hText
      obtain ⟨hTake, hDrop⟩ := h.span_tail
      obtain ⟨hTake', hDrop'⟩ := h'.span_tail
      simp only [hTail] at hTake hDrop
      simp only at hTake' hDrop'
      rw [← hTake, ← hDrop, hTake', hDrop']
    | cons piece' pieces' =>
      have hNext := h'.next_text
      rw [← hText] at hNext
      cases h.next_tail.symm.trans hNext
  | cons piece pieces ih =>
    cases pieces' with
    | nil =>
      have hNext := h.next_text
      rw [hText] at hNext
      cases h'.next_tail.symm.trans hNext
    | cons piece' pieces' =>
      -- the token and the text after it are what the scanner reads next
      have hNext := h.next_text
      rw [hText, h'.next_text] at hNext
      obtain ⟨hKind, hRest⟩ := Segment.token.inj hNext
      cases ih h.later pieces' h'.later hRest.symm
      -- the blanks are all blanks in front, so the same text is left for both
      have hBlanks : piece.blanks = piece'.blanks := by
        rw [← h.takeWhile_text, ← h'.takeWhile_text, hText]
      obtain ⟨blanks₁, raw, kind⟩ := piece
      obtain ⟨blanks₂, raw', kind'⟩ := piece'
      simp only at hKind hBlanks
      subst hKind hBlanks
      have hRaw : raw = raw' := by
        have hSame := List.append_cancel_left hText
        exact List.append_cancel_right hSame
      rw [hRaw]

-- ---------------------------------------------------------------------------
-- Main results
-- ---------------------------------------------------------------------------

/-- No token of a line is the end of the input. -/
theorem scanLine_ne_eof {text : List Char} {kind : TokenKind} (h : kind ∈ (scanLine text).1) :
    kind ≠ .eof := by
  fun_induction scanLine text with
  | case1 text hNext => cases h
  | case2 text cause hNext => cases h
  | case3 text first rest hNext _ kinds cause hScan ih =>
    rcases List.mem_cons.mp h with rfl | hLater
    · exact Segment.proper_next hNext nofun
    · rw [hScan] at ih
      exact ih hLater

/-- A line has no fault but those of its text. -/
theorem scanLine_lexical {text : List Char} {cause : Cause} (h : (scanLine text).2 = some cause) :
    cause.kind = .lexical := by
  fun_induction scanLine text with
  | case1 text hNext => cases h
  | case2 text found hNext =>
    cases h
    exact Segment.proper_next hNext nofun
  | case3 text first rest hNext _ kinds cause hScan ih =>
    rw [hScan] at ih
    exact ih h

/-- A line has no more tokens than characters. -/
theorem length_scanLine_le (text : List Char) : (scanLine text).1.length ≤ text.length := by
  fun_induction scanLine text with
  | case1 text hNext => exact Nat.zero_le _
  | case2 text cause hNext => exact Nat.zero_le _
  | case3 text first rest hNext hLength kinds cause hScan ih =>
    rw [hScan] at ih
    simp only [List.length_cons] at ih ⊢
    omega

end Scriptlet
