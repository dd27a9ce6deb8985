import Mathlib
import Scriptlet.Proofs.Spelling

/-!
# Scriptlet — written forms

Names, numbers, quoted texts and lists in parentheses as they are written into
the text of a tree. Each of them ends where it must: if two of one sort agree
together with whatever follows them, then they are the same, and so is what
follows them.

* `Text.name_legible`, `Text.number_legible` — names and numbers, if nothing
  follows that would go on with them;
* `Text.quote_legible` — quoted texts, whatever they quote;
* `Text.closed_legible` — lists in parentheses, if their items are like that.
-/

namespace Scriptlet

-- ---------------------------------------------------------------------------
-- Names, numbers and quoted texts
-- ---------------------------------------------------------------------------

namespace Text

/-- Whether the text is a name: a letter or underscore, then letters, digits and
underscores. -/
def isName (text : String) : Bool :=
  match text.toList with
  | [] => false
  | c :: cs => isWordStart c && cs.all isWordChar

/-- What may follow an item of a list: a blank or a closing parenthesis. -/
def Delimited (rest : List Char) : Prop :=
  ∃ tail, rest = ' ' :: tail ∨ rest = ')' :: tail

/-- A blank ends an item. -/
theorem delimited_blank (tail : List Char) : Delimited (' ' :: tail) :=
  ⟨tail, Or.inl rfl⟩

/-- A class without blanks and closing parentheses ends with an item. -/
theorem Delimited.endsClass {rest : List Char} (h : Delimited rest) {p : Char → Bool}
    (hBlank : p ' ' = false) (hClose : p ')' = false) : EndsClass p rest := by
  obtain ⟨tail, rfl | rfl⟩ := h
  · simpa [EndsClass] using hBlank
  · simpa [EndsClass] using hClose

/-- So does a word. -/
theorem Delimited.endsWord {rest : List Char} (h : Delimited rest) : EndsClass isWordChar rest :=
  h.endsClass (by decide) (by decide)

/-- An open parenthesis ends a word. -/
theorem endsWord_open (tail : List Char) : EndsClass isWordChar ('(' :: tail) := by
  have hOpen : isWordChar '(' = false := by decide
  simpa [EndsClass] using hOpen

/-- Two runs of characters of a class that do not go on agree if they agree with
what follows them. -/
theorem run_legible {p : Char → Bool} {raw raw' rest rest' : List Char}
    (hAll : ∀ c ∈ raw, p c = true) (hAll' : ∀ c ∈ raw', p c = true) (hEnd : EndsClass p rest)
    (hEnd' : EndsClass p rest') (h : raw ++ rest = raw' ++ rest') : raw = raw' ∧ rest = rest' := by
  obtain ⟨hTake, hDrop⟩ := span_of_endsClass hAll hEnd
  obtain ⟨hTake', hDrop'⟩ := span_of_endsClass hAll' hEnd'
  rw [h] at hTake hDrop
  exact ⟨hTake.symm.trans hTake', hDrop.symm.trans hDrop'⟩

/-- A name has a first character, and only characters of words. -/
theorem exists_of_isName {name : String} (h : isName name = true) :
    ∃ c cs, name.toList = c :: cs ∧ isWordStart c = true ∧
      ∀ d ∈ name.toList, isWordChar d = true := by
  unfold isName at h
  cases hName : name.toList with
  | nil =>
    rw [hName] at h
    cases h
  | cons c cs =>
    rw [hName] at h
    simp only [Bool.and_eq_true, List.all_eq_true] at h
    refine ⟨c, cs, rfl, h.1, List.forall_mem_cons.mpr ⟨?_, h.2⟩⟩
    exact isWordChar_of_isWordStart h.1

/-- A name ends where something else than a word character follows. -/
theorem name_legible {name name' : String} (hName : isName name = true)
    (hName' : isName name' = true) {rest rest' : List Char} (hEnd : EndsClass isWordChar rest)
    (hEnd' : EndsClass isWordChar rest') (h : name.toList ++ rest = name'.toList ++ rest') :
    name = name' ∧ rest = rest' := by
  obtain ⟨_, _, _, _, hAll⟩ := exists_of_isName hName
  obtain ⟨_, _, _, _, hAll'⟩ := exists_of_isName hName'
  obtain ⟨hSame, hRest⟩ := run_legible hAll hAll' hEnd hEnd' h
  exact ⟨String.toList_inj.mp hSame, hRest⟩

/-- The characters of a number in decimal. -/
def isNumeral (c : Char) : Bool :=
  c.isDigit || c == '-'

/-- Decimals consist of digits and a sign. -/
theorem isNumeral_of_mem_toString {n : Int} : ∀ c ∈ (toString n).toList, isNumeral c = true := by
  have hDigits : ∀ k : Nat, ∀ c ∈ k.repr.toList, isNumeral c = true := by
    intro k c hc
    -- digits in base ten are decimal digits
    rw [Nat.repr_eq_ofList_toDigits, String.toList_ofList] at hc
    have hDigit := Nat.isDigit_of_mem_toDigits (by decide) (by decide) hc
    rw [isNumeral, hDigit, Bool.true_or]
  rw [Int.toString_eq_repr, Int.repr_eq_if]
  split
  · exact hDigits _
  · intro c hc
    rw [String.toList_append] at hc
    rcases List.mem_append.mp hc with hSign | hDigit
    · rw [List.mem_singleton.mp hSign]
      decide
    · exact hDigits _ c hDigit

/-- No number is written with nothing. -/
theorem toString_ne_nil (n : Int) : (toString n).toList ≠ [] := by
  rw [Int.toString_eq_repr, Int.repr_eq_if]
  split
  · rw [Nat.repr_eq_ofList_toDigits, String.toList_ofList]
    exact Nat.toDigits_ne_nil
  · rw [String.toList_append]
    exact List.cons_ne_nil _ _

/-- A number ends where an item does. -/
theorem number_legible {n n' : Int64} {rest rest' : List Char} (hEnd : Delimited rest)
    (hEnd' : Delimited rest')
    (h : (toString n.toInt).toList ++ rest = (toString n'.toInt).toList ++ rest') :
    n = n' ∧ rest = rest' := by
  obtain ⟨hSame, hRest⟩ := run_legible isNumeral_of_mem_toString isNumeral_of_mem_toString
    (hEnd.endsClass rfl rfl) (hEnd'.endsClass rfl rfl) h
  refine ⟨Int64.toInt_inj.mp ?_, hRest⟩
  have hString := String.toList_inj.mp hSame
  rwa [Int.toString_eq_repr, Int.toString_eq_repr, Int.repr_inj] at hString

/-- A number is written in hexadecimal with the digits of numbers below 16. -/
theorem exists_of_mem_hex {n : Nat} : ∀ c ∈ Nat.toDigits 16 n, ∃ k < 16, c = Nat.digitChar k := by
  induction n using Nat.strongRecOn with
  | ind n ih =>
    rw [Nat.toDigits_eq_if (by decide)]
    split
    next hSmall => exact List.forall_mem_singleton.mpr ⟨n, hSmall, rfl⟩
    next hLarge =>
      refine List.forall_mem_append.mpr ⟨ih (n / 16) (by omega), ?_⟩
      exact List.forall_mem_singleton.mpr ⟨n % 16, by omega, rfl⟩

/-- Numbers are told apart by their hexadecimal digits. -/
theorem hex_injective {m n : Nat} (h : Nat.toDigits 16 m = Nat.toDigits 16 n) : m = n := by
  have hDigit : ∀ j < 16, ∀ k < 16, Nat.digitChar j = Nat.digitChar k → j = k := by decide
  -- digit by digit from the last one, which is the remainder
  induction m using Nat.strongRecOn generalizing n with
  | ind m ih =>
    have hLonger : ∀ k : Nat, ∀ c d : Char, Nat.toDigits 16 k ++ [c] ≠ [d] := by
      intro k c d hSame
      have hLength := congrArg List.length hSame
      have hSome : 0 < (Nat.toDigits 16 k).length := Nat.length_toDigits_pos
      rw [List.length_append, List.length_singleton, List.length_singleton] at hLength
      omega
    rw [Nat.toDigits_eq_if (n := m) (by decide), Nat.toDigits_eq_if (n := n) (by decide)] at h
    split at h <;> split at h
    next hm hn => exact hDigit m hm n hn (List.singleton_inj.mp h)
    next => exact absurd h.symm (hLonger _ _ _)
    next => exact absurd h (hLonger _ _ _)
    next hm hn =>
      obtain ⟨hFront, hLast⟩ := List.append_inj' h rfl
      have hQuotient := ih (m / 16) (by omega) hFront
      have hRemainder :=
        hDigit (m % 16) (by omega) (n % 16) (by omega) (List.singleton_inj.mp hLast)
      omega

/-- The characters that have a letter of their own behind a backslash. -/
def escapes : List (Char × Char) :=
  [('"', '"'), ('\\', '\\'), ('\n', 'n'), ('\r', 'r'), ('\t', 't'), ('\x00', '0')]

/-- The ways in which a character is written in a quoted text. -/
inductive QuotedAs : Char → List Char → Prop
  | letter {c k : Char} (h : (c, k) ∈ escapes) : QuotedAs c ['\\', k]
  | code (c : Char) :
    QuotedAs c ('\\' :: 'u' :: '\x7b' :: Nat.toDigits 16 c.toNat ++ ['\x7d'])
  | plain {c : Char} (hQuote : c ≠ '"') (hBackslash : c ≠ '\\') : QuotedAs c [c]

/-- Every character is written in one of these ways. -/
theorem quotedAs_quoteChar (c : Char) : QuotedAs c (quoteChar c) := by
  unfold quoteChar
  split
  next h => exact .letter (by rw [h]; decide)
  next hQuote =>
    split
    next h => exact .letter (by rw [h]; decide)
    next hBackslash =>
      split
      next h => exact .letter (by rw [h]; decide)
      split
      next h => exact .letter (by rw [h]; decide)
      split
      next h => exact .letter (by rw [h]; decide)
      split
      next h => exact .letter (by rw [h]; decide)
      split
      · exact .code c
      · exact .plain hQuote hBackslash

/-- **The written form of a character shows where it ends** and what it stands
for. -/
theorem quoteChar_legible {c d : Char} {rest rest' : List Char}
    (h : quoteChar c ++ rest = quoteChar d ++ rest') : c = d ∧ rest = rest' := by
  have hLetters : ∀ p ∈ escapes, p.2 ≠ 'u' ∧ ∀ q ∈ escapes, p.2 = q.2 → p.1 = q.1 := by decide
  have hc := quotedAs_quoteChar c
  have hd := quotedAs_quoteChar d
  -- only the way in which each is written matters from here on
  generalize quoteChar c = raw at h hc
  generalize quoteChar d = raw' at h hd
  cases hc with
  | letter hMem =>
    cases hd with
    | letter hMem' =>
      simp only [List.cons_append, List.nil_append, List.cons.injEq, true_and] at h
      exact ⟨(hLetters _ hMem).2 _ hMem' h.1, h.2⟩
    | code =>
      simp only [List.cons_append, List.nil_append, List.cons.injEq, true_and] at h
      exact absurd h.1 (hLetters _ hMem).1
    | plain _ hBackslash => exact absurd (List.cons.inj h).1.symm hBackslash
  | code =>
    cases hd with
    -- no escape has the letter that starts a code
    | letter hMem' =>
      simp only [List.cons_append, List.nil_append, List.cons.injEq, true_and] at h
      exact absurd h.1.symm (hLetters _ hMem').1
    | code =>
      simp only [List.cons_append, List.append_assoc, List.nil_append, List.cons.injEq,
        true_and] at h
      -- the digits of a code end at its closing brace
      have hAll : ∀ n : Nat, ∀ k ∈ Nat.toDigits 16 n, (k != '\x7d') = true := by
        intro n k hk
        have hDigits : ∀ j < 16, (Nat.digitChar j != '\x7d') = true := by decide
        obtain ⟨j, hj, rfl⟩ := exists_of_mem_hex k hk
        exact hDigits j hj
      have hEnd : ∀ tail, EndsClass (· != '\x7d') ('\x7d' :: tail) := by
        intro tail
        simp [EndsClass]
      obtain ⟨hCode, hRest⟩ := run_legible (hAll _) (hAll _) (hEnd _) (hEnd _) h
      exact ⟨Char.toNat_inj.mp (hex_injective hCode), (List.cons.inj hRest).2⟩
    | plain _ hBackslash => exact absurd (List.cons.inj h).1.symm hBackslash
  | plain _ hBackslash =>
    cases hd with
    | letter | code => exact absurd (List.cons.inj h).1 hBackslash
    | plain => exact List.cons.inj h

/-- No character is written as the quote that ends the text. -/
theorem quoteChar_ne_quote (c : Char) (rest tail : List Char) :
    quoteChar c ++ rest ≠ '"' :: tail := by
  intro h
  have hc := quotedAs_quoteChar c
  generalize quoteChar c = raw at h hc
  cases hc with
  | letter | code => exact absurd (List.cons.inj h).1 (by decide)
  | plain hQuote _ => exact hQuote (List.cons.inj h).1

/-- **A quoted text shows where it ends** and what it quotes. -/
theorem quote_legible {text text' : String} {rest rest' : List Char}
    (h : (quote text).toList ++ rest = (quote text').toList ++ rest') :
    text = text' ∧ rest = rest' := by
  have hInner : ∀ cs ds : List Char,
      cs.flatMap quoteChar ++ '"' :: rest = ds.flatMap quoteChar ++ '"' :: rest' →
      cs = ds ∧ rest = rest' := by
    -- character by character, until both texts are at their closing quotes
    intro cs
    induction cs with
    | nil =>
      intro ds hText
      cases ds with
      | nil => exact ⟨rfl, (List.cons.inj hText).2⟩
      | cons d ds =>
        rw [List.flatMap_cons, List.append_assoc] at hText
        exact absurd hText.symm (quoteChar_ne_quote d _ _)
    | cons c cs ih =>
      intro ds hText
      rw [List.flatMap_cons, List.append_assoc] at hText
      cases ds with
      | nil => exact absurd hText (quoteChar_ne_quote c _ _)
      | cons d ds =>
        rw [List.flatMap_cons, List.append_assoc] at hText
        obtain ⟨rfl, hMore⟩ := quoteChar_legible hText
        obtain ⟨rfl, hRest⟩ := ih ds hMore
        exact ⟨rfl, hRest⟩
  rw [toList_quote, toList_quote] at h
  simp only [List.cons_append, List.append_assoc, List.nil_append, List.cons.injEq, true_and] at h
  obtain ⟨hText, hRest⟩ := hInner _ _ h
  exact ⟨String.toList_inj.mp hText, hRest⟩

-- ---------------------------------------------------------------------------
-- Lists in parentheses
-- ---------------------------------------------------------------------------

/-- If the two texts agree together with what follows them, then `same` holds,
and what follows them agrees. -/
def Tells (after : List Char → Prop) (text text' : List Char) (same : Prop) : Prop :=
  ∀ ⦃rest rest' : List Char⦄, after rest → after rest' → text ++ rest = text' ++ rest' →
    same ∧ rest = rest'

/-- The items of a list behind its first one, and what closes the list. -/
def closedTail (rest : List Char) : List (List Char) → List Char
  | [] => ')' :: rest
  | item :: items => ' ' :: item ++ closedTail rest items

/-- Behind an item, a list goes on with a blank or ends with a parenthesis. -/
theorem delimited_closedTail (rest : List Char) (items : List (List Char)) :
    Delimited (closedTail rest items) := by
  cases items with
  | nil => exact ⟨rest, Or.inr rfl⟩
  | cons item items => exact ⟨_, Or.inl rfl⟩

/-- A list with at least one item is that item and what is behind it. -/
theorem intercalate_close (item : List Char) (items : List (List Char)) (rest : List Char) :
    [' '].intercalate (item :: items) ++ ')' :: rest = item ++ closedTail rest items := by
  induction items generalizing item with
  | nil => rw [List.intercalate_singleton, closedTail]
  | cons next items ih =>
    rw [List.intercalate_cons_cons, List.append_assoc, ih, closedTail, List.append_assoc]
    rfl

section Lists

variable {α γ : Type} {text : α → List Char} {key : α → γ}

/-- The items behind the first show what they are and where they end. -/
theorem closedTail_legible {xs ys : List α}
    (hItems : ∀ x ∈ xs, ∀ y ∈ ys, Tells Delimited (text x) (text y) (key x = key y))
    {rest rest' : List Char}
    (h : closedTail rest (xs.map text) = closedTail rest' (ys.map text)) :
    xs.map key = ys.map key ∧ rest = rest' := by
  -- item by item: a blank announces another, a parenthesis the end
  induction xs generalizing ys with
  | nil =>
    cases ys with
    | nil => exact ⟨rfl, (List.cons.inj h).2⟩
    | cons y ys => exact absurd (List.cons.inj h).1 (by decide)
  | cons x xs ih =>
    cases ys with
    | nil => exact absurd (List.cons.inj h).1 (by decide)
    | cons y ys =>
      have hText := (List.cons.inj h).2
      obtain ⟨hKey, hMore⟩ := hItems x List.mem_cons_self y List.mem_cons_self
        (delimited_closedTail _ _) (delimited_closedTail _ _) hText
      have hLater : ∀ a ∈ xs, ∀ b ∈ ys, Tells Delimited (text a) (text b) (key a = key b) :=
        fun a ha b hb => hItems a (List.mem_cons_of_mem _ ha) b (List.mem_cons_of_mem _ hb)
      obtain ⟨hKeys, hRest⟩ := ih hLater hMore
      exact ⟨by rw [List.map_cons, List.map_cons, hKey, hKeys], hRest⟩

/-- **A list in parentheses shows its items and where it ends**, if the items do
and none of them starts with a closing parenthesis. -/
theorem closed_legible {xs ys : List α}
    (hItems : ∀ x ∈ xs, ∀ y ∈ ys, Tells Delimited (text x) (text y) (key x = key y))
    (hOpen : ∀ x ∈ xs ++ ys, ∀ rest, (text x ++ rest).head? ≠ some ')')
    {rest rest' : List Char} (h : [' '].intercalate (xs.map text) ++ ')' :: rest =
      [' '].intercalate (ys.map text) ++ ')' :: rest') :
    xs.map key = ys.map key ∧ rest = rest' := by
  cases xs with
  | nil =>
    cases ys with
    | nil => exact ⟨rfl, (List.cons.inj h).2⟩
    | cons y ys =>
      rw [List.map_cons, intercalate_close] at h
      exact absurd (congrArg List.head? h).symm (hOpen y List.mem_cons_self _)
  | cons x xs =>
    rw [List.map_cons, intercalate_close] at h
    cases ys with
    | nil => exact absurd (congrArg List.head? h) (hOpen x List.mem_cons_self _)
    | cons y ys =>
      rw [List.map_cons, intercalate_close] at h
      -- with a blank before its first item the list is like the rest of another
      have hTail : closedTail rest ((x :: xs).map text) =
          closedTail rest' ((y :: ys).map text) := by
        rw [List.map_cons, List.map_cons, closedTail, closedTail, List.cons_append,
          List.cons_append, h]
      exact closedTail_legible hItems hTail

end Lists

/-- Names in parentheses show what they are and where they end. -/
theorem names_legible {names names' : List String} (hNames : ∀ x ∈ names, isName x = true)
    (hNames' : ∀ x ∈ names', isName x = true) {rest rest' : List Char}
    (h : [' '].intercalate (names.map String.toList) ++ ')' :: rest =
      [' '].intercalate (names'.map String.toList) ++ ')' :: rest') :
    names = names' ∧ rest = rest' := by
  have hItems : ∀ x ∈ names, ∀ y ∈ names',
      Tells Delimited x.toList y.toList (id x = id y) := by
    intro x hx y hy r r' hr hr' hSame
    exact name_legible (hNames x hx) (hNames' y hy) hr.endsWord hr'.endsWord hSame
  have hOpen : ∀ x ∈ names ++ names', ∀ r, (x.toList ++ r).head? ≠ some ')' := by
    intro x hx r
    have hName : isName x = true := by
      rcases List.mem_append.mp hx with hx | hx
      · exact hNames x hx
      · exact hNames' x hx
    -- a name does not start with a parenthesis
    obtain ⟨c, cs, hChars, hStart, _⟩ := exists_of_isName hName
    rw [hChars]
    rintro ⟨⟩
    exact absurd hStart (by decide)
  obtain ⟨hSame, hRest⟩ := closed_legible hItems hOpen h
  rw [List.map_id, List.map_id] at hSame
  exact ⟨hSame, hRest⟩

end Text

end Scriptlet
