import Scriptlet.Proofs.Grammar
import Scriptlet.Proofs.Stream
import Scriptlet.Tree.Parse

/-!
# Scriptlet — what a parse depends on

The parser looks at tokens through a scanner that reads lines behind its back,
and it recurs on fuel. Neither shows: two parses of scanners with the same
stream, each with enough fuel, end in the same way (`Agree`). The same
induction over the rules settles what else holds of every parse: what it
takes derives from the grammar, and what stops it is the fault of the stream
or a token of it.

* `exprsAgree`, `statementsAgree` — the rules for expressions and for
  statements;
* `agree_parse` — whole programs;
* `parse_lazily` — parsing a text line by line is parsing its tokens.
-/

namespace Scriptlet

-- ---------------------------------------------------------------------------
-- Two computations on one stream
-- ---------------------------------------------------------------------------

/-- The stream has the token, or ends with it. -/
def Stream.Shows (stream : Stream) (token : Token) : Prop :=
  ∃ k, stream.look k = .ok token

/-- What may stop a parse of the stream. -/
inductive Stream.Stops (stream : Stream) : Stop → Prop
  | fault {fault : Fault} (h : stream.ending = .error fault) : Stops stream (.fault fault)
  | unexpected {token : Token} {expected : Expectation} (h : stream.Shows token) :
    Stops stream (.fault (.unexpected token expected))

/-- The scanner has these tokens of a stream left. -/
def Scanner.Left (whole : Stream) (tokens : List Token) (scanner : Scanner) : Prop :=
  scanner.stream = ⟨tokens, whole.ending⟩ ∧ tokens <:+ whole.tokens

/-- Started on scanners with the same tokens left, both computations give the
same value and leave the same tokens, of which `post` holds, or both stop in
the same way. -/
def Agree {α : Type} (whole : Stream) (tokens : List Token) (post : α → List Token → Prop)
    (m₁ m₂ : Scan α) : Prop :=
  ∀ s₁ s₂ : Scanner, s₁.Left whole tokens → s₂.Left whole tokens →
    (∃ a rest s₁' s₂', m₁ s₁ = .ok a s₁' ∧ m₂ s₂ = .ok a s₂' ∧
      s₁'.Left whole rest ∧ s₂'.Left whole rest ∧ post a rest) ∨
    (∃ stop s₁' s₂', m₁ s₁ = .error stop s₁' ∧ m₂ s₂ = .error stop s₂' ∧ whole.Stops stop)

variable {α β : Type} {whole : Stream} {tokens : List Token}

/-- A stream shows a fault only where it ends with it. -/
theorem Stream.ending_of_look {ending : Except Fault Nat} {k : Nat} {fault : Fault}
    (h : look ⟨tokens, ending⟩ k = .error fault) : ending = .error fault := by
  rw [look] at h
  split at h
  · cases h
  · cases ending with
    | ok line => cases h
    | error other => cases h; rfl

/-- What a stream shows first is its first token, or the end of the input. -/
theorem Stream.look_zero {ending : Except Fault Nat} {token : Token}
    (h : look ⟨tokens, ending⟩ 0 = .ok token) :
    (∃ rest, tokens = token :: rest) ∨
      (tokens = [] ∧ ∃ line, ending = .ok line ∧ token = ⟨.eof, line⟩) := by
  cases tokens with
  | nil =>
    cases ending with
    | ok line =>
      cases h
      exact Or.inr ⟨rfl, line, rfl, rfl⟩
    | error fault => cases h
  | cons first rest =>
    cases h
    exact Or.inl ⟨rest, rfl⟩

/-- A token other than the end of the input that is shown first can be
taken. -/
theorem Stream.exists_cons_of_look {ending : Except Fault Nat} {token : Token}
    (h : look ⟨tokens, ending⟩ 0 = .ok token) (hToken : token.kind ≠ .eof) :
    ∃ rest, tokens = token :: rest := by
  obtain hCons | ⟨_, line, _, rfl⟩ := look_zero h
  · exact hCons
  · exact absurd rfl hToken

/-- What is shown from some place on is shown by the whole stream. -/
theorem Stream.shows_of_look {token : Token} {k : Nat} (hSuffix : tokens <:+ whole.tokens)
    (h : look ⟨tokens, whole.ending⟩ k = .ok token) : whole.Shows token := by
  obtain ⟨before, hWhole⟩ := hSuffix
  -- counted from the start of the stream, it stands behind what has been taken
  refine ⟨before.length + k, ?_⟩
  rw [← h, look, look, ← hWhole]
  simp only [List.getElem?_append_right (Nat.le_add_right _ _), Nat.add_sub_cancel_left]

namespace Agree

variable {post : α → List Token → Prop} {post' : β → List Token → Prop} {m₁ m₂ : Scan α}

/-- A value is given by both, from wherever they start. -/
theorem pure {a : α} (h : post a tokens) :
    Agree whole tokens post (Pure.pure a) (Pure.pure a) := by
  intro s₁ s₂ h₁ h₂
  exact Or.inl ⟨a, tokens, s₁, s₂, rfl, rfl, h₁, h₂, h⟩

/-- A token that the stream shows may stop both at once. -/
theorem unexpected {token : Token} {expected : Expectation} (h : whole.Shows token) :
    Agree whole tokens post (Parse.unexpected token expected)
      (Parse.unexpected token expected) := by
  intro s₁ s₂ _ _
  exact Or.inr ⟨_, s₁, s₂, rfl, rfl, .unexpected h⟩

/-- What holds of the end of two computations may be weakened. -/
theorem mono {post₂ : α → List Token → Prop} (h : Agree whole tokens post m₁ m₂)
    (hPost : ∀ a rest, post a rest → post₂ a rest) : Agree whole tokens post₂ m₁ m₂ := by
  intro s₁ s₂ h₁ h₂
  rcases h s₁ s₂ h₁ h₂ with ⟨a, rest, s₁', s₂', hRun₁, hRun₂, h₁', h₂', ha⟩ | hStop
  · exact Or.inl ⟨a, rest, s₁', s₂', hRun₁, hRun₂, h₁', h₂', hPost a rest ha⟩
  · exact Or.inr hStop

/-- The tokens that are left belong to the stream. -/
theorem and_suffix (h : Agree whole tokens post m₁ m₂) :
    Agree whole tokens (fun a rest => post a rest ∧ rest <:+ whole.tokens) m₁ m₂ := by
  intro s₁ s₂ h₁ h₂
  rcases h s₁ s₂ h₁ h₂ with ⟨a, rest, s₁', s₂', hRun₁, hRun₂, h₁', h₂', ha⟩ | hStop
  · exact Or.inl ⟨a, rest, s₁', s₂', hRun₁, hRun₂, h₁', h₂', ha, h₁'.2⟩
  · exact Or.inr hStop

/-- **Sequences agree if their parts do.** -/
theorem bind {f₁ f₂ : α → Scan β} (h : Agree whole tokens post m₁ m₂)
    (hNext : ∀ a rest, post a rest → Agree whole rest post' (f₁ a) (f₂ a)) :
    Agree whole tokens post' (m₁ >>= f₁) (m₂ >>= f₂) := by
  intro s₁ s₂ h₁ h₂
  rcases h s₁ s₂ h₁ h₂ with
    ⟨a, rest, s₁', s₂', hRun₁, hRun₂, h₁', h₂', hPost⟩ | ⟨stop, s₁', s₂', hRun₁, hRun₂, hStop⟩
  -- both give the same value and leave the same tokens, so that what follows agrees as well
  · rw [bind_of_ok hRun₁, bind_of_ok hRun₂]
    exact hNext a rest hPost s₁' s₂' h₁' h₂'
  · exact Or.inr ⟨stop, s₁', s₂', bind_of_error hRun₁, bind_of_error hRun₂, hStop⟩

-- ---------------------------------------------------------------------------
-- Single tokens
-- ---------------------------------------------------------------------------

/-- Looking and taking, as far as they are alike: the token that the stream
shows `k` places ahead is given, and `rest` is left. -/
theorem of_look {m : Scan Token} {k : Nat} {rest : List Token} (hRest : rest <:+ tokens)
    (hSpec : ∀ scanner : Scanner, scanner.stream = ⟨tokens, whole.ending⟩ →
      match Stream.look ⟨tokens, whole.ending⟩ k with
      | .ok token => ∃ after, m scanner = .ok token after ∧ after.stream = ⟨rest, whole.ending⟩
      | .error fault => ∃ after, m scanner = .error (.fault fault) after) :
    Agree whole tokens
      (fun token left => left = rest ∧ Stream.look ⟨tokens, whole.ending⟩ k = .ok token ∧
        whole.Shows token) m m := by
  rintro s₁ s₂ ⟨h₁, hSuffix⟩ ⟨h₂, _⟩
  have hSpec₁ := hSpec s₁ h₁
  have hSpec₂ := hSpec s₂ h₂
  cases hLook : Stream.look ⟨tokens, whole.ending⟩ k with
  | ok token =>
    rw [hLook] at hSpec₁ hSpec₂
    obtain ⟨s₁', hRun₁, h₁'⟩ := hSpec₁
    obtain ⟨s₂', hRun₂, h₂'⟩ := hSpec₂
    have hLeft : rest <:+ whole.tokens := hRest.trans hSuffix
    exact Or.inl ⟨token, rest, s₁', s₂', hRun₁, hRun₂, ⟨h₁', hLeft⟩, ⟨h₂', hLeft⟩, rfl, rfl,
      Stream.shows_of_look hSuffix hLook⟩
  | error fault =>
    rw [hLook] at hSpec₁ hSpec₂
    obtain ⟨s₁', hRun₁⟩ := hSpec₁
    obtain ⟨s₂', hRun₂⟩ := hSpec₂
    exact Or.inr ⟨_, s₁', s₂', hRun₁, hRun₂, .fault (Stream.ending_of_look hLook)⟩

/-- A look ahead shows both the same token and takes nothing. -/
theorem peek (k : Nat) :
    Agree whole tokens
      (fun token rest => rest = tokens ∧ Stream.look ⟨tokens, whole.ending⟩ k = .ok token ∧
        whole.Shows token)
      (Scanner.peek k) (Scanner.peek k) := by
  refine of_look (List.suffix_refl tokens) ?_
  intro scanner hStream
  have hPeek := Scanner.peek_spec k scanner
  rw [hStream] at hPeek
  exact hPeek

/-- The next token is taken by both. -/
theorem next :
    Agree whole tokens
      (fun token rest => rest = tokens.tail ∧ Stream.look ⟨tokens, whole.ending⟩ 0 = .ok token ∧
        whole.Shows token)
      Scanner.next Scanner.next := by
  refine of_look (List.tail_suffix tokens) ?_
  intro scanner hStream
  have hNext := Scanner.next_spec scanner
  rw [hStream] at hNext
  exact hNext

/-- A check finds the same on both sides. -/
theorem check (kind : TokenKind) :
    Agree whole tokens
      (fun found rest => rest = tokens ∧ ∃ token,
        Stream.look ⟨tokens, whole.ending⟩ 0 = .ok token ∧ (token.kind == kind) = found)
      (Parse.check kind) (Parse.check kind) := by
  refine (peek 0).bind ?_
  rintro token rest ⟨rfl, hLook, _⟩
  exact pure ⟨rfl, token, hLook, rfl⟩

/-- A token other than the end of the input is accepted by taking it. -/
theorem accept {kind : TokenKind} (hKind : kind ≠ .eof) :
    Agree whole tokens
      (fun found rest => if found = true then ∃ l, tokens = ⟨kind, l⟩ :: rest else rest = tokens)
      (Parse.accept kind) (Parse.accept kind) := by
  refine (check kind).bind ?_
  rintro found rest ⟨rfl, first, hFirst, hFound⟩
  cases found with
  | false => exact pure rfl
  | true =>
    -- the token seen first is the one that is taken
    cases eq_of_beq hFound
    obtain ⟨after, rfl⟩ := Stream.exists_cons_of_look hFirst hKind
    refine next.bind ?_
    rintro _ _ ⟨rfl, _, _⟩
    exact pure ⟨first.line, rfl⟩

/-- A token that has to be there is taken by both, or stops both. -/
theorem require {kind : TokenKind} {expected : Expectation} (hKind : kind ≠ .eof) :
    Agree whole tokens (fun _ rest => ∃ l, tokens = ⟨kind, l⟩ :: rest)
      (Parse.require kind expected) (Parse.require kind expected) := by
  refine next.bind ?_
  rintro token rest ⟨rfl, hLook, hShows⟩
  by_cases hSame : token.kind = kind
  · rw [if_pos (beq_iff_eq.mpr hSame)]
    cases hSame
    obtain ⟨after, rfl⟩ := Stream.exists_cons_of_look hLook hKind
    exact pure ⟨token.line, rfl⟩
  · rw [if_neg (mt beq_iff_eq.mp hSame)]
    exact unexpected hShows

/-- A name that has to be there is taken by both, or its place stops both. -/
theorem requireName {expected : Expectation} :
    Agree whole tokens (fun x rest => ∃ l, tokens = ⟨.identifier x, l⟩ :: rest)
      (Parse.requireName expected) (Parse.requireName expected) := by
  refine next.bind ?_
  rintro ⟨kind, l⟩ rest ⟨rfl, hLook, hShows⟩
  cases kind with
  | identifier x =>
    obtain ⟨after, rfl⟩ := Stream.exists_cons_of_look hLook (by simp)
    exact pure ⟨l, rfl⟩
  | _ => exact unexpected hShows

/-- The two tokens behind a block are taken by both. -/
theorem blockEnd {expected : Expectation} :
    Agree whole tokens
      (fun _ rest => ∃ l l', tokens = ⟨.keyword .endWord, l⟩ :: ⟨.separator .semicolon, l'⟩ :: rest)
      (Parse.blockEnd expected) (Parse.blockEnd expected) := by
  refine (require (by simp)).bind ?_
  rintro _ rest ⟨l, rfl⟩
  refine (require (by simp)).mono ?_
  rintro _ rest' ⟨l', rfl⟩
  exact ⟨l, l', rfl⟩

end Agree

-- ---------------------------------------------------------------------------
-- Expressions
-- ---------------------------------------------------------------------------

/-- Both computations follow the grammar, and they agree. -/
def Derives (n : Nonterminal) (whole : Stream) (tokens : List Token) (m₁ m₂ : Scan n.Tree) : Prop :=
  Agree whole tokens (fun tree rest => Nonempty (Derivation n tokens tree rest)) m₁ m₂

/-- A target follows the grammar: it is a name with an assignment sign behind
it, or nothing. -/
theorem derives_target {start : Token} (hLook : Stream.look ⟨tokens, whole.ending⟩ 0 = .ok start) :
    Derives .target whole tokens (Parse.target start) (Parse.target start) := by
  obtain ⟨kind, l⟩ := start
  cases kind with
  | identifier x =>
    obtain ⟨rest, rfl⟩ := Stream.exists_cons_of_look hLook (by simp)
    refine (Agree.peek 1).bind ?_
    rintro second _ ⟨rfl, hSecond, _⟩
    by_cases hAssign : second.kind = .assign
    · rw [if_pos (beq_iff_eq.mpr hAssign)]
      -- the sign is the second token, so that both can be taken
      obtain ⟨after, rfl⟩ := Stream.exists_cons_of_look hSecond (by rw [hAssign]; simp)
      refine Agree.next.bind ?_
      rintro _ _ ⟨rfl, _, _⟩
      refine Agree.next.bind ?_
      rintro _ _ ⟨rfl, _, _⟩
      obtain ⟨kind, l'⟩ := second
      cases hAssign
      exact Agree.pure ⟨.target⟩
    · rw [if_neg (mt beq_iff_eq.mp hAssign)]
      exact Agree.pure ⟨.noTarget⟩
  | _ => exact Agree.pure ⟨.noTarget⟩

/-- An expression may end in front of a token that closes it. -/
theorem derives_lookahead {token : Token}
    (hLook : Stream.look ⟨tokens, whole.ending⟩ 0 = .ok token)
    (hCloses : closesExpr token.kind = true) :
    Derives .ending whole tokens (pure ()) (pure ()) := by
  -- such a token is not the end of the input, hence one of the stream
  have hToken : token.kind ≠ .eof := by
    intro hEof
    rw [hEof] at hCloses
    cases hCloses
  obtain ⟨rest, rfl⟩ := Stream.exists_cons_of_look hLook hToken
  exact Agree.pure ⟨.lookahead hCloses⟩

/-- An expression ends with a semicolon, or in front of a token that closes it. -/
theorem derives_ending : Derives .ending whole tokens Parse.expressionEnd Parse.expressionEnd := by
  refine (Agree.accept (by simp)).bind ?_
  rintro found rest hFound
  cases found with
  | true =>
    obtain ⟨l, rfl⟩ := hFound
    exact Agree.pure ⟨.semicolon⟩
  | false =>
    cases hFound
    refine (Agree.peek 0).bind ?_
    rintro token rest ⟨rfl, hLook, hShows⟩
    split
    · next h => exact derives_lookahead hLook (by rw [h]; rfl)
    · next h => exact derives_lookahead hLook (by rw [h]; rfl)
    · next h => exact derives_lookahead hLook (by rw [h]; rfl)
    · exact Agree.unexpected hShows

/-- The rules for expressions, with this much fuel and any other amount that
is enough: for each token four units, and as many more as a rule uses before
the first token is taken. -/
structure ExprsAgree (f : Nat) : Prop where
  factor : ∀ {g : Nat} {whole : Stream} {tokens : List Token},
    4 * tokens.length + 1 ≤ f → 4 * tokens.length + 1 ≤ g →
      Derives .factor whole tokens (Parse.factor f) (Parse.factor g)
  operations : ∀ {g : Nat} {whole : Stream} {tokens : List Token},
    4 * tokens.length + 1 ≤ f → 4 * tokens.length + 1 ≤ g →
      Derives .operations whole tokens (Parse.operations f) (Parse.operations g)
  expr : ∀ {g : Nat} {whole : Stream} {tokens : List Token},
    4 * tokens.length + 2 ≤ f → 4 * tokens.length + 2 ≤ g →
      Derives .expr whole tokens (Parse.expression f) (Parse.expression g)
  moreArguments : ∀ {g : Nat} {whole : Stream} {tokens : List Token},
    4 * tokens.length + 3 ≤ f → 4 * tokens.length + 3 ≤ g →
      Derives .moreArguments whole tokens (Parse.moreArguments f) (Parse.moreArguments g)
  arguments : ∀ {g : Nat} {whole : Stream} {tokens : List Token},
    4 * tokens.length + 4 ≤ f → 4 * tokens.length + 4 ≤ g →
      Derives .arguments whole tokens (Parse.arguments f) (Parse.arguments g)

/-- An operand follows the grammar if the expressions in it do. -/
theorem ExprsAgree.factor_succ {f g : Nat} (ih : ExprsAgree f)
    (hf : 4 * tokens.length ≤ f) (hg : 4 * tokens.length ≤ g) :
    Derives .factor whole tokens (Parse.factor (f + 1)) (Parse.factor (g + 1)) := by
  rw [Parse.factor, Parse.factor]
  refine (Agree.accept (by simp)).bind ?_
  intro found rest hFound
  cases found with
  | true =>
    obtain ⟨l, rfl⟩ := hFound
    -- the parenthesis has been taken, which leaves enough fuel for what it holds
    rw [List.length_cons] at hf hg
    refine (ih.expr (by omega) (by omega)).bind ?_
    rintro inner rest₁ ⟨hInner⟩
    refine (Agree.require (by simp)).bind ?_
    rintro _ rest₂ ⟨l', rfl⟩
    exact Agree.pure ⟨.group hInner⟩
  | false =>
    cases hFound
    refine Agree.next.bind ?_
    rintro ⟨kind, l⟩ _ ⟨rfl, hLook, hShows⟩
    cases kind with
    | identifier x =>
      obtain ⟨rest, rfl⟩ := Stream.exists_cons_of_look hLook (by simp)
      refine (Agree.accept (by simp)).bind ?_
      intro found rest₁ hFound
      cases found with
      | true =>
        obtain ⟨l', hRest⟩ := hFound
        rw [List.tail_cons] at hRest
        subst hRest
        simp only [List.length_cons] at hf hg
        refine (ih.arguments (by omega) (by omega)).bind ?_
        rintro args rest₂ ⟨hArgs⟩
        refine (Agree.require (by simp)).bind ?_
        rintro _ rest₃ ⟨l'', rfl⟩
        exact Agree.pure ⟨.call hArgs⟩
      | false =>
        cases hFound
        exact Agree.pure ⟨.name⟩
    | number v =>
      obtain ⟨rest, rfl⟩ := Stream.exists_cons_of_look hLook (by simp)
      exact Agree.pure ⟨.number⟩
    | text content =>
      obtain ⟨rest, rfl⟩ := Stream.exists_cons_of_look hLook (by simp)
      exact Agree.pure ⟨.text⟩
    | _ => exact Agree.unexpected hShows

/-- Operators follow the grammar, each with its operand. -/
theorem ExprsAgree.operations_succ {f g : Nat} (ih : ExprsAgree f)
    (hf : 4 * tokens.length ≤ f) (hg : 4 * tokens.length ≤ g) :
    Derives .operations whole tokens (Parse.operations (f + 1)) (Parse.operations (g + 1)) := by
  rw [Parse.operations, Parse.operations]
  refine (Agree.peek 0).bind ?_
  rintro ⟨kind, l⟩ tokens ⟨rfl, hLook, _⟩
  cases kind with
  | operator op =>
    obtain ⟨rest, rfl⟩ := Stream.exists_cons_of_look hLook (by simp)
    rw [List.length_cons] at hf hg
    refine Agree.next.bind ?_
    rintro _ _ ⟨rfl, _, _⟩
    refine (ih.factor (by omega) (by omega)).bind ?_
    rintro operand rest₁ ⟨hOperand⟩
    have hLength := hOperand.length_rest
    rw [Nonterminal.least] at hLength
    refine (ih.operations (by omega) (by omega)).bind ?_
    rintro ops rest₂ ⟨hOps⟩
    exact Agree.pure ⟨.operation hOperand hOps⟩
  | assign =>
    refine Agree.next.bind ?_
    rintro token _ ⟨rfl, _, hShows⟩
    exact Agree.unexpected hShows
  | _ => exact Agree.pure ⟨.noOperation⟩

/-- An expression follows the grammar: its target, its operands and its end. -/
theorem ExprsAgree.expr_succ {f g : Nat} (ih : ExprsAgree f)
    (hf : 4 * tokens.length + 1 ≤ f) (hg : 4 * tokens.length + 1 ≤ g) :
    Derives .expr whole tokens (Parse.expression (f + 1)) (Parse.expression (g + 1)) := by
  rw [Parse.expression, Parse.expression]
  refine (Agree.peek 0).bind ?_
  rintro start _ ⟨rfl, hLook, _⟩
  refine (derives_target hLook).bind ?_
  rintro target rest₁ ⟨hTarget⟩
  have hLength₁ := hTarget.length_rest
  refine (ih.factor (by omega) (by omega)).bind ?_
  rintro first rest₂ ⟨hFirst⟩
  have hLength₂ := hFirst.length_rest
  rw [Nonterminal.least] at hLength₂
  refine (ih.operations (by omega) (by omega)).bind ?_
  rintro ops rest₃ ⟨hOps⟩
  refine derives_ending.bind ?_
  rintro _ rest ⟨hEnding⟩
  -- the operand has taken a token, so there was one to start with
  obtain ⟨after, rfl⟩ | ⟨rfl, _⟩ := Stream.look_zero hLook
  · exact Agree.pure ⟨.expr hTarget hFirst hOps hEnding⟩
  · rw [List.length_nil] at hLength₁
    omega

/-- The arguments behind the first follow the grammar. -/
theorem ExprsAgree.moreArguments_succ {f g : Nat} (ih : ExprsAgree f)
    (hf : 4 * tokens.length + 2 ≤ f) (hg : 4 * tokens.length + 2 ≤ g) :
    Derives .moreArguments whole tokens (Parse.moreArguments (f + 1))
      (Parse.moreArguments (g + 1)) := by
  rw [Parse.moreArguments, Parse.moreArguments]
  refine (ih.expr hf hg).bind ?_
  rintro arg rest ⟨hArg⟩
  have hLength := hArg.length_rest
  refine (Agree.accept (by simp)).bind ?_
  intro found rest₁ hFound
  cases found with
  | true =>
    obtain ⟨l, rfl⟩ := hFound
    rw [List.length_cons] at hLength
    refine (ih.moreArguments (by omega) (by omega)).bind ?_
    rintro args rest₂ ⟨hArgs⟩
    exact Agree.pure ⟨.argument hArg hArgs⟩
  | false =>
    cases hFound
    exact Agree.pure ⟨.lastArgument hArg⟩

/-- The arguments of a call follow the grammar: there may be none. -/
theorem ExprsAgree.arguments_succ {f g : Nat} (ih : ExprsAgree f)
    (hf : 4 * tokens.length + 3 ≤ f) (hg : 4 * tokens.length + 3 ≤ g) :
    Derives .arguments whole tokens (Parse.arguments (f + 1)) (Parse.arguments (g + 1)) := by
  rw [Parse.arguments, Parse.arguments]
  refine (Agree.check _).bind ?_
  rintro found _ ⟨rfl, _⟩
  cases found with
  | true => exact Agree.pure ⟨.noArgument⟩
  | false => exact (ih.moreArguments hf hg).mono fun _ _ ⟨hArgs⟩ => ⟨.someArguments hArgs⟩

/-- **All rules for expressions follow the grammar and do not depend on how
much fuel is left over.** -/
theorem exprsAgree (f : Nat) : ExprsAgree f := by
  -- without fuel there are no tokens for which it would be enough
  induction f with
  | zero => constructor <;> intros <;> omega
  | succ f ih =>
    constructor
    all_goals
      intro g whole tokens hf hg
      obtain ⟨g, rfl⟩ : ∃ g', g = g' + 1 := ⟨g - 1, by omega⟩
    · exact ih.factor_succ (by omega) (by omega)
    · exact ih.operations_succ (by omega) (by omega)
    · exact ih.expr_succ (by omega) (by omega)
    · exact ih.moreArguments_succ (by omega) (by omega)
    · exact ih.arguments_succ (by omega) (by omega)

-- ---------------------------------------------------------------------------
-- Statements
-- ---------------------------------------------------------------------------

/-- Names of parameters follow the grammar. -/
theorem derives_names {f g : Nat} (hf : 4 * tokens.length + 1 ≤ f)
    (hg : 4 * tokens.length + 1 ≤ g) :
    Derives .names whole tokens (Parse.moreParameters f) (Parse.moreParameters g) := by
  induction f generalizing g tokens with
  | zero => omega
  | succ f ih =>
    obtain ⟨g, rfl⟩ : ∃ g', g = g' + 1 := ⟨g - 1, by omega⟩
    rw [Parse.moreParameters, Parse.moreParameters]
    refine Agree.requireName.bind ?_
    rintro x rest ⟨l, rfl⟩
    rw [List.length_cons] at hf hg
    refine (Agree.accept (by simp)).bind ?_
    intro found rest₁ hFound
    cases found with
    | true =>
      obtain ⟨l', rfl⟩ := hFound
      rw [List.length_cons] at hf hg
      refine (ih (by omega) (by omega)).bind ?_
      rintro xs rest₂ ⟨hNames⟩
      exact Agree.pure ⟨.param hNames⟩
    | false =>
      cases hFound
      exact Agree.pure ⟨.lastName⟩

/-- Parameters follow the grammar: there may be none between the parentheses. -/
theorem derives_parameters {f g : Nat} (hf : 4 * tokens.length ≤ f)
    (hg : 4 * tokens.length ≤ g) :
    Derives .parameters whole tokens (Parse.parameters f) (Parse.parameters g) := by
  rw [Parse.parameters, Parse.parameters]
  refine (Agree.require (by simp)).bind ?_
  rintro _ rest ⟨l, rfl⟩
  rw [List.length_cons] at hf hg
  refine (Agree.check _).bind ?_
  rintro found rest ⟨rfl, _⟩
  cases found with
  | true =>
    refine (Agree.require (by simp)).bind ?_
    rintro _ rest₁ ⟨l', rfl⟩
    exact Agree.pure ⟨.noParameters⟩
  | false =>
    refine (derives_names (by omega) (by omega)).bind ?_
    rintro xs rest₁ ⟨hNames⟩
    refine (Agree.require (by simp)).bind ?_
    rintro _ rest₂ ⟨l', rfl⟩
    exact Agree.pure ⟨.parameters hNames⟩

/-- The rules for statements, like those for expressions. -/
structure StatementsAgree (f : Nat) : Prop where
  alternative : ∀ {g : Nat} {whole : Stream} {tokens : List Token},
    4 * tokens.length + 1 ≤ f → 4 * tokens.length + 1 ≤ g →
      Derives .alternative whole tokens (Parse.elseBlock f) (Parse.elseBlock g)
  statement : ∀ {outermost : Bool} {start : Token} {g : Nat} {whole : Stream} {tokens : List Token},
    Stream.look ⟨tokens, whole.ending⟩ 0 = .ok start → whole.Shows start →
    4 * tokens.length + 3 ≤ f → 4 * tokens.length + 3 ≤ g →
      Derives (.statement outermost) whole tokens (Parse.statement outermost start f)
        (Parse.statement outermost start g)
  block : ∀ {outermost : Bool} {g : Nat} {whole : Stream} {tokens : List Token},
    4 * tokens.length + 4 ≤ f → 4 * tokens.length + 4 ≤ g →
      Derives (.block outermost) whole tokens (Parse.block outermost f) (Parse.block outermost g)

/-- A second block follows the grammar, or is missing. -/
theorem StatementsAgree.alternative_succ {f g : Nat} (ih : StatementsAgree f)
    (hf : 4 * tokens.length ≤ f) (hg : 4 * tokens.length ≤ g) :
    Derives .alternative whole tokens (Parse.elseBlock (f + 1)) (Parse.elseBlock (g + 1)) := by
  rw [Parse.elseBlock, Parse.elseBlock]
  refine (Agree.accept (by simp)).bind ?_
  intro found rest hFound
  cases found with
  | true =>
    obtain ⟨l, rfl⟩ := hFound
    rw [List.length_cons] at hf hg
    refine (ih.block (by omega) (by omega)).bind ?_
    rintro items rest₁ ⟨hItems⟩
    exact Agree.pure ⟨.otherwise hItems⟩
  | false =>
    cases hFound
    exact Agree.pure ⟨.noElse⟩

/-- A block follows the grammar: it ends before a keyword that ends blocks, or
with the input. -/
theorem StatementsAgree.block_succ {outermost : Bool} {f g : Nat} (ih : StatementsAgree f)
    (hf : 4 * tokens.length + 3 ≤ f) (hg : 4 * tokens.length + 3 ≤ g) :
    Derives (.block outermost) whole tokens (Parse.block outermost (f + 1))
      (Parse.block outermost (g + 1)) := by
  rw [Parse.block, Parse.block]
  refine (Agree.peek 0).bind ?_
  rintro start tokens ⟨rfl, hLook, hShows⟩
  by_cases hEnds : Parse.endsBlock start.kind = true
  · rw [if_pos hEnds, if_pos hEnds]
    exact Agree.pure ⟨.blockEnd⟩
  · rw [if_neg hEnds, if_neg hEnds]
    refine (ih.statement hLook hShows hf hg).bind ?_
    rintro first rest ⟨hFirst⟩
    -- the statement has taken a token, so that the fuel for the rest is enough
    have hLength := hFirst.length_rest
    rw [Nonterminal.least] at hLength
    refine (ih.block (by omega) (by omega)).bind ?_
    rintro items rest₁ ⟨hItems⟩
    exact Agree.pure ⟨.item hFirst hItems⟩

/-- A loop follows the grammar. -/
theorem StatementsAgree.loop_succ {outermost : Bool} {f g l : Nat} (ih : StatementsAgree f)
    (hf : 4 * tokens.length + 6 ≤ f) (hg : 4 * tokens.length + 6 ≤ g) :
    Derives (.statement outermost) whole (⟨.keyword .whileWord, l⟩ :: tokens)
      (Parse.statement outermost ⟨.keyword .whileWord, l⟩ (f + 1))
      (Parse.statement outermost ⟨.keyword .whileWord, l⟩ (g + 1)) := by
  rw [Parse.statement, Parse.statement]
  refine Agree.next.bind ?_
  rintro _ _ ⟨rfl, _, _⟩
  refine ((exprsAgree f).expr (by omega) (by omega)).bind ?_
  rintro condition rest₁ ⟨hCondition⟩
  have hLength₁ := hCondition.length_rest
  refine (Agree.require (by simp)).bind ?_
  rintro _ rest₂ ⟨l₁, rfl⟩
  rw [List.length_cons] at hLength₁
  refine (ih.block (by omega) (by omega)).bind ?_
  rintro body rest₃ ⟨hBody⟩
  refine Agree.blockEnd.bind ?_
  rintro _ rest₄ ⟨l₂, l₃, rfl⟩
  exact Agree.pure ⟨.loop hCondition hBody⟩

/-- An `if` follows the grammar. -/
theorem StatementsAgree.branch_succ {outermost : Bool} {f g l : Nat} (ih : StatementsAgree f)
    (hf : 4 * tokens.length + 6 ≤ f) (hg : 4 * tokens.length + 6 ≤ g) :
    Derives (.statement outermost) whole (⟨.keyword .ifWord, l⟩ :: tokens)
      (Parse.statement outermost ⟨.keyword .ifWord, l⟩ (f + 1))
      (Parse.statement outermost ⟨.keyword .ifWord, l⟩ (g + 1)) := by
  rw [Parse.statement, Parse.statement]
  refine Agree.next.bind ?_
  rintro _ _ ⟨rfl, _, _⟩
  refine ((exprsAgree f).expr (by omega) (by omega)).bind ?_
  rintro condition rest₁ ⟨hCondition⟩
  have hLength₁ := hCondition.length_rest
  refine (Agree.require (by simp)).bind ?_
  rintro _ rest₂ ⟨l₁, rfl⟩
  rw [List.length_cons] at hLength₁
  refine (ih.block (by omega) (by omega)).bind ?_
  rintro body rest₃ ⟨hBody⟩
  have hLength₂ := hBody.length_rest
  refine (ih.alternative (by omega) (by omega)).bind ?_
  rintro other rest₄ ⟨hOther⟩
  refine Agree.blockEnd.bind ?_
  rintro _ rest₅ ⟨l₂, l₃, rfl⟩
  exact Agree.pure ⟨.branch hCondition hBody hOther⟩

/-- A definition follows the grammar. -/
theorem StatementsAgree.define_succ {f g l : Nat} (ih : StatementsAgree f)
    (hf : 4 * tokens.length + 6 ≤ f) (hg : 4 * tokens.length + 6 ≤ g) :
    Derives (.statement true) whole (⟨.keyword .defWord, l⟩ :: tokens)
      (Parse.statement true ⟨.keyword .defWord, l⟩ (f + 1))
      (Parse.statement true ⟨.keyword .defWord, l⟩ (g + 1)) := by
  rw [Parse.statement, Parse.statement]
  refine Agree.next.bind ?_
  rintro _ _ ⟨rfl, _, _⟩
  refine Agree.requireName.bind ?_
  rintro x rest₁ ⟨l₁, rfl⟩
  rw [List.length_cons] at hf hg
  refine (derives_parameters (by omega) (by omega)).bind ?_
  rintro params rest₂ ⟨hParams⟩
  have hLength := hParams.length_rest
  refine (Agree.require (by simp)).bind ?_
  rintro _ rest₃ ⟨l₂, rfl⟩
  rw [List.length_cons] at hLength
  refine (ih.block (by omega) (by omega)).bind ?_
  rintro body rest₄ ⟨hBody⟩
  refine Agree.blockEnd.bind ?_
  rintro _ rest₅ ⟨l₃, l₄, rfl⟩
  exact Agree.pure ⟨.define hParams hBody⟩

/-- A statement follows the grammar, whatever it starts with. -/
theorem StatementsAgree.statement_succ {outermost : Bool} {start : Token} {f g : Nat}
    (ih : StatementsAgree f) (hLook : Stream.look ⟨tokens, whole.ending⟩ 0 = .ok start)
    (hShows : whole.Shows start) (hf : 4 * tokens.length + 2 ≤ f)
    (hg : 4 * tokens.length + 2 ≤ g) :
    Derives (.statement outermost) whole tokens (Parse.statement outermost start (f + 1))
      (Parse.statement outermost start (g + 1)) := by
  have hPlain : Derives (.statement outermost) whole tokens
      (Parse.expression f >>= fun value => pure (.expr value))
      (Parse.expression g >>= fun value => pure (.expr value)) := by
    refine ((exprsAgree f).expr hf hg).bind ?_
    rintro value rest ⟨hValue⟩
    exact Agree.pure ⟨.plain hValue⟩
  obtain ⟨kind, l⟩ := start
  cases kind with
  | keyword word =>
    obtain ⟨rest, rfl⟩ := Stream.exists_cons_of_look hLook (by simp)
    rw [List.length_cons] at hf hg
    cases word with
    | whileWord => exact ih.loop_succ (by omega) (by omega)
    | ifWord => exact ih.branch_succ (by omega) (by omega)
    | returnWord =>
      rw [Parse.statement, Parse.statement]
      refine Agree.next.bind ?_
      rintro _ _ ⟨rfl, _, _⟩
      refine ((exprsAgree f).expr (by omega) (by omega)).bind ?_
      rintro result rest₁ ⟨hResult⟩
      exact Agree.pure ⟨.ret hResult⟩
    | defWord =>
      -- a definition within a block stops both
      cases outermost with
      | true => exact ih.define_succ (by omega) (by omega)
      | false =>
        rw [Parse.statement, Parse.statement]
        exact Agree.unexpected hShows
    | _ =>
      rw [Parse.statement, Parse.statement]
      exact hPlain
  | _ =>
    rw [Parse.statement, Parse.statement]
    exact hPlain

/-- **All rules for statements follow the grammar and do not depend on how
much fuel is left over.** -/
theorem statementsAgree (f : Nat) : StatementsAgree f := by
  induction f with
  | zero => constructor <;> intros <;> omega
  | succ f ih =>
    constructor
    · intro g whole tokens hf hg
      obtain ⟨g, rfl⟩ : ∃ g', g = g' + 1 := ⟨g - 1, by omega⟩
      exact ih.alternative_succ (by omega) (by omega)
    · intro outermost start g whole tokens hLook hShows hf hg
      obtain ⟨g, rfl⟩ : ∃ g', g = g' + 1 := ⟨g - 1, by omega⟩
      exact ih.statement_succ hLook hShows (by omega) (by omega)
    · intro outermost g whole tokens hf hg
      obtain ⟨g, rfl⟩ : ∃ g', g = g' + 1 := ⟨g - 1, by omega⟩
      exact ih.block_succ (by omega) (by omega)

-- ---------------------------------------------------------------------------
-- Whole programs
-- ---------------------------------------------------------------------------

/-- A program ends in front of an end of the input, be it that of the stream or
a token. -/
theorem agree_program_to_eof {f g : Nat} (hf : 4 * tokens.length + 4 ≤ f)
    (hg : 4 * tokens.length + 4 ≤ g) :
    Agree whole tokens
      (fun ast rest => Nonempty (Derivation (.block true) tokens ast rest) ∧
        rest <:+ whole.tokens ∧
        ∃ token, Stream.look ⟨rest, whole.ending⟩ 0 = .ok token ∧ token.isEof = true)
      (Parse.program f) (Parse.program g) := by
  rw [Parse.program, Parse.program]
  refine ((statementsAgree f).block hf hg).and_suffix.bind ?_
  rintro items rest ⟨hItems, hSuffix⟩
  refine (Agree.peek 0).bind ?_
  rintro token rest ⟨rfl, hLook, hShows⟩
  by_cases hEof : token.isEof = true
  · rw [if_pos hEof]
    exact Agree.pure ⟨hItems, hSuffix, token, hLook, hEof⟩
  · rw [if_neg hEof]
    exact Agree.unexpected hShows

/-- A program takes all tokens of a stream that has no fault. -/
theorem agree_program {f g : Nat} (hTokens : ∀ token ∈ whole.tokens, token.isEof = false)
    (hf : 4 * tokens.length + 4 ≤ f) (hg : 4 * tokens.length + 4 ≤ g) :
    Agree whole tokens
      (fun ast _ => (∃ line, whole.ending = .ok line) ∧
        Nonempty (Derivation (.block true) tokens ast []))
      (Parse.program f) (Parse.program g) := by
  refine (agree_program_to_eof hf hg).mono ?_
  rintro ast rest ⟨hItems, hSuffix, token, hLook, hEof⟩
  -- no token of the stream is an end of input, hence nothing of it is left
  obtain ⟨after, rfl⟩ | ⟨rfl, line, hEnding, _⟩ := Stream.look_zero hLook
  · rw [hTokens token (hSuffix.mem List.mem_cons_self)] at hEof
    cases hEof
  · exact ⟨⟨line, hEnding⟩, hItems⟩

/-- With enough fuel for the tokens, a parse does not depend on the amount and
does not use it up. -/
theorem outcome_program {line f : Nat} (hf : 4 * tokens.length + 4 ≤ f) :
    outcome ((Parse.program f : Scan Program) (.ofTokens tokens line)) =
        outcome (Scanner.ofTokens tokens line).parse ∧
      outcome (Scanner.ofTokens tokens line).parse ≠ .error .outOfFuel := by
  have hSize : (Scanner.ofTokens tokens line).size = tokens.length := rfl
  rw [Scanner.parse, hSize, EStateM.run]
  have hStream := Scanner.stream_ofTokens tokens line
  have hAgree : Agree ⟨tokens, .ok line⟩ tokens _ (Parse.program f)
      (Parse.program (4 * tokens.length + 8)) :=
    agree_program_to_eof hf (by omega)
  rcases hAgree _ _ ⟨hStream, List.suffix_refl _⟩ ⟨hStream, List.suffix_refl _⟩ with
    ⟨ast, _, _, _, hRun, hRun', _, _, _⟩ | ⟨stop, _, _, hRun, hRun', hStop⟩
  · rw [hRun, hRun']
    exact ⟨rfl, nofun⟩
  · rw [hRun, hRun']
    refine ⟨rfl, ?_⟩
    -- what stops a parse of these tokens is a token, never the fuel
    rintro ⟨⟩
    cases hStop

/-- **A parse depends on nothing but the stream.** It succeeds only on a
stream without a fault, and it does not run out of fuel. -/
theorem agree_parse {s₁ s₂ : Scanner} (hStream : s₁.stream = s₂.stream)
    (hTokens : ∀ token ∈ s₁.stream.tokens, token.isEof = false) :
    (∃ ast line, outcome s₁.parse = .ok ast ∧ outcome s₂.parse = .ok ast ∧
      s₁.stream.ending = .ok line ∧ Nonempty (Derivation (.block true) s₁.stream.tokens ast [])) ∨
    (∃ stop, outcome s₁.parse = .error stop ∧ outcome s₂.parse = .error stop ∧
      s₁.stream.Stops stop) := by
  have hSize₁ := Scanner.length_stream_le s₁
  have hSize₂ := Scanner.length_stream_le s₂
  rw [← hStream] at hSize₂
  have hAgree : Agree s₁.stream s₁.stream.tokens _ (Parse.program (4 * s₁.size + 8))
      (Parse.program (4 * s₂.size + 8)) :=
    agree_program hTokens (by omega) (by omega)
  have hLeft₁ : s₁.Left s₁.stream s₁.stream.tokens := ⟨rfl, List.suffix_refl _⟩
  have hLeft₂ : s₂.Left s₁.stream s₁.stream.tokens := ⟨hStream.symm, List.suffix_refl _⟩
  rcases hAgree s₁ s₂ hLeft₁ hLeft₂ with
    ⟨ast, rest, s₁', s₂', hRun₁, hRun₂, _, _, ⟨line, hEnding⟩, hTree⟩ |
    ⟨stop, s₁', s₂', hRun₁, hRun₂, hStop⟩
  · exact Or.inl ⟨ast, line, congrArg outcome hRun₁, congrArg outcome hRun₂, hEnding, hTree⟩
  · exact Or.inr ⟨stop, congrArg outcome hRun₁, congrArg outcome hRun₂, hStop⟩

/-- Where a stream has a fault, it shows none but its own tokens. -/
theorem Stream.Shows.mem {token : Token} {fault : Fault} (h : whole.Shows token)
    (hEnding : whole.ending = .error fault) : token ∈ whole.tokens := by
  obtain ⟨k, hk⟩ := h
  rw [look] at hk
  split at hk
  · next hToken =>
    cases hk
    exact List.mem_of_getElem? hToken
  · rw [hEnding] at hk
    cases hk

/-- **Parsing a text line by line is parsing its tokens.** If the text has no
fault, the parse ends as that of the finished list of tokens does. If it has
one, the parse ends with it or at a token on an earlier line. -/
theorem parse_lazily (source : String) :
    match tokenize source with
    | .ok all _ =>
      ∃ tokens line, all = tokens ++ [⟨.eof, line⟩] ∧ (∀ token ∈ tokens, token.isEof = false) ∧
        outcome (Program.parse source) = outcome (Scanner.ofTokens tokens line).parse ∧
        outcome (Program.parse source) ≠ .error .outOfFuel
    | .error stop _ =>
      ∃ cause line, stop = .fault (.at cause line) ∧ cause.kind = .lexical ∧
        (outcome (Program.parse source) = .error stop ∨
          ∃ token expected,
            outcome (Program.parse source) = .error (.fault (.unexpected token expected)) ∧
            token.isEof = false ∧ token.line < line) := by
  have hSpec := Scanner.tokenize_spec (.ofSource source)
  have hTokens : ∀ token ∈ (Scanner.ofSource source).stream.tokens, token.isEof = false :=
    Scanner.ahead_isEof 0 (Text.lines source.toList)
  cases hEnding : (Scanner.ofSource source).stream.ending with
  | ok line =>
    rw [hEnding] at hSpec
    obtain ⟨after, hRun⟩ := hSpec
    rw [tokenize, show Scanner.tokenize.run (.ofSource source) = _ from hRun]
    refine ⟨_, line, rfl, hTokens, ?_⟩
    have hStream : (Scanner.ofSource source).stream =
        (Scanner.ofTokens (Scanner.ofSource source).stream.tokens line).stream := by
      rw [Scanner.stream_ofTokens, ← hEnding]
    -- the finished list is a stream without a fault, on which neither parse runs out of fuel
    rcases agree_parse hStream hTokens with
      ⟨ast, _, hParse, hParse', _, _⟩ | ⟨stop, hParse, hParse', hStop⟩
    · rw [Program.parse, hParse, hParse']
      exact ⟨rfl, nofun⟩
    · rw [Program.parse, hParse, hParse']
      refine ⟨rfl, ?_⟩
      rintro ⟨⟩
      cases hStop
  | error fault =>
    rw [hEnding] at hSpec
    obtain ⟨after, hRun⟩ := hSpec
    rw [tokenize, show Scanner.tokenize.run (.ofSource source) = _ from hRun]
    obtain ⟨cause, line, rfl, hCause, _, hLines⟩ := Scanner.ahead_fault hEnding
    refine ⟨cause, line, rfl, hCause, ?_⟩
    rcases agree_parse rfl hTokens with
      ⟨_, _, _, _, hEnding', _⟩ | ⟨stop, hParse, _, hStop⟩
    · rw [hEnding] at hEnding'
      cases hEnding'
    · rw [Program.parse, hParse]
      -- it stops at the fault, or before at a token that was there to be seen
      cases hStop with
      | fault hFault =>
        rw [hEnding] at hFault
        cases hFault
        exact Or.inl rfl
      | unexpected hShows =>
        have hMem := hShows.mem hEnding
        exact Or.inr ⟨_, _, rfl, hTokens _ hMem, hLines _ hMem⟩

end Scriptlet
