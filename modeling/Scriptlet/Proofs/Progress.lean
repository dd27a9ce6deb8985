import Scriptlet.Proofs.Dialogue

/-!
# Scriptlet — the parser makes progress

The loops of the parser are rules that enter themselves again, and nothing
counts how often. What bounds them is the *height* of an entry: nine times the
tokens that are left, plus the rank of the rule among those that may be
entered one after the other without taking a token. From the first entry to
the last the height falls (`Advances`), be the tokens a program or not.

* `exprsAdvance`, `statementsAdvance` — the rules for expressions and for
  statements;
* `parser_makes_progress` — what every rule takes, and how often a whole parse
  enters rules and asks for tokens.
-/

namespace Scriptlet

-- ---------------------------------------------------------------------------
-- Heights
-- ---------------------------------------------------------------------------

/-- A rule is entered in front of the same tokens only after rules of higher
rank. -/
def Nonterminal.rank : Nonterminal → Nat
  | operations => 8
  | block _ => 7
  | alternative => 6
  | statement _ => 5
  | arguments => 4
  | moreArguments => 3
  | expr => 2
  | factor | names => 1
  | target | ending | parameters | program => 0

/-- How high above the end of the parse an entry is. -/
def RuleEntry.height (entry : RuleEntry) : Nat :=
  9 * entry.left + entry.rule.rank

/-- The heights fall from the first level, and down to the second. -/
def Descends (level : Nat) : List Nat → Nat → Prop
  | [], last => last = level
  | height :: heights, last => height < level ∧ Descends height heights last

namespace Descends

variable {level mid last : Nat} {heights heights' : List Nat}

/-- Heights that fall to a level may fall further from there. -/
theorem trans (h : Descends level heights mid) (h' : Descends mid heights' last) :
    Descends level (heights ++ heights') last := by
  -- on the first heights, each of which stays below the level before it
  induction heights generalizing level with
  | nil =>
    cases h
    exact h'
  | cons height heights ih => exact ⟨h.1, ih h.2⟩

/-- Every height is below the level, and every later one below it. -/
theorem pairwise (h : Descends level heights last) :
    (∀ height ∈ heights, height < level) ∧ heights.Pairwise (· > ·) := by
  induction heights generalizing level with
  | nil => exact ⟨List.forall_mem_nil _, .nil⟩
  | cons height heights ih =>
    obtain ⟨hBelow, hPairwise⟩ := ih h.2
    refine ⟨List.forall_mem_cons.mpr ⟨h.1, fun x hx => Nat.lt_trans (hBelow x hx) h.1⟩, ?_⟩
    exact List.pairwise_cons.mpr ⟨hBelow, hPairwise⟩

/-- There are at most as many entries as the first level is high, as each is
lower than the last. -/
theorem length_le (h : Descends level heights last) : heights.length ≤ level := by
  induction heights generalizing level with
  | nil => exact Nat.zero_le _
  | cons height heights ih => exact Nat.le_trans (Nat.succ_le_succ (ih h.2)) h.1

end Descends

-- ---------------------------------------------------------------------------
-- Dialogues that advance
-- ---------------------------------------------------------------------------

namespace Dialogue

variable {α β : Type}

/-- How often a token is to be taken. -/
def draws (d : Dialogue α) (scanner : Scanner) : Nat :=
  (d.requests scanner).count .next

/-- The heights of the entries. -/
def heights (d : Dialogue α) (scanner : Scanner) : List Nat :=
  (d.entries scanner).map RuleEntry.height

end Dialogue

/-- In front of these tokens, the dialogue ends with a value and has taken
some of them, none of which is an end of input, with one request for each; or
it stops after at most one request more than there are tokens. Either way the
entries descend from the level. Of a value, what is left and the level that is
reached, `post` holds. -/
def Advances {α : Type} (line : Nat) (tokens : List Token) (level : Nat) (d : Dialogue α)
    (post : α → List Token → Nat → Prop) : Prop :=
  let scanner := Scanner.ofTokens tokens line
  (∃ a taken rest last, d.run scanner = .ok a (.ofTokens rest line) ∧ tokens = taken ++ rest ∧
    (∀ token ∈ taken, token.isEof = false) ∧ d.draws scanner = taken.length ∧
    Descends level (d.heights scanner) last ∧ post a rest last) ∨
  (∃ reason later last, d.run scanner = .error reason later ∧
    d.draws scanner ≤ tokens.length + 1 ∧ Descends level (d.heights scanner) last)

namespace Advances

open Dialogue

variable {α β : Type} {line level : Nat} {tokens : List Token} {d : Dialogue α}
  {post : α → List Token → Nat → Prop} {post' : β → List Token → Nat → Prop}

theorem pure {a : α} (h : post a tokens level) :
    Advances line tokens level (Pure.pure a) post :=
  Or.inl ⟨a, [], tokens, level, rfl, rfl, List.forall_mem_nil _, rfl, rfl, h⟩

theorem stop {reason : Stop} : Advances line tokens level (.stop reason) post :=
  Or.inr ⟨reason, _, level, rfl, Nat.zero_le _, rfl⟩

/-- What holds of the end of a dialogue may be weakened. -/
theorem mono {post₂ : α → List Token → Nat → Prop} (h : Advances line tokens level d post)
    (hPost : ∀ a rest last, post a rest last → post₂ a rest last) :
    Advances line tokens level d post₂ := by
  rcases h with ⟨a, taken, rest, last, hRun, hTokens, hEof, hDraws, hHeights, ha⟩ | hStop
  · exact Or.inl ⟨a, taken, rest, last, hRun, hTokens, hEof, hDraws, hHeights,
      hPost a rest last ha⟩
  · exact Or.inr hStop

/-- **One dialogue after the other advances if both do.** -/
theorem bind {next : α → Dialogue β} (h : Advances line tokens level d post)
    (hNext : ∀ a rest last, post a rest last → Advances line rest last (next a) post') :
    Advances line tokens level (d >>= next) post' := by
  -- the first dialogue ends with a value and the second goes on from there, or it stops and is
  -- all there is
  rcases h with ⟨a, taken, rest, mid, hRun, rfl, hEof, hDraws, hHeights, ha⟩ |
    ⟨reason, later, last, hRun, hDraws, hHeights⟩
  · have hBoth : (d >>= next).run (.ofTokens (taken ++ rest) line) =
        (next a).run (.ofTokens rest line) := by
      rw [run_bind, bind_of_ok hRun]
    have hAllDraws : (d >>= next).draws (.ofTokens (taken ++ rest) line) =
        taken.length + (next a).draws (.ofTokens rest line) := by
      rw [draws, requests, trace_bind_of_ok hRun, List.filterMap_append, List.count_append,
        ← requests, ← requests, ← draws, ← draws, hDraws]
    have hAllHeights : (d >>= next).heights (.ofTokens (taken ++ rest) line) =
        d.heights (.ofTokens (taken ++ rest) line) ++
          (next a).heights (.ofTokens rest line) := by
      rw [heights, entries, trace_bind_of_ok hRun, List.filterMap_append, List.map_append,
        ← entries, ← entries, ← heights, ← heights]
    rcases hNext a rest mid ha with
      ⟨b, taken', rest', last, hRun', rfl, hEof', hDraws', hHeights', hb⟩ |
      ⟨reason, later, last, hRun', hDraws', hHeights'⟩
    -- both end with a value
    · refine Or.inl ⟨b, taken ++ taken', rest', last, hBoth.trans hRun', ?_, ?_, ?_, ?_, hb⟩
      · rw [List.append_assoc]
      · exact List.forall_mem_append.mpr ⟨hEof, hEof'⟩
      · rw [hAllDraws, hDraws', List.length_append]
      · rw [hAllHeights]
        exact hHeights.trans hHeights'
    -- only the second stops: its one request too many is the only one
    · refine Or.inr ⟨reason, later, last, hBoth.trans hRun', ?_, ?_⟩
      · rw [hAllDraws, List.length_append]
        omega
      · rw [hAllHeights]
        exact hHeights.trans hHeights'
  · refine Or.inr ⟨reason, later, last, ?_, ?_, ?_⟩
    · rw [run_bind, bind_of_error hRun]
    · rw [draws, requests, trace_bind_of_error hRun]
      exact hDraws
    · rw [heights, entries, trace_bind_of_error hRun]
      exact hHeights

/-- A rule may be entered below the level. -/
theorem enter {rule : Nonterminal} (rank : Nat) (hRank : rule.rank = rank)
    (hLevel : 9 * tokens.length + rank < level)
    (h : Advances line tokens (9 * tokens.length + rank) d post) :
    Advances line tokens level (TokenSource.enter rule d) post := by
  -- the entry stands in front of what the rule itself enters
  have hTrace : (TokenSource.enter rule d).trace (.ofTokens tokens line) =
      .inr ⟨rule, tokens.length⟩ :: d.trace (.ofTokens tokens line) := by
    rw [trace_enter, Scanner.stream_ofTokens]
  have hHeights : (TokenSource.enter rule d).heights (.ofTokens tokens line) =
      (9 * tokens.length + rank) :: d.heights (.ofTokens tokens line) := by
    rw [heights, entries, hTrace, ← hRank]
    rfl
  rcases h with ⟨a, taken, rest, last, hRun, hTokens, hEof, hDraws, hDescends, ha⟩ |
    ⟨reason, later, last, hRun, hDraws, hDescends⟩
  · refine Or.inl ⟨a, taken, rest, last, hRun, hTokens, hEof, hDraws, ?_, ha⟩
    rw [hHeights]
    exact ⟨hLevel, hDescends⟩
  · refine Or.inr ⟨reason, later, last, hRun, hDraws, ?_⟩
    rw [hHeights]
    exact ⟨hLevel, hDescends⟩

/-- What a dialogue takes when it ends with a value. -/
theorem of_run_ok {a : α} {later : Scanner} (h : Advances line tokens level d post)
    (hRun : d.run (.ofTokens tokens line) = .ok a later) :
    ∃ taken rest last, tokens = taken ++ rest ∧ later = .ofTokens rest line ∧
      (∀ token ∈ taken, token.isEof = false) ∧ post a rest last := by
  rcases h with ⟨a', taken, rest, last, hRun', hTokens, hEof, _, _, ha⟩ | ⟨_, _, _, hRun', _, _⟩
  · cases hRun.symm.trans hRun'
    exact ⟨taken, rest, last, hTokens, rfl, hEof, ha⟩
  · cases hRun.symm.trans hRun'

/-- What bounds a dialogue however it ends. -/
theorem bounds (h : Advances line tokens level d post) :
    d.draws (.ofTokens tokens line) ≤ tokens.length + 1 ∧
      ∃ last, Descends level (d.heights (.ofTokens tokens line)) last := by
  rcases h with ⟨_, taken, rest, last, _, rfl, _, hDraws, hHeights, _⟩ |
    ⟨_, _, last, _, hDraws, hHeights⟩
  · rw [hDraws, List.length_append]
    exact ⟨by omega, last, hHeights⟩
  · exact ⟨hDraws, last, hHeights⟩

-- ---------------------------------------------------------------------------
-- Single tokens
-- ---------------------------------------------------------------------------

/-- A look ahead takes nothing. -/
theorem peek (k : Nat) :
    Advances line tokens level (TokenSource.peek k) fun token rest last =>
      token.kind = headKind (tokens.drop k) ∧ rest = tokens ∧ last = level := by
  refine Or.inl ⟨_, [], tokens, level, rfl, rfl, List.forall_mem_nil _, rfl, rfl, ?_, rfl, rfl⟩
  show (tokens[k]?.getD _).kind = _
  rw [← List.head?_drop]
  cases tokens.drop k <;> rfl

/-- The next token is seen in front of all others. -/
theorem peek_zero :
    Advances line tokens level (TokenSource.peek 0) fun token rest last =>
      token.kind = headKind tokens ∧ rest = tokens ∧ last = level :=
  peek 0

/-- A token is taken where one is seen. -/
theorem next (h : headKind tokens ≠ .eof) :
    Advances line tokens level TokenSource.next fun _ rest last =>
      tokens.length = rest.length + 1 ∧ rest = tokens.tail ∧ last = level := by
  cases tokens with
  | nil => exact absurd rfl h
  | cons token rest =>
    have hToken : token.isEof = false := beq_eq_false_iff_ne.mpr h
    exact Or.inl ⟨token, [token], rest, level, rfl, rfl, List.forall_mem_singleton.mpr hToken, rfl,
      rfl, rfl, rfl, rfl⟩

/-- A token that stops the dialogue is the last to be taken. -/
theorem next_stop {token : Token} {rest : List Token} {reason : Stop} {f : Token → Dialogue β}
    (hRun : (TokenSource.next : Dialogue Token).run (.ofTokens tokens line) =
      .ok token (.ofTokens rest line))
    (hReason : f token = .stop reason) :
    Advances line tokens level (TokenSource.next >>= f) post' := by
  refine Or.inr ⟨reason, .ofTokens rest line, level, ?_, ?_, ?_⟩
  · rw [run_bind, bind_of_ok hRun, hReason]
    rfl
  -- a token is asked for just once, be there one or not
  all_goals
    have hTrace : (TokenSource.next : Dialogue Token).trace (.ofTokens tokens line) =
        [.inl .next] := by
      cases tokens <;> rfl
  · rw [draws, requests, trace_bind_of_ok hRun, hReason, hTrace]
    exact Nat.le_add_left 1 _
  · rw [heights, entries, trace_bind_of_ok hRun, hReason, hTrace]
    rfl

/-- A token is taken without a look at it. At the end of the input the dialogue
has to stop. -/
theorem next_bind {f : Token → Dialogue β}
    (hNext : ∀ token rest, tokens.length = rest.length + 1 →
      Advances line rest level (f token) post')
    (hStop : ∀ l, ∃ reason, f ⟨.eof, l⟩ = .stop reason) :
    Advances line tokens level (TokenSource.next >>= f) post' := by
  cases tokens with
  -- at the end of the input, the request is answered with an end of input
  | nil =>
    obtain ⟨reason, hReason⟩ := hStop line
    exact next_stop rfl hReason
  | cons token rest =>
    by_cases hToken : token.kind = .eof
    · obtain ⟨reason, hReason⟩ := hStop token.line
      rw [← hToken] at hReason
      exact next_stop rfl hReason
    · have hHead : headKind (token :: rest) ≠ .eof := hToken
      refine (next hHead).bind ?_
      rintro token rest _ ⟨hRest, -, rfl⟩
      exact hNext token rest hRest

/-- A check says whether the next token is of the kind, and takes nothing. -/
theorem check (kind : TokenKind) :
    Advances line tokens level (Parse.check kind) fun found rest last =>
      found = (headKind tokens == kind) ∧ rest = tokens ∧ last = level := by
  refine peek_zero.bind ?_
  rintro _ _ _ ⟨hKind, rfl, rfl⟩
  exact pure ⟨congrArg (· == kind) hKind, rfl, rfl⟩

/-- A token that may be there is taken just if it is. -/
theorem accept {kind : TokenKind} (hKind : kind ≠ .eof) :
    Advances line tokens level (Parse.accept kind) fun found rest last =>
      (if found = true then tokens.length = rest.length + 1 else rest = tokens) ∧
        last = level := by
  refine (check kind).bind ?_
  rintro found _ _ ⟨hFound, rfl, rfl⟩
  cases found with
  | false => exact pure ⟨rfl, rfl⟩
  | true =>
    refine (next (eq_of_beq hFound.symm ▸ hKind)).bind ?_
    rintro _ _ _ ⟨hRest, -, rfl⟩
    exact pure ⟨hRest, rfl⟩

/-- Behind a token that may be there, the dialogue goes on in one of two ways. -/
theorem accept_bind {kind : TokenKind} {f : Bool → Dialogue β} (hKind : kind ≠ .eof)
    (hTaken : ∀ rest, tokens.length = rest.length + 1 → Advances line rest level (f true) post')
    (hLeft : Advances line tokens level (f false) post') :
    Advances line tokens level (Parse.accept kind >>= f) post' := by
  refine (accept hKind).bind ?_
  rintro found rest _ ⟨hFound, rfl⟩
  cases found with
  | true => exact hTaken rest hFound
  | false =>
    cases hFound
    exact hLeft

/-- A token that has to be there is taken, or the dialogue stops. -/
theorem require {kind : TokenKind} {expected : Expectation} (hKind : kind ≠ .eof) :
    Advances line tokens level (Parse.require kind expected) fun _ rest last =>
      tokens.length = rest.length + 1 ∧ last = level := by
  refine next_bind (fun token rest hRest => ?_) fun l => ?_
  · by_cases hSame : token.kind = kind
    · rw [if_pos (beq_iff_eq.mpr hSame)]
      exact pure ⟨hRest, rfl⟩
    -- a wrong token is taken as well, but then the dialogue stops
    · rw [if_neg (mt beq_iff_eq.mp hSame)]
      exact stop
  · rw [if_neg (mt beq_iff_eq.mp hKind.symm)]
    exact ⟨_, rfl⟩

/-- A name that has to be there is taken, or the dialogue stops. -/
theorem requireName {expected : Expectation} :
    Advances line tokens level (Parse.requireName expected) fun _ rest last =>
      tokens.length = rest.length + 1 ∧ last = level := by
  refine next_bind (fun token rest hRest => ?_) fun l => ⟨_, rfl⟩
  split
  · exact pure ⟨hRest, rfl⟩
  · exact stop

/-- A block ends with two tokens. -/
theorem blockEnd {expected : Expectation} :
    Advances line tokens level (Parse.blockEnd expected) fun _ rest last =>
      tokens.length = rest.length + 2 ∧ last = level := by
  refine (require (by simp)).bind ?_
  rintro _ rest _ ⟨hRest, rfl⟩
  refine (require (by simp)).mono ?_
  rintro _ rest' _ ⟨hRest', rfl⟩
  exact ⟨by omega, rfl⟩

end Advances

-- ---------------------------------------------------------------------------
-- Expressions
-- ---------------------------------------------------------------------------

/-- At least so many tokens are taken, and in front of the others rules below
the given rank may still be entered. -/
def Taken (least exit : Nat) (tokens rest : List Token) (last : Nat) : Prop :=
  rest.length + least ≤ tokens.length ∧ 9 * rest.length + exit ≤ last

/-- The number of tokens that an operand has at least. -/
def Operand.least : Operand → Nat
  | .ident .. | .number _ | .text _ => 1
  | .group _ | .call .. => 3

/-- Every operand takes a token. -/
theorem Operand.one_le_least (a : Operand) : 1 ≤ a.least := by
  cases a <;> simp [least]

section Expressions

variable {line level : Nat} {tokens : List Token}

/-- The target of an assignment is taken with its sign, or nothing is. -/
theorem advances_target {start : Token} (hStart : start.kind = headKind tokens) :
    Advances line tokens level (Parse.target start) fun _ rest last =>
      rest.length ≤ tokens.length ∧ last = level := by
  obtain ⟨kind, l⟩ := start
  cases kind with
  | identifier x =>
    refine (Advances.peek 1).bind ?_
    rintro second _ _ ⟨hSecond, rfl, rfl⟩
    split
    · next hAssign =>
      refine (Advances.next (by rw [← hStart]; simp)).bind ?_
      rintro _ _ _ ⟨hRest, rfl, rfl⟩
      rw [eq_of_beq hAssign, List.drop_one] at hSecond
      -- the look ahead has seen that the second token is there
      refine (Advances.next (by rw [← hSecond]; simp)).bind ?_
      rintro _ _ _ ⟨hRest', -, rfl⟩
      exact .pure ⟨by omega, rfl⟩
    · exact .pure ⟨Nat.le_refl _, rfl⟩
  | _ => exact .pure ⟨Nat.le_refl _, rfl⟩

/-- The end of an expression may be a token or nothing. -/
theorem advances_expressionEnd :
    Advances line tokens level Parse.expressionEnd fun _ rest last =>
      rest.length ≤ tokens.length ∧ last = level := by
  refine Advances.accept_bind (by simp) (fun rest hRest => .pure ⟨by omega, rfl⟩) ?_
  refine Advances.peek_zero.bind ?_
  rintro token _ _ ⟨-, rfl, rfl⟩
  split
  · exact .pure ⟨Nat.le_refl _, rfl⟩
  · exact .pure ⟨Nat.le_refl _, rfl⟩
  · exact .pure ⟨Nat.le_refl _, rfl⟩
  · exact .stop

/-- The rules for expressions advance. -/
structure ExprsAdvance (fuel : Nat) : Prop where
  factor : ∀ {line level : Nat} {tokens : List Token}, 9 * tokens.length + 1 < level →
    Advances line tokens level (Parse.factor fuel) fun a rest last =>
      Taken a.least 9 tokens rest last
  expression : ∀ {line level : Nat} {tokens : List Token}, 9 * tokens.length + 2 < level →
    Advances line tokens level (Parse.expression fuel) fun _ rest last =>
      Taken 1 8 tokens rest last
  operations : ∀ {line level : Nat} {tokens : List Token}, 9 * tokens.length + 8 < level →
    Advances line tokens level (Parse.operations fuel) fun _ rest last =>
      Taken 0 8 tokens rest last
  arguments : ∀ {line level : Nat} {tokens : List Token}, 9 * tokens.length + 4 < level →
    Advances line tokens level (Parse.arguments fuel) fun _ rest last =>
      Taken 0 4 tokens rest last
  moreArguments : ∀ {line level : Nat} {tokens : List Token}, 9 * tokens.length + 3 < level →
    Advances line tokens level (Parse.moreArguments fuel) fun _ rest last =>
      Taken 1 8 tokens rest last

variable {fuel : Nat}

/-- An operand advances if the expressions in it do. -/
theorem ExprsAdvance.factor_succ (ih : ExprsAdvance fuel) (hLevel : 9 * tokens.length + 1 < level) :
    Advances line tokens level (Parse.factor (fuel + 1)) fun a rest last =>
      Taken a.least 9 tokens rest last := by
  rw [Parse.factor]
  refine .enter 1 rfl hLevel (Advances.accept_bind (by simp) (fun rest hRest => ?_) ?_)
  -- a group: both parentheses count
  · refine (ih.expression (by omega)).bind ?_
    rintro inner rest₁ _ ⟨hRest₁, hLast₁⟩
    refine (Advances.require (by simp)).bind ?_
    rintro _ rest₂ last ⟨hRest₂, rfl⟩
    have hTaken : Taken 3 9 tokens rest₂ last := ⟨by omega, by omega⟩
    exact .pure hTaken
  · refine Advances.next_bind (fun token rest hRest => ?_) fun l => ⟨_, rfl⟩
    have hTaken : Taken 1 9 tokens rest (9 * tokens.length + 1) := ⟨by omega, by omega⟩
    obtain ⟨kind, l⟩ := token
    cases kind with
    | identifier x =>
      refine Advances.accept_bind (by simp) (fun rest₁ hRest₁ => ?_) (.pure hTaken)
      -- a call: its arguments may be none, but the name and the parentheses count
      refine (ih.arguments (by omega)).bind ?_
      rintro args rest₂ _ ⟨hRest₂, hLast₂⟩
      refine (Advances.require (by simp)).bind ?_
      rintro _ rest₃ last ⟨hRest₃, rfl⟩
      have hCall : Taken 3 9 tokens rest₃ last := ⟨by omega, by omega⟩
      exact .pure hCall
    | number value => exact .pure hTaken
    | text content => exact .pure hTaken
    | _ => exact .stop

/-- An expression advances: if no more, it takes its first operand. -/
theorem ExprsAdvance.expression_succ (ih : ExprsAdvance fuel)
    (hLevel : 9 * tokens.length + 2 < level) :
    Advances line tokens level (Parse.expression (fuel + 1)) fun _ rest last =>
      Taken 1 8 tokens rest last := by
  -- the target may take nothing, hence the first operand has to be of lower rank
  rw [Parse.expression]
  refine .enter 2 rfl hLevel (Advances.peek_zero.bind ?_)
  rintro start _ _ ⟨hStart, rfl, rfl⟩
  refine (advances_target hStart).bind ?_
  rintro target rest₁ _ ⟨hRest₁, rfl⟩
  refine (ih.factor (by omega)).bind ?_
  rintro first rest₂ last₂ ⟨hRest₂, hLast₂⟩
  have hLeast := first.one_le_least
  refine (ih.operations (by omega)).bind ?_
  rintro more rest₃ last₃ ⟨hRest₃, hLast₃⟩
  refine advances_expressionEnd.bind ?_
  rintro _ rest₄ _ ⟨hRest₄, rfl⟩
  exact .pure ⟨by omega, by omega⟩

/-- The operators of an expression advance: each takes itself and an operand
before the next is read. -/
theorem ExprsAdvance.operations_succ (ih : ExprsAdvance fuel)
    (hLevel : 9 * tokens.length + 8 < level) :
    Advances line tokens level (Parse.operations (fuel + 1)) fun _ rest last =>
      Taken 0 8 tokens rest last := by
  rw [Parse.operations]
  refine .enter 8 rfl hLevel (Advances.peek_zero.bind ?_)
  rintro ⟨kind, l⟩ _ _ ⟨hKind, rfl, rfl⟩
  cases kind with
  | operator op =>
    refine (Advances.next (by rw [← hKind]; simp)).bind ?_
    rintro _ rest _ ⟨hRest, -, rfl⟩
    -- the operator is taken, so that even the same rule is below the level
    refine (ih.factor (by omega)).bind ?_
    rintro operand rest₁ last₁ ⟨hRest₁, hLast₁⟩
    have hLeast := operand.one_le_least
    refine (ih.operations (by omega)).bind ?_
    rintro more rest₂ last₂ ⟨hRest₂, hLast₂⟩
    exact .pure ⟨by omega, by omega⟩
  | assign => exact Advances.next_bind (fun _ _ _ => .stop) fun _ => ⟨_, rfl⟩
  | _ => exact .pure ⟨Nat.le_refl _, Nat.le_refl _⟩

/-- The arguments of a call advance: they may be none. -/
theorem ExprsAdvance.arguments_succ (ih : ExprsAdvance fuel)
    (hLevel : 9 * tokens.length + 4 < level) :
    Advances line tokens level (Parse.arguments (fuel + 1)) fun _ rest last =>
      Taken 0 4 tokens rest last := by
  rw [Parse.arguments]
  refine .enter 4 rfl hLevel ((Advances.check _).bind ?_)
  rintro found _ _ ⟨-, rfl, rfl⟩
  cases found with
  | true => exact .pure ⟨Nat.le_refl _, Nat.le_refl _⟩
  | false =>
    refine (ih.moreArguments (by omega)).mono ?_
    rintro args rest last ⟨hRest, hLast⟩
    exact ⟨by omega, by omega⟩

/-- One argument advances, and the next is read behind a comma. -/
theorem ExprsAdvance.moreArguments_succ (ih : ExprsAdvance fuel)
    (hLevel : 9 * tokens.length + 3 < level) :
    Advances line tokens level (Parse.moreArguments (fuel + 1)) fun _ rest last =>
      Taken 1 8 tokens rest last := by
  rw [Parse.moreArguments]
  refine .enter 3 rfl hLevel ((ih.expression (by omega)).bind ?_)
  rintro arg rest₁ last₁ ⟨hRest₁, hLast₁⟩
  refine Advances.accept_bind (by simp) (fun rest₂ hRest₂ => ?_) (.pure ⟨hRest₁, hLast₁⟩)
  refine (ih.moreArguments (by omega)).bind ?_
  rintro args rest₃ last₃ ⟨hRest₃, hLast₃⟩
  exact .pure ⟨by omega, by omega⟩

/-- **All rules for expressions advance.** -/
theorem exprsAdvance (fuel : Nat) : ExprsAdvance fuel := by
  induction fuel with
  -- without fuel the dialogue has stopped
  | zero => exact ⟨fun _ => .stop, fun _ => .stop, fun _ => .stop, fun _ => .stop, fun _ => .stop⟩
  | succ fuel ih =>
    exact ⟨ih.factor_succ, ih.expression_succ, ih.operations_succ, ih.arguments_succ,
      ih.moreArguments_succ⟩

end Expressions

-- ---------------------------------------------------------------------------
-- Statements
-- ---------------------------------------------------------------------------

section Statements

variable {line level fuel : Nat} {tokens : List Token}

/-- Names of parameters advance: the next is read behind a comma. -/
theorem advances_moreParameters (fuel : Nat) (hLevel : 9 * tokens.length + 1 < level) :
    Advances line tokens level (Parse.moreParameters fuel) fun _ rest last =>
      Taken 1 9 tokens rest last := by
  induction fuel generalizing tokens level with
  | zero => exact .stop
  | succ fuel ih =>
    rw [Parse.moreParameters]
    refine .enter 1 rfl hLevel (Advances.requireName.bind ?_)
    rintro name rest _ ⟨hRest, rfl⟩
    refine Advances.accept_bind (by simp) (fun rest₁ hRest₁ => ?_) (.pure ⟨by omega, by omega⟩)
    refine (ih (by omega)).bind ?_
    rintro names rest₂ last ⟨hRest₂, hLast₂⟩
    exact .pure ⟨by omega, by omega⟩

/-- Parameters advance: their parentheses are taken at least. -/
theorem advances_parameters (fuel : Nat) (hLevel : 9 * tokens.length + 1 < level) :
    Advances line tokens level (Parse.parameters fuel) fun _ rest last =>
      Taken 2 9 tokens rest last := by
  have hClose : ∀ {rest : List Token} {last : Nat} (names : List String),
      rest.length + 1 ≤ tokens.length → 9 * rest.length ≤ last →
      Advances line rest last
        (Parse.require (.separator .closeParen) .parametersClose >>= fun _ => pure names)
        fun _ rest last => Taken 2 9 tokens rest last := by
    intro rest last names hRest hLast
    refine (Advances.require (by simp)).bind ?_
    rintro _ rest₁ _ ⟨hRest₁, rfl⟩
    exact .pure ⟨by omega, by omega⟩
  refine (Advances.require (by simp)).bind ?_
  rintro _ rest _ ⟨hRest, rfl⟩
  refine (Advances.check _).bind ?_
  rintro found _ _ ⟨-, rfl, rfl⟩
  cases found with
  | true => exact hClose [] (by omega) (by omega)
  | false =>
    refine (advances_moreParameters fuel (by omega)).bind ?_
    rintro names rest₁ last ⟨hRest₁, hLast₁⟩
    exact hClose names (by omega) (by omega)

/-- The rules for statements advance. -/
structure StatementsAdvance (fuel : Nat) : Prop where
  block : ∀ {outermost : Bool} {line level : Nat} {tokens : List Token},
    9 * tokens.length + 7 < level →
      Advances line tokens level (Parse.block outermost fuel) fun _ rest last =>
        Taken 0 7 tokens rest last
  elseBlock : ∀ {line level : Nat} {tokens : List Token}, 9 * tokens.length + 6 < level →
    Advances line tokens level (Parse.elseBlock fuel) fun _ rest last =>
      Taken 0 6 tokens rest last
  statement : ∀ {outermost : Bool} {start : Token} {line level : Nat} {tokens : List Token},
    start.kind = headKind tokens → 9 * tokens.length + 5 < level →
      Advances line tokens level (Parse.statement outermost start fuel) fun _ rest last =>
        Taken 1 8 tokens rest last

/-- A block advances: it may be empty, but each statement in it takes a token. -/
theorem StatementsAdvance.block_succ {outermost : Bool} (ih : StatementsAdvance fuel)
    (hLevel : 9 * tokens.length + 7 < level) :
    Advances line tokens level (Parse.block outermost (fuel + 1)) fun _ rest last =>
      Taken 0 7 tokens rest last := by
  rw [Parse.block]
  refine .enter 7 rfl hLevel (Advances.peek_zero.bind ?_)
  rintro start _ _ ⟨hStart, rfl, rfl⟩
  split
  · exact .pure ⟨Nat.le_refl _, Nat.le_refl _⟩
  -- the statement takes a token, so that the rest of the block is below the level
  · refine (ih.statement hStart (by omega)).bind ?_
    rintro first rest₁ last₁ ⟨hRest₁, hLast₁⟩
    refine (ih.block (by omega)).bind ?_
    rintro more rest₂ last₂ ⟨hRest₂, hLast₂⟩
    exact .pure ⟨by omega, by omega⟩

/-- A second block advances: it is there just if its keyword is. -/
theorem StatementsAdvance.elseBlock_succ (ih : StatementsAdvance fuel)
    (hLevel : 9 * tokens.length + 6 < level) :
    Advances line tokens level (Parse.elseBlock (fuel + 1)) fun _ rest last =>
      Taken 0 6 tokens rest last := by
  rw [Parse.elseBlock]
  refine .enter 6 rfl hLevel (Advances.accept_bind (by simp) (fun rest hRest => ?_)
    (.pure ⟨Nat.le_refl _, Nat.le_refl _⟩))
  refine (ih.block (by omega)).bind ?_
  rintro body rest₁ last₁ ⟨hRest₁, hLast₁⟩
  exact .pure ⟨by omega, by omega⟩

section Words

-- A statement that starts with a keyword takes it first.
variable {l : Nat} {outermost : Bool} (ih : StatementsAdvance fuel)
  (hLevel : 9 * tokens.length + 5 < level)

include ih hLevel

/-- A loop advances. -/
theorem StatementsAdvance.loop_succ (hHead : headKind tokens = .keyword .whileWord) :
    Advances line tokens level
      (Parse.statement outermost ⟨.keyword .whileWord, l⟩ (fuel + 1)) fun _ rest last =>
        Taken 1 8 tokens rest last := by
  rw [Parse.statement]
  refine .enter 5 rfl hLevel ((Advances.next (by simp [hHead])).bind ?_)
  rintro _ rest _ ⟨hRest, -, rfl⟩
  refine ((exprsAdvance fuel).expression (by omega)).bind ?_
  rintro condition rest₁ last₁ ⟨hRest₁, hLast₁⟩
  refine (Advances.require (by simp)).bind ?_
  rintro _ rest₂ _ ⟨hRest₂, rfl⟩
  refine (ih.block (by omega)).bind ?_
  rintro body rest₃ last₃ ⟨hRest₃, hLast₃⟩
  refine Advances.blockEnd.bind ?_
  rintro _ rest₄ _ ⟨hRest₄, rfl⟩
  exact .pure ⟨by omega, by omega⟩

/-- An `if` advances. -/
theorem StatementsAdvance.branch_succ (hHead : headKind tokens = .keyword .ifWord) :
    Advances line tokens level
      (Parse.statement outermost ⟨.keyword .ifWord, l⟩ (fuel + 1)) fun _ rest last =>
        Taken 1 8 tokens rest last := by
  rw [Parse.statement]
  refine .enter 5 rfl hLevel ((Advances.next (by simp [hHead])).bind ?_)
  rintro _ rest _ ⟨hRest, -, rfl⟩
  refine ((exprsAdvance fuel).expression (by omega)).bind ?_
  rintro condition rest₁ last₁ ⟨hRest₁, hLast₁⟩
  refine (Advances.require (by simp)).bind ?_
  rintro _ rest₂ _ ⟨hRest₂, rfl⟩
  refine (ih.block (by omega)).bind ?_
  rintro body rest₃ last₃ ⟨hRest₃, hLast₃⟩
  refine (ih.elseBlock (by omega)).bind ?_
  rintro other rest₄ last₄ ⟨hRest₄, hLast₄⟩
  refine Advances.blockEnd.bind ?_
  rintro _ rest₅ _ ⟨hRest₅, rfl⟩
  exact .pure ⟨by omega, by omega⟩

/-- A definition advances. -/
theorem StatementsAdvance.define_succ (hHead : headKind tokens = .keyword .defWord) :
    Advances line tokens level
      (Parse.statement true ⟨.keyword .defWord, l⟩ (fuel + 1)) fun _ rest last =>
        Taken 1 8 tokens rest last := by
  rw [Parse.statement]
  refine .enter 5 rfl hLevel ((Advances.next (by simp [hHead])).bind ?_)
  rintro _ rest _ ⟨hRest, -, rfl⟩
  refine Advances.requireName.bind ?_
  rintro name rest₁ _ ⟨hRest₁, rfl⟩
  refine (advances_parameters fuel (by omega)).bind ?_
  rintro params rest₂ last₂ ⟨hRest₂, hLast₂⟩
  refine (Advances.require (by simp)).bind ?_
  rintro _ rest₃ _ ⟨hRest₃, rfl⟩
  refine (ih.block (by omega)).bind ?_
  rintro body rest₄ last₄ ⟨hRest₄, hLast₄⟩
  refine Advances.blockEnd.bind ?_
  rintro _ rest₅ _ ⟨hRest₅, rfl⟩
  exact .pure ⟨by omega, by omega⟩

end Words

/-- A statement advances, whatever it starts with. -/
theorem StatementsAdvance.statement_succ {outermost : Bool} {start : Token}
    (ih : StatementsAdvance fuel) (hStart : start.kind = headKind tokens)
    (hLevel : 9 * tokens.length + 5 < level) :
    Advances line tokens level (Parse.statement outermost start (fuel + 1)) fun _ rest last =>
      Taken 1 8 tokens rest last := by
  have hExpr := @(exprsAdvance fuel).expression
  have hPlain : Advances line tokens level
      (.enter (.statement outermost) (Parse.expression fuel >>= fun value =>
        pure (.expr value))) fun (_ : Stmt) rest last => Taken 1 8 tokens rest last := by
    refine .enter 5 rfl hLevel ((hExpr (by omega)).bind ?_)
    rintro value rest last hTaken
    exact .pure hTaken
  obtain ⟨kind, l⟩ := start
  cases kind with
  | keyword word =>
    cases word with
    | whileWord => exact ih.loop_succ hLevel hStart.symm
    | ifWord => exact ih.branch_succ hLevel hStart.symm
    | returnWord =>
      rw [Parse.statement]
      refine .enter 5 rfl hLevel ((Advances.next (by simp [← hStart])).bind ?_)
      rintro _ rest _ ⟨hRest, -, rfl⟩
      refine (hExpr (by omega)).bind ?_
      rintro result rest₁ last₁ ⟨hRest₁, hLast₁⟩
      exact .pure ⟨by omega, by omega⟩
    | defWord =>
      -- a definition within a block is refused before anything is taken
      cases outermost with
      | true => exact ih.define_succ hLevel hStart.symm
      | false =>
        rw [Parse.statement]
        exact .enter 5 rfl hLevel .stop
    | _ =>
      rw [Parse.statement]
      exact hPlain
  | _ =>
    rw [Parse.statement]
    exact hPlain

/-- **All rules for statements advance.** -/
theorem statementsAdvance (fuel : Nat) : StatementsAdvance fuel := by
  induction fuel with
  | zero => exact ⟨fun _ => .stop, fun _ => .stop, fun _ _ => .stop⟩
  | succ fuel ih => exact ⟨ih.block_succ, ih.elseBlock_succ, ih.statement_succ⟩

end Statements

-- ---------------------------------------------------------------------------
-- Whole parses
-- ---------------------------------------------------------------------------

section Programs

variable {line level : Nat} {tokens : List Token}

/-- Every rule takes as many tokens as its phrases have at least. -/
theorem Nonterminal.advances {n : Nonterminal} (hProgram : n ≠ .program) (fuel : Nat)
    (hLevel : 9 * tokens.length + 8 < level) :
    Advances line tokens level (n.run fuel) fun _ rest _ =>
      rest.length + n.least ≤ tokens.length := by
  have hExprs := exprsAdvance fuel
  have hStatements := statementsAdvance fuel
  cases n with
  | factor =>
    refine (hExprs.factor (by omega)).mono fun a rest _ h => ?_
    exact Nat.le_trans (Nat.add_le_add_left a.one_le_least _) h.1
  | arguments => exact (hExprs.arguments (by omega)).mono fun _ _ _ h => h.1
  | moreArguments => exact (hExprs.moreArguments (by omega)).mono fun _ _ _ h => h.1
  | target =>
    refine Advances.peek_zero.bind ?_
    rintro start _ _ ⟨hStart, rfl, rfl⟩
    exact (advances_target hStart).mono fun _ _ _ h => h.1
  | operations => exact (hExprs.operations hLevel).mono fun _ _ _ h => h.1
  | ending => exact advances_expressionEnd.mono fun _ _ _ h => h.1
  | expr => exact (hExprs.expression (by omega)).mono fun _ _ _ h => h.1
  | names => exact (advances_moreParameters fuel (by omega)).mono fun _ _ _ h => h.1
  | parameters =>
    exact (advances_parameters fuel (by omega)).mono fun _ _ _ h => Nat.le_of_succ_le h.1
  | alternative => exact (hStatements.elseBlock (by omega)).mono fun _ _ _ h => h.1
  | statement outermost =>
    refine Advances.peek_zero.bind ?_
    rintro start _ _ ⟨hStart, rfl, rfl⟩
    exact (hStatements.statement hStart (by omega)).mono fun _ _ _ h => h.1
  | block outermost => exact (hStatements.block (by omega)).mono fun _ _ _ h => h.1
  | program => exact absurd rfl hProgram

/-- A whole parse stops in front of an end of input. -/
theorem advances_program (fuel : Nat) :
    Advances line tokens (9 * tokens.length + 8) (Parse.program fuel) fun _ rest _ =>
      headKind rest = .eof := by
  refine ((statementsAdvance fuel).block (Nat.lt_succ_self _)).bind ?_
  rintro items rest last -
  refine Advances.peek_zero.bind ?_
  rintro token _ _ ⟨hToken, rfl, rfl⟩
  split
  · next hEof => exact .pure (hToken.symm.trans (eq_of_beq hEof))
  · exact .stop

/-- The same rule is never entered twice in front of the same tokens. -/
theorem pairwise_of_descends {entries : List RuleEntry} {last : Nat}
    (h : Descends level (entries.map RuleEntry.height) last) :
    entries.Pairwise fun entry later => entry.rule = later.rule → later.left < entry.left := by
  refine (List.pairwise_map.mp h.pairwise.2).imp ?_
  intro entry later hHeight hRule
  rw [RuleEntry.height, RuleEntry.height, hRule] at hHeight
  omega

end Programs

/-- **The parser makes progress on all tokens**, be they a program or not. Of
the tokens in front of the end of the input,
every rule that succeeds takes some from the front, at least one for an
operand, an expression or a statement of any kind, and never an end of input;
a call takes three, its name among them.
A whole parse, that is, the requests of `Parse.program`, asks for no more
tokens than there are with the end of the input, and a rule that is entered
again, such as the next round of a loop, finds fewer tokens left.
It ends, and in the same way with any amount of fuel that is enough. -/
theorem parser_makes_progress (tokens : List Token) (line : Nat) :
    let scanner := Scanner.ofTokens tokens line
    (∀ (n : Nonterminal) fuel tree later, n ≠ .program →
      (n.run fuel : Scan n.Tree) scanner = .ok tree later →
      ∃ taken rest, tokens = taken ++ rest ∧ later = .ofTokens rest line ∧
        n.least ≤ taken.length ∧ ∀ token ∈ taken, token.isEof = false) ∧
    (∀ fuel x args l later,
      (Parse.factor fuel : Scan Operand) scanner = .ok (.call x args l) later →
      ∃ taken rest, tokens = taken ++ rest ∧ later = .ofTokens rest line ∧ 3 ≤ taken.length) ∧
    (∀ fuel, let parse : Dialogue Program := Parse.program fuel
      parse.run = Parse.program fuel ∧
      final ((Parse.program fuel : Scan Program) scanner) =
        scanner.after (parse.requests scanner) ∧
      (parse.requests scanner).count .next ≤ tokens.length + 1 ∧
      (parse.entries scanner).length ≤ 9 * tokens.length + 8 ∧
      (parse.entries scanner).Pairwise fun entry later =>
        entry.rule = later.rule → later.left < entry.left) ∧
    ∀ fuel, 4 * tokens.length + 4 ≤ fuel →
      outcome ((Parse.program fuel : Scan Program) scanner) = outcome scanner.parse ∧
        outcome scanner.parse ≠ .error .outOfFuel := by
  intro scanner
  refine ⟨?_, ?_, ?_, ?_⟩
  · intro n fuel tree later hProgram hRun
    -- what is known of the dialogue holds of the parser, since the two run alike
    rw [← n.run_dialogue] at hRun
    obtain ⟨taken, rest, _, rfl, hLater, hEof, hLeast⟩ :=
      (n.advances hProgram fuel (Nat.lt_succ_self _)).of_run_ok hRun
    rw [List.length_append] at hLeast
    exact ⟨taken, rest, rfl, hLater, by omega, hEof⟩
  · intro fuel x args l later hRun
    rw [← (Dialogue.exprsRun fuel).factor] at hRun
    obtain ⟨taken, rest, _, rfl, hLater, _, hLeast, _⟩ :=
      ((exprsAdvance fuel).factor (Nat.lt_succ_self _)).of_run_ok hRun
    rw [List.length_append, Operand.least] at hLeast
    exact ⟨taken, rest, rfl, hLater, by omega⟩
  · intro fuel parse
    have hParse : parse.run = Parse.program fuel := Nonterminal.program.run_dialogue fuel
    obtain ⟨hDraws, last, hHeights⟩ := (@advances_program line tokens fuel).bounds
    -- every entry is lower than the one before, hence there are no more than levels
    have hEntries : (parse.entries scanner).length ≤ 9 * tokens.length + 8 := by
      rw [← List.length_map]
      exact hHeights.length_le
    refine ⟨hParse, ?_, hDraws, hEntries, pairwise_of_descends hHeights⟩
    rw [← hParse]
    exact parse.final_run scanner
  · exact fun fuel hFuel => outcome_program hFuel

/-- Behind a single parenthesis, the end of the input is asked for too. -/
example :
    ((Parse.program 8 : Dialogue Program).requests
      (.ofTokens [⟨.separator .openParen, 1⟩] 1)).count .next = 2 := by
  decide

end Scriptlet
