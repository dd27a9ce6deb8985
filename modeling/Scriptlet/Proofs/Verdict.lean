import Scriptlet.Tree.Parse

/-!
# Scriptlet — how far a parse gets

A rule of the parser, started on a list of tokens, takes some of them and then
ends, or fails at the token in front of which it stands. In both cases it has
seen no token behind that one: whatever else stands there, and however much
fuel is left over, the rule does the same. A `Verdict` says where a rule gets to
on a list, and what holds of the tokens taken so far.

* `Decides` — a rule comes to a verdict on all lists with the same first token;
* `Decides.bind` — sequences are decided part by part;
* `Decides.take`, `Decides.accept`, `Decides.require` — single tokens.
-/

namespace Scriptlet

variable {α β : Type}

-- ---------------------------------------------------------------------------
-- Verdicts
-- ---------------------------------------------------------------------------

/-- The token that comes next if the list starts like this. Behind the last
token comes the end of the input. -/
def front (line : Nat) (start : Option Token) : Token :=
  start.getD ⟨.eof, line⟩

/-- The way a computation that is bounded by fuel ends on a list of tokens. The
tokens `before` were taken earlier. If it ends or fails within the given fuel,
it does so with any more fuel as well, and whatever stands behind the token that
is in front at the end. -/
inductive Verdict (line fuel : Nat) (before : List Token) (m : Nat → Scan α)
    (post : α → List Token → Option Token → Prop) (stuck : List Token → Prop) :
    List Token → Prop
  | ended {a : α} (taken : List Token) {rest : List Token}
    (hPost : post a (before ++ taken) rest.head?)
    (hRun : ∀ g, fuel ≤ g → ∀ rest', rest'.head? = rest.head? →
      m g (.ofTokens (taken ++ rest') line) = .ok a (.ofTokens rest' line)) :
    Verdict line fuel before m post stuck (taken ++ rest)
  | failed (expected : Expectation) (taken : List Token) {rest : List Token}
    (hStuck : stuck (before ++ taken))
    (hRun : ∀ g, fuel ≤ g → ∀ rest', rest'.head? = rest.head? → ∃ s,
      m g (.ofTokens (taken ++ rest') line) =
        .error (.fault (.unexpected (front line rest.head?) expected)) s) :
    Verdict line fuel before m post stuck (taken ++ rest)
  | dry {input : List Token} (s : Scanner)
    (hRun : m fuel (.ofTokens input line) = .error .outOfFuel s) :
    Verdict line fuel before m post stuck input

/-- The computation comes to a verdict on every list with this first token. -/
def Decides (line fuel : Nat) (start : Option Token) (before : List Token) (m : Nat → Scan α)
    (post : α → List Token → Option Token → Prop) (stuck : List Token → Prop) : Prop :=
  ∀ input : List Token, input.head? = start → Verdict line fuel before m post stuck input

/-- The tokens taken, with the next one behind them, start with `start`. -/
def Leads (start : Option Token) (taken : List Token) (next : Option Token) : Prop :=
  ∀ rest : List Token, rest.head? = next → (taken ++ rest).head? = start

/-- The tokens taken start with `start`, if there are any. -/
def Starts (start : Option Token) (taken : List Token) : Prop :=
  taken = [] ∨ taken.head? = start

/-- What is first behind a common start depends on no more than the first token
of the rest. -/
theorem head?_append_congr {rest rest' : List Token} (taken : List Token)
    (h : rest'.head? = rest.head?) : (taken ++ rest').head? = (taken ++ rest).head? := by
  cases taken with
  | nil => exact h
  | cons token taken => rfl

/-- The tokens taken lead from the first token to the one behind them. -/
theorem leads_of_head? {start : Option Token} {taken rest : List Token}
    (h : (taken ++ rest).head? = start) : Leads start taken rest.head? :=
  fun _ hHead => (head?_append_congr taken hHead).trans h

/-- The tokens taken start with the first token of the list. -/
theorem starts_of_head? {start : Option Token} {taken rest : List Token}
    (h : (taken ++ rest).head? = start) : Starts start taken := by
  cases taken with
  | nil => exact Or.inl rfl
  | cons token taken => exact Or.inr h

/-- Tokens that lead from a first one start with it. -/
theorem Leads.starts {start next : Option Token} {taken : List Token}
    (h : Leads start taken next) : Starts start taken := by
  cases taken with
  | nil => exact Or.inl rfl
  | cons token taken => exact Or.inr (h next.toList (by cases next <;> rfl))

namespace Decides

variable {line fuel : Nat} {start : Option Token} {before : List Token}
  {post : α → List Token → Option Token → Prop} {stuck : List Token → Prop}

/-- What holds of a verdict may be weakened. -/
theorem mono {m : Nat → Scan α} {post' : α → List Token → Option Token → Prop}
    {stuck' : List Token → Prop} (h : Decides line fuel start before m post stuck)
    (hPost : ∀ a taken next, post a taken next → post' a taken next)
    (hStuck : ∀ taken, stuck taken → stuck' taken) :
    Decides line fuel start before m post' stuck' := by
  intro input hInput
  cases h input hInput with
  | ended taken h hRun => exact .ended taken (hPost _ _ _ h) hRun
  | failed expected taken h hRun => exact .failed expected taken (hStuck _ h) hRun
  | dry s hRun => exact .dry s hRun

/-- A rule decides what an equal one does. -/
theorem congr {m m' : Nat → Scan α} (hSame : ∀ g, m' g = m g)
    (h : Decides line fuel start before m post stuck) :
    Decides line fuel start before m' post stuck := by
  obtain rfl : m' = m := funext hSame
  exact h

/-- A rule that has no fuel runs dry. -/
theorem zero {m : Nat → Scan α} (hm : m 0 = throw .outOfFuel) :
    Decides line 0 start before m post stuck := by
  intro input _
  refine .dry (.ofTokens input line) ?_
  rw [hm]
  rfl

/-- A rule decides with one more unit of fuel what its body decides. -/
theorem succ {m body : Nat → Scan α} (hm : ∀ g, m (g + 1) = body g)
    (h : Decides line fuel start before body post stuck) :
    Decides line (fuel + 1) start before m post stuck := by
  -- fuel enough for the rule is one unit more than what is enough for its body
  have hPred : ∀ g, fuel + 1 ≤ g → ∃ g', fuel ≤ g' ∧ m g = body g' := by
    intro g hg
    refine ⟨g - 1, by omega, ?_⟩
    rw [← hm, Nat.sub_add_cancel (by omega)]
  intro input hInput
  cases h input hInput with
  | ended taken h hRun =>
    refine .ended taken h fun g hg rest' hHead => ?_
    obtain ⟨g', hg', hBody⟩ := hPred g hg
    rw [hBody]
    exact hRun g' hg' rest' hHead
  | failed expected taken h hRun =>
    refine .failed expected taken h fun g hg rest' hHead => ?_
    obtain ⟨g', hg', hBody⟩ := hPred g hg
    rw [hBody]
    exact hRun g' hg' rest' hHead
  | dry s hRun =>
    rw [← hm] at hRun
    exact .dry s hRun

/-- A value ends in front of the first token, with nothing taken. -/
theorem pure {a : α} (h : post a before start) :
    Decides line fuel start before (fun _ => Pure.pure a) post stuck := by
  intro input hInput
  refine .ended [] ?_ fun _ _ _ _ => rfl
  rw [List.append_nil, hInput]
  exact h

/-- A refusal fails at the first token, with nothing taken. -/
theorem unexpected {expected : Expectation} (h : stuck before) :
    Decides line fuel start before (fun _ => Parse.unexpected (front line start) expected) post
      stuck := by
  intro input hInput
  refine .failed expected [] ?_ fun g _ rest' _ => ⟨.ofTokens rest' line, ?_⟩
  · rw [List.append_nil]
    exact h
  · rw [hInput]
    rfl

/-- **Sequences are decided part by part.** Whatever the first part leaves in
front is what the second part starts with. -/
theorem bind {m : Nat → Scan α} {k : α → Nat → Scan β}
    {post' : β → List Token → Option Token → Prop} {stuck' : List Token → Prop}
    (h : Decides line fuel start [] m post stuck)
    (hStuck : ∀ taken, stuck taken → Starts start taken → stuck' (before ++ taken))
    (hNext : ∀ a taken next, post a taken next → Leads start taken next →
      Decides line fuel next (before ++ taken) (k a) post' stuck') :
    Decides line fuel start before (fun g => m g >>= fun a => k a g) post' stuck' := by
  intro input hInput
  cases h input hInput with
  -- the first part decides on its own, unless it ends
  | dry s hRun => exact .dry s (bind_of_error hRun)
  | failed expected taken h hRun =>
    refine .failed expected taken (hStuck _ h (starts_of_head? hInput)) fun g hg rest' hHead => ?_
    obtain ⟨s, hError⟩ := hRun g hg rest' hHead
    exact ⟨s, bind_of_error hError⟩
  | @ended a taken rest h hRun =>
    -- what the first part leaves is any list with the same first token, hence the second
    -- decides on it
    have hLater := hNext a taken rest.head? h (leads_of_head? hInput) rest rfl
    have hFirst := fun (g : Nat) (hg : fuel ≤ g) (rest' : List Token)
      (hHead : rest'.head? = rest.head?) =>
        bind_of_ok (f := fun a => k a g) (hRun g hg rest' hHead)
    generalize rest = rest₀ at hLater hFirst
    cases hLater with
    | dry s hRun' => exact .dry s ((hFirst fuel (Nat.le_refl _) _ rfl).trans hRun')
    | ended taken' h' hRun' =>
      rw [← List.append_assoc]
      refine .ended (taken ++ taken') (by rw [← List.append_assoc]; exact h') ?_
      intro g hg rest' hHead
      rw [List.append_assoc]
      exact (hFirst g hg _ (head?_append_congr taken' hHead)).trans (hRun' g hg rest' hHead)
    | failed expected taken' h' hRun' =>
      rw [← List.append_assoc]
      refine .failed expected (taken ++ taken') (by rw [← List.append_assoc]; exact h') ?_
      intro g hg rest' hHead
      obtain ⟨s, hError⟩ := hRun' g hg rest' hHead
      rw [List.append_assoc]
      exact ⟨s, (hFirst g hg _ (head?_append_congr taken' hHead)).trans hError⟩

-- ---------------------------------------------------------------------------
-- Single tokens
-- ---------------------------------------------------------------------------

section Tokens

variable {p : Scan α} {a : α} {k : α → Nat → Scan β}
  {post' : β → List Token → Option Token → Prop} {stuck' : List Token → Prop}

/-- A step that only looks at the token in front. -/
theorem look (hp : ∀ tokens, tokens.head? = start →
      p (.ofTokens tokens line) = .ok a (.ofTokens tokens line))
    (h : Decides line fuel start before (k a) post' stuck') :
    Decides line fuel start before (fun g => p >>= fun a => k a g) post' stuck' := by
  -- the step is a rule of its own that takes nothing
  have hLook : Decides line fuel start [] (fun _ => p)
      (fun b taken next => b = a ∧ taken = [] ∧ next = start) (fun _ => False) := by
    intro input hInput
    exact .ended [] ⟨rfl, rfl, hInput⟩ fun _ _ rest' hHead => hp rest' (hHead.trans hInput)
  refine hLook.bind (fun _ hFalse => hFalse.elim) ?_
  rintro _ _ _ ⟨rfl, rfl, rfl⟩ _
  rw [List.append_nil]
  exact h

/-- A step that takes the token in front. -/
theorem take {token : Token} (hp : ∀ rest,
      p (.ofTokens (token :: rest) line) = .ok a (.ofTokens rest line))
    (h : ∀ next, Decides line fuel next (before ++ [token]) (k a) post' stuck') :
    Decides line fuel (some token) before (fun g => p >>= fun a => k a g) post' stuck' := by
  -- the step is a rule of its own that takes just this token
  have hTake : Decides line fuel (some token) [] (fun _ => p)
      (fun b taken _ => b = a ∧ taken = [token]) (fun _ => False) := by
    intro input hInput
    cases input with
    | nil => cases hInput
    | cons first rest =>
      cases hInput
      exact .ended [token] ⟨rfl, rfl⟩ fun _ _ rest' _ => hp rest'
  refine hTake.bind (fun _ hFalse => hFalse.elim) ?_
  rintro _ _ next ⟨rfl, rfl⟩ _
  exact h next

/-- A step that fails at the token in front. -/
theorem refuse (expected : Expectation) (hp : ∀ tokens, tokens.head? = start → ∃ s,
      p (.ofTokens tokens line) = .error (.fault (.unexpected (front line start) expected)) s)
    (h : stuck' before) :
    Decides line fuel start before (fun g => p >>= fun a => k a g) post' stuck' := by
  -- the step is a rule of its own that is stuck at once
  have hRefuse : Decides line fuel start [] (fun _ => p) (fun _ _ _ => False)
      (fun taken => taken = []) := by
    intro input hInput
    refine .failed expected [] rfl fun _ _ rest' hHead => ?_
    rw [hInput]
    exact hp rest' (hHead.trans hInput)
  refine hRefuse.bind ?_ (fun _ _ _ hFalse => hFalse.elim)
  rintro _ rfl _
  rw [List.append_nil]
  exact h

end Tokens

end Decides

section Scanner

variable {line : Nat} {start : Option Token} {tokens : List Token}

/-- A look ahead sees the first token. -/
theorem peek_ofTokens (h : tokens.head? = start) :
    Scanner.peek 0 (.ofTokens tokens line) = .ok (front line start) (.ofTokens tokens line) := by
  cases tokens <;> cases h <;> rfl

/-- A further look ahead sees the token behind it. -/
theorem peek_one_ofTokens (token : Token) (tokens : List Token) :
    Scanner.peek 1 (.ofTokens (token :: tokens) line) =
      .ok (front line tokens.head?) (.ofTokens (token :: tokens) line) := by
  cases tokens <;> rfl

/-- The first token can be taken. -/
theorem next_ofTokens (token : Token) (tokens : List Token) :
    Scanner.next (.ofTokens (token :: tokens) line) = .ok token (.ofTokens tokens line) :=
  rfl

/-- Also the end of the input can be taken, as often as one likes. -/
theorem exists_next_ofTokens (h : tokens.head? = start) :
    ∃ s, Scanner.next (.ofTokens tokens line) = .ok (front line start) s := by
  cases tokens <;> cases h <;> exact ⟨_, rfl⟩

/-- A check compares the kind of the first token. -/
theorem check_ofTokens (kind : TokenKind) (h : tokens.head? = start) :
    (Parse.check kind : Scan Bool) (.ofTokens tokens line) =
      .ok ((front line start).kind == kind) (.ofTokens tokens line) := by
  rw [Parse.check, TokenSource.peek_scan, bind_of_ok (peek_ofTokens h)]
  rfl

/-- Only a token that is there is of a kind other than the end of the
input. -/
theorem eq_some_of_front {kind : TokenKind} (hKind : kind ≠ .eof)
    (h : (front line start).kind = kind) : ∃ l, start = some ⟨kind, l⟩ := by
  cases start with
  | none => exact absurd h.symm hKind
  | some token => exact ⟨token.line, by rw [← h]; rfl⟩

end Scanner

namespace Decides

variable {line fuel : Nat} {start : Option Token} {before : List Token}
  {post : α → List Token → Option Token → Prop} {stuck : List Token → Prop}

/-- A look ahead goes on with what is in front. -/
theorem peek {k : Token → Nat → Scan α}
    (h : Decides line fuel start before (k (front line start)) post stuck) :
    Decides line fuel start before (fun g => Scanner.peek 0 >>= fun token => k token g) post
      stuck :=
  look (fun _ hTokens => peek_ofTokens hTokens) h

/-- A token that is there is taken and the rule goes on behind it. -/
theorem next {k : Token → Nat → Scan α} {token : Token}
    (h : ∀ next, Decides line fuel next (before ++ [token]) (k token) post stuck) :
    Decides line fuel (some token) before (fun g => Scanner.next >>= fun token => k token g) post
      stuck :=
  take (fun rest => next_ofTokens token rest) h

/-- A token that is taken only to be refused counts as not taken. -/
theorem nextUnexpected {k : Token → Nat → Scan α} {expected : Expectation}
    (hk : ∀ g, k (front line start) g = Parse.unexpected (front line start) expected)
    (h : stuck before) :
    Decides line fuel start before (fun g => Scanner.next >>= fun token => k token g) post
      stuck := by
  intro input hInput
  refine .failed expected [] (by rw [List.append_nil]; exact h) fun g _ rest' hHead => ?_
  obtain ⟨s, hNext⟩ := @exists_next_ofTokens line start rest' (hHead.trans hInput)
  refine ⟨s, (bind_of_ok hNext).trans ?_⟩
  rw [hInput, hk]
  rfl

/-- A check goes on with what it finds. -/
theorem check {kind : TokenKind} {k : Bool → Nat → Scan α}
    (h : Decides line fuel start before (k ((front line start).kind == kind)) post stuck) :
    Decides line fuel start before (fun g => Parse.check kind >>= fun found => k found g) post
      stuck :=
  look (fun _ hTokens => check_ofTokens kind hTokens) h

/-- A token that may be there is taken if it is in front, and passed over if
not. -/
theorem accept {kind : TokenKind} (hKind : kind ≠ .eof) {k : Bool → Nat → Scan α}
    (hYes : ∀ l, start = some ⟨kind, l⟩ → ∀ next,
      Decides line fuel next (before ++ [⟨kind, l⟩]) (k true) post stuck)
    (hNo : (front line start).kind ≠ kind → Decides line fuel start before (k false) post stuck) :
    Decides line fuel start before (fun g => Parse.accept kind >>= fun found => k found g) post
      stuck := by
  by_cases hFound : (front line start).kind = kind
  · obtain ⟨l, rfl⟩ := eq_some_of_front hKind hFound
    refine take (fun rest => ?_) (hYes l rfl)
    have hCheck : (Parse.check kind : Scan Bool) (.ofTokens (⟨kind, l⟩ :: rest) line) =
        .ok true (.ofTokens (⟨kind, l⟩ :: rest) line) := by
      rw [check_ofTokens kind (show _ = some ⟨kind, l⟩ from rfl), hFound, beq_self_eq_true]
    rw [Parse.accept, bind_of_ok hCheck, if_pos rfl, TokenSource.next_scan,
      bind_of_ok (next_ofTokens _ rest)]
    rfl
  · refine look (fun tokens hTokens => ?_) (hNo hFound)
    rw [Parse.accept, bind_of_ok (check_ofTokens kind hTokens), if_neg (mt eq_of_beq hFound)]
    rfl

/-- A token that has to be there is taken, or the rule is stuck where it stands. -/
theorem require {kind : TokenKind} (hKind : kind ≠ .eof) {expected : Expectation}
    {k : Nat → Scan α} (hStuck : stuck before)
    (hNext : ∀ l, start = some ⟨kind, l⟩ → ∀ next,
      Decides line fuel next (before ++ [⟨kind, l⟩]) k post stuck) :
    Decides line fuel start before (fun g => Parse.require kind expected >>= fun _ => k g) post
      stuck := by
  by_cases hFound : (front line start).kind = kind
  · obtain ⟨l, rfl⟩ := eq_some_of_front hKind hFound
    refine take (a := ()) (fun rest => ?_) (hNext l rfl)
    rw [Parse.require, TokenSource.next_scan, bind_of_ok (next_ofTokens _ rest),
      if_pos (beq_self_eq_true kind)]
    rfl
  · refine refuse expected (fun tokens hTokens => ?_) hStuck
    obtain ⟨s, hNext⟩ := @exists_next_ofTokens line start tokens hTokens
    refine ⟨s, ?_⟩
    rw [Parse.require, TokenSource.next_scan, bind_of_ok hNext, if_neg (mt eq_of_beq hFound)]
    rfl

/-- A name that has to be there is taken, or the rule is stuck where it stands. -/
theorem requireName {expected : Expectation} {k : String → Nat → Scan α} (hStuck : stuck before)
    (hNext : ∀ x l, start = some ⟨.identifier x, l⟩ → ∀ next,
      Decides line fuel next (before ++ [⟨.identifier x, l⟩]) (k x) post stuck) :
    Decides line fuel start before (fun g => Parse.requireName expected >>= fun x => k x g) post
      stuck := by
  by_cases hFound : ∃ x, (front line start).kind = .identifier x
  · obtain ⟨x, hx⟩ := hFound
    have hName : TokenKind.identifier x ≠ .eof := nofun
    obtain ⟨l, rfl⟩ := eq_some_of_front hName hx
    -- the name is in front, so that it is taken
    refine take (fun rest => ?_) (hNext x l rfl)
    rw [Parse.requireName, TokenSource.next_scan, bind_of_ok (next_ofTokens _ rest)]
    rfl
  -- no name is in front, and whatever is, is refused
  · refine refuse expected (fun tokens hTokens => ?_) hStuck
    obtain ⟨s, hNext⟩ := @exists_next_ofTokens line start tokens hTokens
    refine ⟨s, ?_⟩
    rw [Parse.requireName, TokenSource.next_scan, bind_of_ok hNext]
    cases hKind : (front line start).kind with
    | identifier x => exact absurd ⟨x, hKind⟩ hFound
    | _ => rfl

/-- A block ends with its keyword and a semicolon; the rule may get stuck in
front of either. -/
theorem blockEnd {expected : Expectation} {k : Nat → Scan α} (hStuck : stuck before)
    (hStuck' : ∀ l, start = some ⟨.keyword .endWord, l⟩ →
      stuck (before ++ [⟨.keyword .endWord, l⟩]))
    (hNext : ∀ l l', start = some ⟨.keyword .endWord, l⟩ → ∀ next, Decides line fuel next
      (before ++ [⟨.keyword .endWord, l⟩] ++ [⟨.separator .semicolon, l'⟩]) k post stuck) :
    Decides line fuel start before (fun g => Parse.blockEnd expected >>= fun _ => k g) post
      stuck := by
  refine congr (fun g => by rw [Parse.blockEnd, bind_assoc]) ?_
  refine require (by simp) hStuck fun l hEnd next => ?_
  exact require (by simp) (hStuck' l hEnd) fun l' _ next => hNext l l' hEnd next

end Decides

end Scriptlet
