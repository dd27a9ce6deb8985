import Scriptlet.Proofs.Lockstep
import Scriptlet.Registry.Link

/-!
# Scriptlet — the limit on active calls

A run is bounded twice: by its fuel and by the number of calls that may be
active. An outcome that names neither bound is the program's own, and both
bounds are then nothing but cut-offs: with more fuel and a higher limit the run
repeats itself, step for step.

* `Simulation.of_below` — a run under a higher limit goes along with a run
  under a lower one until the latter is cut off;
* `Script.run_of_higher_limit` — so a settled outcome stays, for whole programs
  and for calls from outside, together with everything else a run leaves
  behind.
-/

namespace Scriptlet

variable {σ α : Type}

-- ---------------------------------------------------------------------------
-- Settled outcomes
-- ---------------------------------------------------------------------------

/-- Whether a run was stopped at one of its bounds. -/
def Stop.cutsOff : Stop → Bool
  | .fault f => f.diagnostic.kind == .resourceExhausted
  | .outOfFuel => true

/-- Whether an outcome is the program's own, and not that of a bound. -/
def settled : Except Stop α → Bool
  | .ok _ => true
  | .error stop => !stop.cutsOff

theorem not_settled {stop : Stop} (hCut : stop.cutsOff = true) :
    ¬ settled (.error stop : Except Stop α) = true := by
  intro hSettled
  rw [settled, hCut] at hSettled
  cases hSettled

-- ---------------------------------------------------------------------------
-- Two limits
-- ---------------------------------------------------------------------------

/-- The two contexts know the same functions, and the second allows at least
as many active calls. -/
structure Context.Below (context₁ context₂ : Context σ) : Prop where
  resolve : ∀ own name, context₁.resolve own name = context₂.resolve own name
  limit : context₁.maxDepth ≤ context₂.maxDepth

theorem Lockstep.self {escape : Stop → Prop} (m : Eval σ α) :
    Lockstep escape (fun s t => s = t) m m := by
  rintro s _ rfl
  cases m s with
  | ok a s' => exact .ok rfl
  | error stop s' => exact .error rfl

/-- **The limit does nothing but cut off**: until that happens, the two runs
are the same. -/
theorem Simulation.of_below {context₁ context₂ : Context σ} (h : context₁.Below context₂) :
    Simulation (fun stop => stop.cutsOff = true) (fun _ => True) context₁ context₂
      Watch.idle Watch.idle (fun _ s t => s = t) where
  get := by
    rintro _ s _ rfl name
    rfl
  set := by
    rintro _ s _ rfl name value
    rfl
  define := fun _ f _ => .self (Eval.define f)
  report := by
    rintro _ s _ rfl event _
    rfl
  host := fun hR _ f _ args line => Lockstep.self (Eval.onWorld (f.invoke args line)) _ _ hR
  resolve := by
    rintro _ s _ rfl name
    exact h.resolve s.chain.main.functions name
  body := fun _ _ _ _ _ _ => trivial
  depth := by
    rintro _ s _ rfl
    rfl
  limit := Or.inr ⟨h.limit, fun _ _ => rfl⟩
  enter := by
    rintro _ s _ rfl _ f args _
    rfl
  leave := by
    rintro _ _ s _ rfl
    rfl
  watch := fun _ _ _ _ hLockstep => hLockstep

/-- Runs that go together from one state end alike, unless the first
escapes. -/
theorem Lockstep.eq_or_escape {escape : Stop → Prop} {m n : Eval σ α}
    (h : Lockstep escape (fun s t => s = t) m n) (s : RunState σ) :
    m s = n s ∨ ∃ stop s', m s = .error stop s' ∧ escape stop := by
  have hEnd := h s s rfl
  -- forget how the two ends came about, since they only matter as ends that are related
  generalize m s = end₁ at hEnd ⊢
  generalize n s = end₂ at hEnd ⊢
  cases hEnd with
  | ok hSame => exact Or.inl (by rw [hSame])
  | error hSame => exact Or.inl (by rw [hSame])
  | escaped hEscape => exact Or.inr ⟨_, _, rfl, hEscape⟩

namespace Context.Below

variable {context₁ context₂ : Context σ} {fuel fuel' : Nat}

/-- Under the higher limit a call ends in the same way, unless it was cut off. -/
theorem call_eq (h : context₁.Below context₂) (hFuel : fuel ≤ fuel') (name : String)
    (args : List Value) (line : Option Nat) (s : RunState σ) :
    context₁.call fuel name args line s = context₂.call fuel' name args line s ∨
      ∃ stop s', context₁.call fuel name args line s = .error stop s' ∧ stop.cutsOff = true := by
  have hLockstep := Context.callWith_lockstep (Simulation.of_below h) (Or.inr ⟨hFuel, rfl⟩) []
    name args line
  rw [Context.callWith_idle, Context.callWith_idle] at hLockstep
  exact hLockstep.eq_or_escape s

/-- Under the higher limit a program ends in the same way, unless it was cut
off. -/
theorem eval_eq (h : context₁.Below context₂) (hFuel : fuel ≤ fuel') (program : Program)
    (s : RunState σ) :
    program.eval context₁ fuel s = program.eval context₂ fuel' s ∨
      ∃ stop s', program.eval context₁ fuel s = .error stop s' ∧ stop.cutsOff = true := by
  have hLockstep := Program.evalWith_lockstep (Simulation.of_below h) (Or.inr ⟨hFuel, rfl⟩)
    program fun _ _ => trivial
  exact hLockstep.eq_or_escape s

/-- A settled run of a script is the same in the second context. -/
theorem run_eq (h : context₁.Below context₂) (hFuel : fuel ≤ fuel') (script : Script)
    (world : World σ) (hSettled : settled (script.run context₁ fuel world).1 = true) :
    script.run context₂ fuel' world = script.run context₁ fuel world := by
  unfold Script.run at hSettled ⊢
  cases hTree : script.tree with
  | none => rfl
  | some program =>
    simp only [hTree] at hSettled ⊢
    rcases h.eval_eq hFuel program (.start world) with hSame | ⟨stop, s', hStop, hCut⟩
    · rw [hSame]
    -- cut off, either by the fuel or by the limit, and so not settled
    · rw [hStop] at hSettled
      cases stop with
      | outOfFuel => exact (not_settled hCut hSettled).elim
      | fault fault => exact (not_settled hCut hSettled).elim

end Context.Below

/-- A settled call from outside is the same in a registry with the same
functions and a higher limit. -/
theorem Registry.call_eq_of_settled {registry₁ registry₂ : Registry σ}
    (h : registry₁.context.Below registry₂.context) {fuel fuel' : Nat} (hFuel : fuel ≤ fuel')
    (name : String) (args : List Value) (world : World σ)
    (hSettled : settled (registry₁.call name args fuel world).1 = true) :
    registry₂.call name args fuel' world = registry₁.call name args fuel world := by
  unfold Registry.call at hSettled ⊢
  rcases h.call_eq hFuel name args none (.start world) with hSame | ⟨stop, s', hStop, hCut⟩
  · rw [hSame]
  -- the call was cut off
  · rw [hStop] at hSettled
    exact (not_settled hCut hSettled).elim

/-- **The limit on active calls is only a cut-off.** If a run under the limit
`d` ends with an outcome that is not that of a bound, then under any higher
limit, and with any fuel not less, the run ends in just the same way: with the
same value or fault, the same functions, the same host calls and host state,
and even the same log. The same holds of calls from outside. -/
theorem Script.run_of_higher_limit {d d' fuel fuel' : Nat} (hLimit : d ≤ d')
    (hFuel : fuel ≤ fuel') (world : World σ) :
    (∀ (script : Script) (registry : Option (Registry σ)),
      settled (script.run ⟨registry, d⟩ fuel world).1 = true →
        script.run ⟨registry, d'⟩ fuel' world = script.run ⟨registry, d⟩ fuel world) ∧
    ∀ (registry : Registry σ) (name : String) (args : List Value),
      settled ({ registry with maxDepth := d }.call name args fuel world).1 = true →
        { registry with maxDepth := d' }.call name args fuel' world =
          { registry with maxDepth := d }.call name args fuel world := by
  constructor
  · intro script registry hSettled
    have hBelow : Context.Below (σ := σ) ⟨registry, d⟩ ⟨registry, d'⟩ := ⟨fun _ _ => rfl, hLimit⟩
    exact hBelow.run_eq hFuel script world hSettled
  · intro registry name args hSettled
    have hBelow : Context.Below { registry with maxDepth := d }.context
        { registry with maxDepth := d' }.context := ⟨fun _ _ => rfl, hLimit⟩
    exact Registry.call_eq_of_settled hBelow hFuel name args world hSettled

/-- Three active calls suffice for `down(2)`, which tells the host about each
call but the last: `def down(n) do if n do note(n); down(n - 1); end; end;`. -/
theorem Script.run_of_higher_limit_down :
    let body : List Stmt := [.branch ⟨none, .ident "n" 1, [], 1⟩
      [.expr ⟨none, .call "note" [⟨none, .ident "n" 1, [], 1⟩] 1, [], 1⟩,
        .expr ⟨none, .call "down" [⟨none, .ident "n" 1, [(.sub, .number 1)], 1⟩] 1, [], 1⟩]
      none 1]
    let note : HostFunction Unit := ⟨"note", fun _ host => (.returned .zero, host)⟩
    let registry : Registry Unit :=
      ⟨⟨[("down", ⟨"down", ["n"], body, 1⟩)]⟩, ⟨[("note", note)]⟩, 3⟩
    let script : Script :=
      ⟨"down(2);", some [.expr ⟨none, .call "down" [⟨none, .number 2, [], 1⟩] 1, [], 1⟩], none⟩
    settled (script.run ⟨some registry, 3⟩ 9 (.start ())).1 = true ∧
    script.run ⟨some registry, 50⟩ 90 (.start ()) =
      script.run ⟨some registry, 3⟩ 9 (.start ()) ∧
    settled (registry.call "down" [.int 2] 9 (.start ())).1 = true ∧
    { registry with maxDepth := 50 }.call "down" [.int 2] 90 (.start ()) =
      registry.call "down" [.int 2] 9 (.start ()) := by
  intro body note registry script
  have hRun : settled (script.run ⟨some registry, 3⟩ 9 (.start ())).1 = true := by
    decide +kernel
  have hCall : settled (registry.call "down" [.int 2] 9 (.start ())).1 = true := by
    decide +kernel
  have hSame := Script.run_of_higher_limit (show 3 ≤ 50 by decide)
    (show 9 ≤ 90 by decide) (World.start ())
  exact ⟨hRun, hSame.1 script (some registry) hRun, hCall, hSame.2 registry "down" [.int 2] hCall⟩

end Scriptlet
