import Mathlib
import Scriptlet.Diagnostic
import Scriptlet.Value.Binary

/-!
# Scriptlet — exact arithmetic

Arithmetic on integers gives the exact result or fails. A sum, a difference or
a product fails if it does not fit into 64 bits. A quotient goes toward zero and
fails if the divisor is zero or the quotient does not fit, which happens for one
pair of operands only; a remainder fails on the same operands, although the
remainder of that pair would be zero.

* `fitsInt64_tdiv_iff` — the one quotient that does not fit;
* `fitsInt64_tmod` — every remainder fits;
* `Operator.exact_or_fails` — sums, differences and products;
* `Operator.apply_of_divided`, `Operator.failsWith_iff_undivided` — quotients and
  remainders;
* `Operator.arithmetic_exact_or_fails` — for all operands, texts included.
-/

namespace Scriptlet

-- ---------------------------------------------------------------------------
-- What fits
-- ---------------------------------------------------------------------------

/-- The range of 64-bit integers as powers of two. -/
theorem fitsInt64_iff_pow {n : Int} : FitsInt64 n ↔ -2 ^ 63 ≤ n ∧ n < 2 ^ 63 := by
  rw [fitsInt64_iff]
  norm_num
  omega

/-- A quotient of 64-bit integers fits, unless the least one is divided by -1. -/
theorem fitsInt64_tdiv_iff {a b : Int} (ha : FitsInt64 a) (hb : b ≠ 0) :
    FitsInt64 (a.tdiv b) ↔ ¬(a = -2 ^ 63 ∧ b = -1) := by
  rw [fitsInt64_iff] at ha ⊢
  have hSize : (a.tdiv b).natAbs = a.natAbs / b.natAbs := Int.natAbs_tdiv a b
  rcases Nat.lt_or_ge 1 b.natAbs with hLarge | hUnit
  · -- a divisor other than 1 and -1 at least halves the dividend
    have hHalf : a.natAbs / b.natAbs ≤ a.natAbs / 2 := Nat.div_le_div_left hLarge (by decide)
    omega
  · obtain rfl | rfl : b = 1 ∨ b = -1 := by omega
    · rw [Int.tdiv_one]
      omega
    · rw [Int.tdiv_neg, Int.tdiv_one]
      omega

/-- A remainder is smaller than the divisor. -/
theorem natAbs_tmod_lt {a b : Int} (hb : b ≠ 0) : (a.tmod b).natAbs < b.natAbs := by
  rw [Int.natAbs_tmod]
  exact Nat.mod_lt _ (by omega)

/-- A remainder that is not zero has the sign of the dividend. -/
theorem tmod_eq_zero_or_sign (a b : Int) : a.tmod b = 0 ∨ (a.tmod b).sign = a.sign := by
  rw [Int.sign_tmod]
  -- where the divisor divides, the remainder is zero and has no sign to compare
  by_cases h : b ∣ a
  · exact Or.inl (Int.tmod_eq_zero_of_dvd h)
  · exact Or.inr (if_neg h)

/-- Every remainder of 64-bit integers fits. -/
theorem fitsInt64_tmod {a b : Int} (h : FitsInt64 b) (hb : b ≠ 0) : FitsInt64 (a.tmod b) := by
  rw [fitsInt64_iff] at h ⊢
  -- less than the divisor in size, so within the bounds that the divisor is in
  have hLess : (a.tmod b).natAbs < b.natAbs := natAbs_tmod_lt hb
  omega

-- ---------------------------------------------------------------------------
-- One operator
-- ---------------------------------------------------------------------------

namespace Operator

/-- The operator refuses these operands with a fault of the given kind. -/
def FailsWith (op : Operator) (kind : DiagnosticKind) (lhs rhs : Value) : Prop :=
  ∃ cause, op.apply lhs rhs = .error cause ∧ cause.kind = kind

/-- The operation on unbounded integers that an operator stands for, where that
is defined for all of them. -/
def total? : Operator → Option (Int → Int → Int)
  | add => some (· + ·)
  | sub => some (· - ·)
  | mul => some (· * ·)
  | _ => none

/-- There is no quotient of the integers, or it does not fit. -/
def Undivided (a b : Int64) : Prop :=
  b.toInt = 0 ∨ (a.toInt = -2 ^ 63 ∧ b.toInt = -1)

variable {op : Operator}

/-- A result that fits is the value. -/
theorem exact_of_fits (op : Operator) {result : Int} (h : FitsInt64 result) :
    ∃ n : Int64, n.toInt = result ∧ op.exact result = .ok (.int n) := by
  have hRead : int64? result = some (.ofInt result) := if_pos h
  refine ⟨.ofInt result, int64?_eq_some_iff.mp hRead, ?_⟩
  rw [exact, hRead]

theorem exact_of_not_fits {result : Int} (h : ¬FitsInt64 result) :
    op.exact result = .error (.overflow op) := by
  have hRead : int64? result = none := if_neg h
  rw [exact, hRead]

/-- **Sums, differences and products are computed exactly.** -/
theorem apply_of_total? {f : Int → Int → Int} (h : op.total? = some f) (a b : Int64) :
    op.apply (.int a) (.int b) = op.exact (f a.toInt b.toInt) := by
  cases op <;> cases h <;> rfl

theorem not_failsWith_of_ok {kind : DiagnosticKind} {lhs rhs value : Value}
    (h : op.apply lhs rhs = .ok value) : ¬op.FailsWith kind lhs rhs := by
  rintro ⟨cause, hCause, _⟩
  rw [h] at hCause
  cases hCause

/-- An operator that gives an exact result where it fits, and overflows where it
does not, does one or the other. -/
theorem exact_or_fails {result : Int} {lhs rhs : Value}
    (h : op.apply lhs rhs = op.exact result) :
    ((∃ n : Int64, n.toInt = result ∧ op.apply lhs rhs = .ok (.int n)) ↔
      -2 ^ 63 ≤ result ∧ result < 2 ^ 63) ∧
    (op.FailsWith .arithmetic lhs rhs ↔ ¬(-2 ^ 63 ≤ result ∧ result < 2 ^ 63)) := by
  rw [← fitsInt64_iff_pow]
  -- either side of both equivalences is true or false with `hFits`
  by_cases hFits : FitsInt64 result
  · obtain ⟨n, hn, hExact⟩ := exact_of_fits op hFits
    have hOk : op.apply lhs rhs = .ok (.int n) := h.trans hExact
    exact ⟨iff_of_true ⟨n, hn, hOk⟩ hFits,
      iff_of_false (not_failsWith_of_ok hOk) (not_not_intro hFits)⟩
  · have hFails : op.FailsWith .arithmetic lhs rhs := ⟨_, h.trans (exact_of_not_fits hFits), rfl⟩
    refine ⟨iff_of_false ?_ hFits, iff_of_true hFails hFits⟩
    rintro ⟨n, _, hOk⟩
    exact not_failsWith_of_ok hOk hFails

-- ---------------------------------------------------------------------------
-- Division
-- ---------------------------------------------------------------------------

variable {a b : Int64}

/-- Integers are divided if the divisor is not zero and the quotient fits. -/
theorem not_undivided_iff : ¬Undivided a b ↔ b.toInt ≠ 0 ∧ FitsInt64 (a.toInt.tdiv b.toInt) := by
  rw [Undivided, not_or]
  refine and_congr_right fun hb => ?_
  rw [fitsInt64_tdiv_iff (fitsInt64_toInt a) hb]

/-- **Where there is a quotient that fits, division gives it and the remainder.** -/
theorem apply_of_divided (h : ¬Undivided a b) :
    ∃ q r : Int64, q.toInt = a.toInt.tdiv b.toInt ∧ r.toInt = a.toInt.tmod b.toInt ∧
      div.apply (.int a) (.int b) = .ok (.int q) ∧
      mod.apply (.int a) (.int b) = .ok (.int r) := by
  obtain ⟨hb, hFits⟩ := not_undivided_iff.mp h
  obtain ⟨q, hq, hQuotient⟩ := exact_of_fits div hFits
  obtain ⟨r, hr, hRemainder⟩ :=
    exact_of_fits mod (fitsInt64_tmod (a := a.toInt) (fitsInt64_toInt b) hb)
  refine ⟨q, r, hq, hr, ?_, ?_⟩
  · rw [apply, arithmetic, quotient, if_neg hb, hQuotient]
  · rw [apply, arithmetic, remainder, if_neg hb, if_pos hFits, hRemainder]

/-- **Division and remainder fail on the same operands.** -/
theorem failsWith_of_undivided (h : Undivided a b) :
    div.FailsWith .arithmetic (.int a) (.int b) ∧ mod.FailsWith .arithmetic (.int a) (.int b) := by
  -- a divisor of zero is refused first, each operator with a cause of its own
  by_cases hb : b.toInt = 0
  · exact ⟨⟨.divisionByZero, if_pos hb, rfl⟩, ⟨.moduloByZero, if_pos hb, rfl⟩⟩
  · -- the divisor is not zero, so it is the quotient that does not fit
    have hNot : ¬FitsInt64 (a.toInt.tdiv b.toInt) :=
      fun hFits => not_undivided_iff.mpr ⟨hb, hFits⟩ h
    refine ⟨⟨.overflow div, ?_, rfl⟩, ⟨.overflow mod, ?_, rfl⟩⟩
    · rw [apply, arithmetic, quotient, if_neg hb, exact_of_not_fits hNot]
    · rw [apply, arithmetic, remainder, if_neg hb, if_neg hNot]

/-- The pairs on which division fails are the same for both operators. -/
theorem failsWith_iff_undivided :
    (div.FailsWith .arithmetic (.int a) (.int b) ↔ Undivided a b) ∧
    (mod.FailsWith .arithmetic (.int a) (.int b) ↔ Undivided a b) := by
  by_cases h : Undivided a b
  · obtain ⟨hDiv, hMod⟩ := failsWith_of_undivided h
    exact ⟨iff_of_true hDiv h, iff_of_true hMod h⟩
  -- both operators have a value, so neither refuses
  · obtain ⟨q, r, _, _, hDiv, hMod⟩ := apply_of_divided h
    exact ⟨iff_of_false (not_failsWith_of_ok hDiv) h, iff_of_false (not_failsWith_of_ok hMod) h⟩

-- ---------------------------------------------------------------------------
-- Texts
-- ---------------------------------------------------------------------------

variable {lhs rhs : Value}

/-- Arithmetic refuses texts, on either side. -/
theorem arithmetic_of_text {compute : Int → Int → Except Cause Value}
    (h : lhs.type = .text ∨ rhs.type = .text) :
    op.arithmetic compute lhs rhs = .error (.operandTypes op lhs.type rhs.type) := by
  -- a case split on the values, since integers on both sides are against `h`
  cases lhs <;> cases rhs
  case int.int => simp [Value.type] at h
  all_goals rfl

/-- Addition joins what the values look like if one of them is a text. -/
theorem add_of_text (h : lhs.type = .text ∨ rhs.type = .text) :
    add.apply lhs rhs = .ok (.text (lhs.render ++ rhs.render)) := by
  cases lhs <;> cases rhs
  case int.int => simp [Value.type] at h
  all_goals rfl

/-- Subtraction, multiplication, division and remainder refuse texts. -/
theorem failsWith_type_of_text (hOp : op ∈ [sub, mul, div, mod])
    (h : lhs.type = .text ∨ rhs.type = .text) : op.FailsWith .type lhs rhs := by
  refine ⟨.operandTypes op lhs.type rhs.type, ?_, rfl⟩
  fin_cases hOp
  all_goals
    simp only [apply]
    exact arithmetic_of_text h

-- ---------------------------------------------------------------------------
-- All operands
-- ---------------------------------------------------------------------------

/-- **Arithmetic gives the exact result or fails.** Sums, differences and
products of integers are given exactly where they fit into 64 bits, and fail
otherwise. Quotient and remainder fail where the divisor is zero and where the
least integer is divided by -1; otherwise they divide the integer exactly, and
the remainder is smaller than the divisor and has the sign of the dividend. A
text is joined to anything by addition, and refused by the other operators. -/
theorem arithmetic_exact_or_fails :
    (∀ op f, total? op = some f → ∀ a b : Int64,
      let result := f a.toInt b.toInt
      ((∃ n : Int64, n.toInt = result ∧ op.apply (.int a) (.int b) = .ok (.int n)) ↔
        -2 ^ 63 ≤ result ∧ result < 2 ^ 63) ∧
      (op.FailsWith .arithmetic (.int a) (.int b) ↔ ¬(-2 ^ 63 ≤ result ∧ result < 2 ^ 63))) ∧
    (∀ a b : Int64,
      (div.FailsWith .arithmetic (.int a) (.int b) ↔ Undivided a b) ∧
      (mod.FailsWith .arithmetic (.int a) (.int b) ↔ Undivided a b) ∧
      (¬Undivided a b → ∃ q r : Int64,
        div.apply (.int a) (.int b) = .ok (.int q) ∧
        mod.apply (.int a) (.int b) = .ok (.int r) ∧
        a.toInt = q.toInt * b.toInt + r.toInt ∧
        |r.toInt| < |b.toInt| ∧
        (r.toInt = 0 ∨ r.toInt.sign = a.toInt.sign))) ∧
    (∀ lhs rhs : Value, lhs.type = .text ∨ rhs.type = .text →
      (∀ op ∈ [sub, mul, div, mod], op.FailsWith .type lhs rhs) ∧
      add.apply lhs rhs = .ok (.text (lhs.render ++ rhs.render))) := by
  refine ⟨fun op f h a b => exact_or_fails (apply_of_total? h a b), fun a b => ?_,
    fun lhs rhs h => ⟨fun op hOp => failsWith_type_of_text hOp h, add_of_text h⟩⟩
  obtain ⟨hDiv, hMod⟩ := failsWith_iff_undivided (a := a) (b := b)
  refine ⟨hDiv, hMod, fun h => ?_⟩
  obtain ⟨q, r, hq, hr, hQuotient, hRemainder⟩ := apply_of_divided h
  refine ⟨q, r, hQuotient, hRemainder, ?_, ?_, ?_⟩
  -- dividend, divisor, quotient and remainder belong together as in unbounded integers
  · rw [hq, hr, Int.tdiv_mul_add_tmod]
  · rw [hr, Int.abs_eq_natAbs, Int.abs_eq_natAbs, Int.ofNat_lt]
    exact natAbs_tmod_lt (not_undivided_iff.mp h).1
  · rw [hr]
    exact tmod_eq_zero_or_sign a.toInt b.toInt

/-- The remainder of the least integer by -1 would be zero, but is refused. -/
example : mod.apply (.int Int64.minValue) (.int (-1)) = .error (.overflow mod) := by
  decide

end Operator

end Scriptlet
