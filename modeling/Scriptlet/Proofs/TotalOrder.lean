import Mathlib
import Scriptlet.Proofs.ExactArithmetic

/-!
# Scriptlet — one order for five comparisons

The five comparison operators are tests of one order: integers by size, texts by
code point. Values of one type are always comparable, and values of different
types never, except that they are not equal.

* `Value.Less` — the order of the values of each type;
* `Value.compares_of_order?`, `Value.exists_order?` — what the comparison of two
  values says about it;
* `Operator.apply_of_test?` — each operator is a test of that comparison;
* `Operator.comparisons_form_total_orders` — the main result.
-/

namespace Scriptlet

-- ---------------------------------------------------------------------------
-- The order
-- ---------------------------------------------------------------------------

/-- A common beginning does not change the order of two lists of characters. -/
theorem append_lt_append_iff (before s t : List Char) : before ++ s < before ++ t ↔ s < t := by
  -- induction on the common beginning, one character at a time
  induction before with
  | nil => rfl
  | cons c before ih =>
    rw [List.cons_append, List.cons_append, List.cons_lt_cons_iff, ih]
    simp

namespace Value

/-- The values have one type, and the first comes before the second. -/
def Less : Value → Value → Prop
  | .int a, .int b => a.toInt < b.toInt
  | .text s, .text t => s < t
  | _, _ => False

variable {x y z : Value}

theorem Less.asymm (h : x.Less y) : ¬y.Less x := by
  cases x <;> cases y <;> first | exact lt_asymm h | cases h

theorem Less.trans (h : x.Less y) (h' : y.Less z) : x.Less z := by
  cases x <;> cases y <;> cases z <;> first | exact lt_trans h h' | cases h | cases h'

/-- The order of the values of each type. Those of different types are not
related. -/
instance : PartialOrder Value where
  le x y := x = y ∨ x.Less y
  lt := Less
  le_refl _ := Or.inl rfl
  le_trans x y z := by
    rintro (rfl | h) (rfl | h')
    · exact Or.inl rfl
    · exact Or.inr h'
    · exact Or.inr h
    · exact Or.inr (h.trans h')
  -- if both values come before one another, that contradicts `Less.asymm`
  le_antisymm x y := by
    rintro (rfl | h) (h' | h')
    · rfl
    · rfl
    · exact h'.symm
    · exact absurd h' h.asymm
  lt_iff_le_not_ge x y := by
    constructor
    · intro h
      refine ⟨Or.inr h, ?_⟩
      rintro (rfl | h')
      · exact h.asymm h
      · exact h.asymm h'
    · rintro ⟨rfl | h, hNot⟩
      · exact absurd (Or.inl rfl) hNot
      · exact h

/-- The comparison of two values is right about their order. -/
theorem compares_of_order? {order : Ordering} (h : x.order? y = some order) :
    order.Compares x y := by
  -- only values of one type have an order at all
  cases x <;> cases y <;> cases h
  case int.int a b =>
    rcases lt_trichotomy a.toInt b.toInt with hLess | hSame | hLess
    · rw [compare_lt_iff_lt.mpr hLess]
      exact hLess
    · rw [compare_eq_iff_eq.mpr hSame]
      exact congrArg int (Int64.toInt_inj.mp hSame)
    · rw [compare_gt_iff_gt.mpr hLess]
      exact hLess
  case text.text s t =>
    split_ifs with hLess hSame
    · exact hLess
    · exact congrArg text hSame
    · exact (lt_or_gt_of_ne hSame).resolve_left hLess

/-- Values of one type are comparable. -/
theorem exists_order? (h : x.type = y.type) : ∃ order, x.order? y = some order := by
  cases x <;> cases y <;> first | exact ⟨_, rfl⟩ | cases h

/-- Values of different types are not comparable. -/
theorem order?_of_type_ne (h : x.type ≠ y.type) : x.order? y = none := by
  cases x <;> cases y <;> first | rfl | exact absurd rfl h

/-- A text is less than another if it ends where they differ, or has the lower
code point there. -/
theorem text_less_append_iff {before s t : String} :
    (text (before ++ s)).Less (text (before ++ t)) ↔ s.toList < t.toList := by
  rw [Less, String.lt_iff, String.toList_append, String.toList_append, append_lt_append_iff]

/-- A common beginning does not change the comparison of two texts. -/
theorem order?_text_append (before s t : String) :
    order? (.text (before ++ s)) (.text (before ++ t)) = order? (.text s) (.text t) := by
  have hLess : before ++ s < before ++ t ↔ s < t :=
    text_less_append_iff.trans String.lt_iff.symm
  have hSame : before ++ s = before ++ t ↔ s = t := by
    rw [← String.toList_inj, ← String.toList_inj, String.toList_append, String.toList_append,
      List.append_cancel_left_eq]
  rw [order?, order?]
  simp only [hLess, hSame]

end Value

-- ---------------------------------------------------------------------------
-- The operators
-- ---------------------------------------------------------------------------

namespace Operator

/-- The orders of its operands for which a comparison holds. -/
def test? : Operator → Option (Ordering → Bool)
  | less => some (· == .lt)
  | greater => some (· == .gt)
  | lessEqual => some (· != .gt)
  | greaterEqual => some (· != .lt)
  | equal => some (· == .eq)
  | _ => none

/-- The comparison holds: its value is 1. -/
def Holds (op : Operator) (lhs rhs : Value) : Prop :=
  op.apply lhs rhs = .ok (.int 1)

/-- The comparison does not hold: its value is -1. -/
def Denies (op : Operator) (lhs rhs : Value) : Prop :=
  op.apply lhs rhs = .ok (.int (-1))

variable {op : Operator} {x y z : Value} {test : Ordering → Bool} {order : Ordering}

/-- **Comparisons are tests of the order**, equality among them. -/
theorem apply_of_test? (hTest : op.test? = some test) (h : x.order? y = some order) :
    op.apply x y = .ok (.ofBool (test order)) := by
  cases op <;> cases hTest
  -- equality asks for no order, so that the values are the same has to be read off `order`
  case equal =>
    have hSame : (x == y) = (order == .eq) := by
      rw [Bool.eq_iff_iff, beq_iff_eq, beq_iff_eq, (Value.compares_of_order? h).eq_eq]
    rw [apply, hSame]
  all_goals rw [apply, ordering, h]

/-- A comparison of two values that are comparable holds or is denied. -/
theorem holds_denies_iff (op : Operator) (hTest : op.test? = some test)
    (h : x.order? y = some order) :
    (op.Holds x y ↔ test order = true) ∧ (op.Denies x y ↔ test order = false) := by
  rw [Holds, Denies, apply_of_test? hTest h]
  -- the value is 1 or -1, and these differ
  cases test order <;> decide

/-- What the comparisons of two values of one type mean. -/
theorem holds_iff_order (h : x.type = y.type) :
    (less.Holds x y ↔ x < y) ∧ (greater.Holds x y ↔ y < x) ∧ (equal.Holds x y ↔ x = y) ∧
      (lessEqual.Holds x y ↔ x ≤ y) ∧ (greaterEqual.Holds x y ↔ y ≤ x) := by
  obtain ⟨order, hOrder⟩ := Value.exists_order? h
  have hCompares := Value.compares_of_order? hOrder
  -- each operator tests the order for something that `Ordering.Compares` gives a meaning to
  refine ⟨?_, ?_, ?_, ?_, ?_⟩
  · rw [(holds_denies_iff less rfl hOrder).1, beq_iff_eq, hCompares.eq_lt]
  · rw [(holds_denies_iff greater rfl hOrder).1, beq_iff_eq, hCompares.eq_gt]
  · rw [(holds_denies_iff equal rfl hOrder).1, beq_iff_eq, hCompares.eq_eq]
  · rw [(holds_denies_iff lessEqual rfl hOrder).1, bne_iff_ne, hCompares.ne_gt]
  · rw [(holds_denies_iff greaterEqual rfl hOrder).1, bne_iff_ne, hCompares.ne_lt]

/-- Of two values of one type the first is less, the same or greater, and the
operators say so. -/
theorem trichotomy (h : x.type = y.type) :
    (less.Holds x y ∧ equal.Denies x y ∧ greater.Denies x y) ∨
    (less.Denies x y ∧ equal.Holds x y ∧ greater.Denies x y) ∨
    (less.Denies x y ∧ equal.Denies x y ∧ greater.Holds x y) := by
  obtain ⟨order, hOrder⟩ := Value.exists_order? h
  obtain ⟨hLess, hNotLess⟩ := holds_denies_iff less rfl hOrder
  obtain ⟨hEqual, hNotEqual⟩ := holds_denies_iff equal rfl hOrder
  obtain ⟨hGreater, hNotGreater⟩ := holds_denies_iff greater rfl hOrder
  -- each of the three orders fulfils one test and fails the two others
  cases order with
  | lt => exact Or.inl ⟨hLess.mpr rfl, hNotEqual.mpr rfl, hNotGreater.mpr rfl⟩
  | eq => exact Or.inr (Or.inl ⟨hNotLess.mpr rfl, hEqual.mpr rfl, hNotGreater.mpr rfl⟩)
  | gt => exact Or.inr (Or.inr ⟨hNotLess.mpr rfl, hNotEqual.mpr rfl, hGreater.mpr rfl⟩)

/-- The operators with an equality are the converses of those without. -/
theorem converse (h : x.type = y.type) :
    (lessEqual.Holds x y ↔ greater.Denies x y) ∧ (lessEqual.Denies x y ↔ greater.Holds x y) ∧
      (greaterEqual.Holds x y ↔ less.Denies x y) ∧
      (greaterEqual.Denies x y ↔ less.Holds x y) := by
  obtain ⟨order, hOrder⟩ := Value.exists_order? h
  obtain ⟨hLess, hNotLess⟩ := holds_denies_iff less rfl hOrder
  obtain ⟨hGreater, hNotGreater⟩ := holds_denies_iff greater rfl hOrder
  obtain ⟨hLessEqual, hNotLessEqual⟩ := holds_denies_iff lessEqual rfl hOrder
  obtain ⟨hGreaterEqual, hNotGreaterEqual⟩ := holds_denies_iff greaterEqual rfl hOrder
  rw [hLess, hNotLess, hGreater, hNotGreater, hLessEqual, hNotLessEqual, hGreaterEqual,
    hNotGreaterEqual]
  -- both sides are tests of `order`, which has three values
  cases order <;> decide

theorem less_trans (h : x.type = y.type) (h' : y.type = z.type) (hxy : less.Holds x y)
    (hyz : less.Holds y z) : less.Holds x z := by
  rw [(holds_iff_order h).1] at hxy
  rw [(holds_iff_order h').1] at hyz
  exact (holds_iff_order (h.trans h')).1.mpr (hxy.trans hyz)

/-- A common beginning does not change what a comparison of two texts gives. -/
theorem apply_text_append (hTest : op.test? = some test) (before s t : String) :
    op.apply (.text (before ++ s)) (.text (before ++ t)) = op.apply (.text s) (.text t) := by
  obtain ⟨order, hOrder⟩ := Value.exists_order? (x := .text s) (y := .text t) rfl
  -- the common beginning leaves the operator the same order to test
  rw [apply_of_test? hTest hOrder,
    apply_of_test? hTest ((Value.order?_text_append before s t).trans hOrder)]

/-- What decides between two texts with a common beginning. -/
theorem less_text_append_iff {before s t : String} :
    less.Holds (.text (before ++ s)) (.text (before ++ t)) ↔ s.toList < t.toList := by
  have hType : (Value.text (before ++ s)).type = (Value.text (before ++ t)).type := rfl
  rw [(holds_iff_order hType).1]
  exact Value.text_less_append_iff

/-- A proper beginning comes first. -/
theorem less_text_append_of_ne {before t : String} (h : t ≠ "") :
    less.Holds (.text before) (.text (before ++ t)) := by
  -- nothing is left of the shorter text where the other one goes on
  have hEmpty : ("" : String).toList < t.toList := by
    cases hChars : t.toList with
    | nil => exact absurd (String.toList_inj.mp hChars) h
    | cons c cs => exact List.nil_lt_cons c cs
  have hLess : less.Holds (.text (before ++ "")) (.text (before ++ t)) :=
    less_text_append_iff.mpr hEmpty
  rwa [String.append_empty] at hLess

/-- Where two texts first differ, the lower code point comes first. -/
theorem less_text_of_char_lt {before s t : String} {c d : Char} (h : c.toNat < d.toNat) :
    less.Holds (.text (before ++ String.singleton c ++ s))
      (.text (before ++ String.singleton d ++ t)) := by
  rw [String.append_assoc, String.append_assoc, less_text_append_iff, String.toList_append,
    String.toList_append, String.toList_singleton, String.toList_singleton]
  exact List.cons_lt_cons_iff.mpr (Or.inl h)

/-- A comparison that has no order to test is refused, but values that cannot be
compared are not equal. -/
theorem comparison_of_type_ne (h : x.type ≠ y.type) :
    (∀ op ∈ [less, greater, lessEqual, greaterEqual], op.FailsWith .type x y) ∧
      equal.Denies x y := by
  have hNone : x.order? y = none := Value.order?_of_type_ne h
  constructor
  · intro op hOp
    refine ⟨.operandTypes op x.type y.type, ?_, rfl⟩
    -- `fin_cases` leaves one goal for each of the four operators
    fin_cases hOp <;> rw [apply, ordering, hNone, refuse]
  · have hSame : (x == y) = false := by
      rw [beq_eq_false_iff_ne]
      rintro rfl
      exact h rfl
    rw [Denies, apply, hSame]
    rfl

/-- **The comparisons form one total order for each type.** Of two values of one
type exactly one of less, equal and greater holds, and the other operators agree
with them; less is transitive. A common beginning of two texts does not matter; a
proper beginning comes first, and otherwise the first different character
decides. Values of different types have no order and are not equal. -/
theorem comparisons_form_total_orders :
    (∀ x y : Value, x.type = y.type →
      ((less.Holds x y ∧ equal.Denies x y ∧ greater.Denies x y) ∨
        (less.Denies x y ∧ equal.Holds x y ∧ greater.Denies x y) ∨
        (less.Denies x y ∧ equal.Denies x y ∧ greater.Holds x y)) ∧
      (lessEqual.Holds x y ↔ greater.Denies x y) ∧ (lessEqual.Denies x y ↔ greater.Holds x y) ∧
      (greaterEqual.Holds x y ↔ less.Denies x y) ∧ (greaterEqual.Denies x y ↔ less.Holds x y) ∧
      (less.Holds x y ↔ greater.Holds y x)) ∧
    (∀ x y z : Value, x.type = y.type → y.type = z.type →
      less.Holds x y → less.Holds y z → less.Holds x z) ∧
    (∀ before s t : String,
      (∀ op ∈ [less, greater, lessEqual, greaterEqual, equal],
        op.apply (.text (before ++ s)) (.text (before ++ t)) = op.apply (.text s) (.text t)) ∧
      (t ≠ "" → less.Holds (.text before) (.text (before ++ t))) ∧
      (∀ c d : Char, c.toNat < d.toNat →
        less.Holds (.text (before ++ String.singleton c ++ s))
          (.text (before ++ String.singleton d ++ t)))) ∧
    (∀ x y : Value, x.type ≠ y.type →
      (∀ op ∈ [less, greater, lessEqual, greaterEqual], op.FailsWith .type x y) ∧
        equal.Denies x y) := by
  refine ⟨fun x y h => ?_, fun x y z h h' => less_trans h h', fun before s t => ⟨?_, ?_, ?_⟩,
    fun x y h => comparison_of_type_ne h⟩
  -- duality is that of the order, read from both sides
  · obtain ⟨hLessEqual, hNotLessEqual, hGreaterEqual, hNotGreaterEqual⟩ := converse h
    refine ⟨trichotomy h, hLessEqual, hNotLessEqual, hGreaterEqual, hNotGreaterEqual, ?_⟩
    exact (holds_iff_order h).1.trans (holds_iff_order h.symm).2.1.symm
  · intro op hOp
    fin_cases hOp <;> exact apply_text_append rfl before s t
  · exact less_text_append_of_ne
  · exact fun c d => less_text_of_char_lt

/-- Code points decide, also beyond those of 16 bits. -/
example : less.apply (.text "x\uffff") (.text "x😀") = .ok (.int 1) := by
  decide

end Operator

end Scriptlet
