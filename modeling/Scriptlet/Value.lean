/-!
# Scriptlet — values

A value is a 64-bit signed integer or a text. There is no type of truth values: a comparison that
holds gives 1, one that fails gives -1, and a condition holds when its integer is positive.

Numbers are computed and read exactly first and then brought into the range of 64 bits; `int64?`
says which of them are in it.
-/

namespace Scriptlet

-- ---------------------------------------------------------------------------
-- The range of integers
-- ---------------------------------------------------------------------------

/-- The integers that fit into 64 bits. -/
def FitsInt64 (n : Int) : Prop := Int64.minValue.toInt ≤ n ∧ n ≤ Int64.maxValue.toInt

instance (n : Int) : Decidable (FitsInt64 n) :=
  inferInstanceAs (Decidable (_ ∧ _))

/-- The 64-bit integer equal to `n`, if there is one. -/
def int64? (n : Int) : Option Int64 :=
  if FitsInt64 n then some (Int64.ofInt n) else none

/-- Every 64-bit integer fits. -/
theorem fitsInt64_toInt (m : Int64) : FitsInt64 m.toInt :=
  ⟨Int64.minValue_le_toInt m, Int64.toInt_le m⟩

/-- The bounds of 64-bit integers in decimal. -/
theorem fitsInt64_iff {n : Int} :
    FitsInt64 n ↔ -9223372036854775808 ≤ n ∧ n ≤ 9223372036854775807 := by
  rw [FitsInt64, Int64.toInt_minValue, Int64.toInt_maxValue]
  omega

/-- A number fits exactly when it is the value of some 64-bit integer, which is then unique. -/
theorem int64?_eq_some_iff {n : Int} {m : Int64} : int64? n = some m ↔ m.toInt = n := by
  constructor
  · intro h
    by_cases fits : FitsInt64 n
    · rw [int64?, if_pos fits] at h
      rw [← Option.some.inj h]
      have bounds := fitsInt64_iff.1 fits
      exact Int64.toInt_ofInt_of_le (by omega) (by omega)
    · simp [int64?, fits] at h
  · rintro rfl
    rw [int64?, if_pos (fitsInt64_toInt m), Int64.ofInt_toInt]

-- ---------------------------------------------------------------------------
-- Values
-- ---------------------------------------------------------------------------

/-- The two types of values. -/
inductive ValueType where
  | int
  | text
deriving DecidableEq, Repr

/-- The name of a type in messages. -/
def ValueType.name : ValueType → String
  | int => "Int"
  | text => "String"

/-- A value of a script. -/
inductive Value where
  | int (n : Int64)
  | text (s : String)
deriving DecidableEq, Repr

namespace Value

/-- The integer zero: the value of whatever has no value of its own. -/
def zero : Value := .int 0

instance : Inhabited Value := ⟨zero⟩

/-- The value that stands for a truth value. -/
def ofBool (b : Bool) : Value :=
  if b then .int 1 else .int (-1)

/-- The type of a value. -/
def type : Value → ValueType
  | int _ => .int
  | text _ => .text

/-- The integer, if the value is one. -/
def asInt? : Value → Option Int64
  | int n => some n
  | text _ => none

/-- The text, if the value is one. -/
def asText? : Value → Option String
  | int _ => none
  | text s => some s

/-- The value as it is printed: an integer in decimal, a text as it is. -/
def render : Value → String
  | int n => toString n.toInt
  | text s => s

end Value

end Scriptlet
