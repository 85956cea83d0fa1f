import FormatFuzz.Decimal.Shortest
import Mathlib.Algebra.Order.Field.Power
import Mathlib.Data.Rat.Cast.Order
import Mathlib.Tactic.FieldSimp
import Mathlib.Tactic.Linarith
import Mathlib.Tactic.NormNum
import Mathlib.Tactic.Ring

/-!
# The numbers that round to a double

The numbers that round to a finite double other than zero form an interval around it. Its ends lie
half a unit of the last place away, the lower one a quarter where the next smaller double is twice as
near, and they belong to it exactly when the significand is even.

Numbers are rational here, and those of the model are quotients of natural numbers.
-/

namespace FormatFuzz.Decimal.Binary64

variable {x : Binary64}

theorem exponentField_eq (x : Binary64) : x.exponentField = x.bits.toNat / 2 ^ 52 % 2 ^ 11 := by
  have hmask : (0x7ff : Nat) = 2 ^ 11 - 1 := by norm_num
  simp only [exponentField, UInt64.toNat_and, UInt64.toNat_shiftRight]
  change x.bits.toNat >>> 52 &&& 0x7ff = _
  rw [hmask, Nat.and_two_pow_sub_one_eq_mod, Nat.shiftRight_eq_div_pow]

theorem fractionField_eq (x : Binary64) : x.fractionField = x.bits.toNat % 2 ^ 52 := by
  have hmask : (0xfffffffffffff : Nat) = 2 ^ 52 - 1 := by norm_num
  simp only [fractionField, UInt64.toNat_and]
  change x.bits.toNat &&& 0xfffffffffffff = _
  rw [hmask, Nat.and_two_pow_sub_one_eq_mod]

theorem negative_eq (x : Binary64) : x.negative = decide (x.bits.toNat / 2 ^ 63 = 1) := by
  have hiff : x.bits >>> 63 = 1 ↔ x.bits.toNat / 2 ^ 63 = 1 := by
    rw [← UInt64.toNat_inj, UInt64.toNat_shiftRight]
    change x.bits.toNat >>> 63 = 1 ↔ _
    rw [Nat.shiftRight_eq_div_pow]
  rw [negative, ← decide_eq_decide.2 hiff]
  rfl

theorem exponentField_lt (x : Binary64) : x.exponentField < 2 ^ 11 := by
  rw [exponentField_eq]
  exact Nat.mod_lt _ (by norm_num)

theorem fractionField_lt (x : Binary64) : x.fractionField < 2 ^ 52 := by
  rw [fractionField_eq]
  exact Nat.mod_lt _ (by norm_num)

theorem ofFields_fields (x : Binary64) :
    ofFields x.negative x.exponentField x.fractionField = x := by
  have hlt : x.bits.toNat < 2 ^ 64 := x.bits.toNat_lt
  obtain ⟨bits⟩ := x
  rw [ofFields, mk.injEq, ← UInt64.toNat_inj, UInt64.toNat_ofNat', negative_eq, exponentField_eq,
    fractionField_eq]
  simp only [Nat.shiftLeft_eq, decide_eq_true_eq]
  simp only at hlt
  split <;> omega

def magnitude (x : Binary64) : ℚ := x.significand * (2 : ℚ) ^ x.exponent

def HasDigits (x : Binary64) : Prop := x.isFinite = true ∧ x.isZero = false

/-- The significand of a number below the least normal one may be smaller than that of the others. -/
theorem HasDigits.bounds (h : x.HasDigits) :
    0 < x.significand ∧ x.significand < 2 ^ 53 ∧ -1074 ≤ x.exponent ∧ x.exponent ≤ 971 ∧
      (2 ^ 52 ≤ x.significand ∨ x.exponent = -1074) := by
  obtain ⟨hfinite, hzero⟩ := h
  have he := x.exponentField_lt
  have hf := x.fractionField_lt
  simp only [isFinite, bne_iff_ne, ne_eq] at hfinite
  simp only [isZero, Bool.and_eq_false_iff, beq_eq_false_iff_ne, ne_eq] at hzero
  simp only [significand, exponent]
  split <;> omega

theorem ofFields_significand (x : Binary64) :
    (if x.significand < 2 ^ 52 then ofFields x.negative 0 x.significand
      else ofFields x.negative (x.exponent + 1075).toNat (x.significand - 2 ^ 52)) = x := by
  have hf := x.fractionField_lt
  have hfields := x.ofFields_fields
  by_cases hzero : x.exponentField = 0
  · have hsig : x.significand = x.fractionField := by rw [significand, if_pos hzero]
    rw [hzero] at hfields
    rw [hsig, if_pos hf]
    exact hfields
  · have hsig : x.significand = x.fractionField + 2 ^ 52 := by
      rw [significand, if_neg hzero]
      norm_num
    have hexp : (x.exponent + 1075).toNat = x.exponentField := by
      rw [exponent]
      omega
    rw [hsig, if_neg (Nat.not_lt.2 (Nat.le_add_left _ _)), hexp, Nat.add_sub_cancel]
    exact hfields

/-- A number is between the ends, or at an end if the significand is even. -/
def Covers (x : Binary64) (v : ℚ) : Prop :=
  if x.significand % 2 = 0 then
    x.lowest * (2 : ℚ) ^ (x.exponent - 2) ≤ v ∧
      v ≤ x.highest * (2 : ℚ) ^ (x.exponent - 2)
  else
    x.lowest * (2 : ℚ) ^ (x.exponent - 2) < v ∧
      v < x.highest * (2 : ℚ) ^ (x.exponent - 2)

end FormatFuzz.Decimal.Binary64
