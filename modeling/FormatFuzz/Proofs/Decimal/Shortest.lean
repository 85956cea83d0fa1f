import FormatFuzz.Proofs.Decimal.Rounding
import Mathlib.Data.Nat.Cast.Order.Field

namespace FormatFuzz.Decimal

def Digits.value (d : Digits) : ℚ := d.digits * (10 : ℚ) ^ d.exponent

theorem zpow_eq_div {a : ℚ} (ha : a ≠ 0) (e : Int) : a ^ e = a ^ e.toNat / a ^ (-e).toNat := by
  rw [← zpow_natCast, ← zpow_natCast, ← zpow_sub₀ ha]
  congr 1
  omega

namespace Binary64

variable {x : Binary64} {v : ℚ}

theorem quarter_pos (x : Binary64) : 0 < x.quarter.1 ∧ 0 < x.quarter.2 := by
  simp only [quarter, Nat.shiftLeft_eq]
  split <;> exact ⟨by positivity, by positivity⟩

theorem quarter_eq (x : Binary64) : (x.quarter.1 : ℚ) / x.quarter.2 = 2 ^ (x.exponent - 2) := by
  rw [zpow_eq_div (by norm_num), neg_sub]
  simp only [quarter, Nat.shiftLeft_eq]
  split
  · next h =>
    have hzero : (2 - x.exponent).toNat = 0 := by omega
    rw [hzero]
    push_cast
    simp
  · next h =>
    have hzero : (x.exponent - 2).toNat = 0 := by omega
    rw [hzero]
    push_cast
    simp

theorem magnitude_eq (x : Binary64) :
    x.magnitude = ((4 * x.significand * x.quarter.1 : Nat) : ℚ) / x.quarter.2 := by
  have hsplit : (2 : ℚ) ^ x.exponent = 4 * 2 ^ (x.exponent - 2) := by
    rw [zpow_sub₀ (by norm_num)]
    norm_num
    ring
  rw [magnitude, hsplit, ← quarter_eq]
  push_cast
  ring

/-- What is nearer than half a unit of the last place is covered, below a power of two only what is
nearer than a quarter. -/
theorem covers_of_near (hlow : x.magnitude - 1 / 2 * 2 ^ x.exponent < v)
    (hhigh : v < x.magnitude + 1 / 2 * 2 ^ x.exponent)
    (hedge : x.significand = 2 ^ 52 → x.magnitude ≤ v) (hpos : 0 < x.significand) : x.Covers v := by
  have hpow : (0 : ℚ) < 2 ^ x.exponent := by positivity
  have hquarter : (2 : ℚ) ^ (x.exponent - 2) = 2 ^ x.exponent / 4 := by
    rw [zpow_sub₀ (by norm_num)]
    norm_num
  have hfrom : x.lowest * (2 : ℚ) ^ (x.exponent - 2) < v := by
    rw [hquarter, lowest]
    rw [magnitude] at hlow hedge
    split
    · next h =>
      have hat := hedge h.1
      rw [Nat.cast_sub (by omega)]
      push_cast
      linarith
    · rw [Nat.cast_sub (by omega)]
      push_cast
      linarith
  have hto : v < x.highest * (2 : ℚ) ^ (x.exponent - 2) := by
    rw [hquarter, highest]
    rw [magnitude] at hhigh
    push_cast
    linarith
  rw [Covers]
  split
  · exact ⟨hfrom.le, hto.le⟩
  · exact ⟨hfrom, hto⟩

theorem HasDigits.covers_magnitude (hx : x.HasDigits) : x.Covers x.magnitude := by
  have hpow : (0 : ℚ) < 2 ^ x.exponent := by positivity
  exact covers_of_near (by linarith) (by linarith) (fun _ => le_rfl) hx.bounds.1

end Binary64

namespace Digits

variable {x : Binary64} {num den count : Nat} {d : Digits}

theorem inside_iff : inside x d = true ↔ x.Covers d.value := by
  obtain ⟨hone, htwo⟩ := x.quarter_pos
  have htwo' : (0 : ℚ) < x.quarter.2 := by exact_mod_cast htwo
  have hup : (0 : ℚ) < 10 ^ (-d.exponent).toNat := by positivity
  have hle : ∀ n : Nat, n * (2 : ℚ) ^ (x.exponent - 2) ≤ d.value ↔
      n * x.quarter.1 * 10 ^ (-d.exponent).toNat ≤
        d.digits * (x.quarter.2 * 10 ^ d.exponent.toNat) := by
    intro n
    rw [value, zpow_eq_div (by norm_num) d.exponent, ← Binary64.quarter_eq, mul_div_assoc',
      mul_div_assoc', div_le_div_iff₀ htwo' hup, ← @Nat.cast_le ℚ]
    push_cast
    rw [mul_assoc (d.digits : ℚ), mul_comm (x.quarter.2 : ℚ)]
  have hge : ∀ n : Nat, d.value ≤ n * (2 : ℚ) ^ (x.exponent - 2) ↔
      d.digits * (x.quarter.2 * 10 ^ d.exponent.toNat) ≤
        n * x.quarter.1 * 10 ^ (-d.exponent).toNat := by
    intro n
    rw [value, zpow_eq_div (by norm_num) d.exponent, ← Binary64.quarter_eq, mul_div_assoc',
      mul_div_assoc', div_le_div_iff₀ hup htwo', ← @Nat.cast_le ℚ]
    push_cast
    rw [mul_assoc (d.digits : ℚ), mul_comm (x.quarter.2 : ℚ)]
  simp only [inside, Nat.pow_eq, Binary64.Covers]
  split
  · rw [Bool.and_eq_true, decide_eq_true_eq, decide_eq_true_eq, hle, hge]
  · rw [Bool.and_eq_true, decide_eq_true_eq, decide_eq_true_eq, ← not_le, ← not_le,
      ← not_le, ← not_le, hle, hge]

theorem value_strip (d : Digits) : (strip d).value = d.value := by
  fun_induction strip d with
  | case1 => rfl
  | case2 d hzero hten ih =>
    have hdigits : (d.digits : ℚ) = (d.digits / 10 : Nat) * 10 := by
      exact_mod_cast (Nat.div_mul_cancel (Nat.dvd_of_mod_eq_zero hten)).symm
    rw [ih, value, value, hdigits, zpow_add_one₀ (by norm_num)]
    ring
  | case3 => rfl

theorem ten_pow_length_le {n : Nat} (hn : n ≠ 0) : 10 ^ length n ≤ 10 * n := by
  fun_induction length n with
  | case1 => exact absurd rfl hn
  | case2 n h ih =>
    by_cases hdiv : n / 10 = 0
    · rw [hdiv, length]
      simp only [↓reduceDIte]
      omega
    · have hle := ih hdiv
      rw [pow_succ]
      omega

theorem ten_zpow_magnitudeBelowOne_le (hden : 0 < den) (tries : Nat)
    (h : den ≤ num * 10 ^ tries) :
    (10 : ℚ) ^ magnitudeBelowOne num den tries ≤ 10 * (num / den) := by
  have hden' : (0 : ℚ) < den := by exact_mod_cast hden
  induction tries generalizing num with
  | zero =>
    have hle : (den : ℚ) ≤ num := by exact_mod_cast (by omega : den ≤ num)
    have hone := (one_le_div₀ hden').2 hle
    rw [magnitudeBelowOne, zpow_zero]
    linarith
  | succ tries ih =>
    rw [magnitudeBelowOne]
    split
    · next hten =>
      have hle : (den : ℚ) ≤ num * 10 := by exact_mod_cast hten
      have hone := (one_le_div₀ hden').2 hle
      rw [zpow_zero]
      linarith [mul_div_right_comm (num : ℚ) 10 den]
    · have hnext := @ih (num * 10) (by rw [pow_succ'] at h; rw [mul_assoc]; exact h)
      rw [zpow_sub_one₀ (by norm_num)]
      push_cast at hnext
      rw [mul_div_right_comm] at hnext
      linarith

theorem ten_zpow_magnitude_le (hden : 0 < den) (h : den ≤ num * 10 ^ 400) :
    (10 : ℚ) ^ magnitude num den ≤ 10 * (num / den) := by
  rw [magnitude]
  split
  · next hle =>
    have hfloor : (((num / den : Nat) : ℚ)) ≤ num / den := Nat.cast_div_le
    have hlen : (10 : ℚ) ^ length (num / den) ≤ 10 * (num / den : Nat) := by
      exact_mod_cast ten_pow_length_le (Nat.div_pos hle hden).ne'
    rw [zpow_natCast]
    linarith
  · exact ten_zpow_magnitudeBelowOne_le hden 400 h

theorem ofCount?_covers (h : ofCount? x count = some d) : x.Covers d.value := by
  simp only [ofCount?, Option.map_eq_some_iff] at h
  generalize magnitude _ _ - (count : Int) = e at h
  obtain ⟨n, hpick, rfl⟩ := h
  rw [value_strip, ← inside_iff]
  split at hpick
  · next hboth =>
    obtain ⟨hbelow, habove⟩ := Bool.and_eq_true_iff.1 hboth
    split_ifs at hpick <;> obtain rfl := Option.some.inj hpick <;> assumption
  · split_ifs at hpick <;> obtain rfl := Option.some.inj hpick <;> assumption

/-- The neighbours of a double on a grid of decimals that is fine enough: the lower one, the nearer one
or the upper one is covered. -/
theorem covers_floor_or_succ (hx : x.HasDigits) {step : ℚ} {below : Nat}
    (hlow : below * step ≤ x.magnitude) (hhigh : x.magnitude < (below + 1) * step)
    (hfine : step * 10 ^ 16 ≤ x.magnitude) :
    x.Covers (below * step) ∨ x.Covers ((below + 1) * step) := by
  obtain ⟨hpos, hlt, _⟩ := hx.bounds
  have hpow : (0 : ℚ) < 2 ^ x.exponent := by positivity
  have hm : (x.significand : ℚ) ≤ 2 ^ 53 := by exact_mod_cast hlt.le
  have hmagnitude : x.magnitude = x.significand * 2 ^ x.exponent := rfl
  have hstep : step < 2 ^ x.exponent := by nlinarith
  by_cases hedge : x.significand = 2 ^ 52
  · -- a power of two has nothing near below it, but the grid is finer there
    have hhalf : step < 1 / 2 * 2 ^ x.exponent := by
      rw [hmagnitude, hedge] at hfine
      push_cast at hfine
      linarith
    exact .inr (Binary64.covers_of_near (by linarith) (by linarith) (fun _ => hhigh.le) hpos)
  · rcases le_or_gt (2 * (x.magnitude - below * step)) step with h | h
    · exact .inl (Binary64.covers_of_near (by linarith) (by linarith)
        (fun hm => absurd hm hedge) hpos)
    · exact .inr (Binary64.covers_of_near (by linarith) (by linarith)
        (fun hm => absurd hm hedge) hpos)

theorem isSome_ofCount?_seventeen (hx : x.HasDigits) : (ofCount? x 17).isSome = true := by
  have hlarge := (hx.covers_bounds hx.covers_magnitude).1
  obtain ⟨hone, htwo⟩ := x.quarter_pos
  have hmagnitude := x.magnitude_eq
  simp only [ofCount?, Nat.pow_eq, Option.isSome_map]
  generalize 4 * x.significand * x.quarter.1 = num at hmagnitude ⊢
  generalize x.quarter.2 = den at htwo hmagnitude ⊢
  have hden : (0 : ℚ) < den := by exact_mod_cast htwo
  have hfirst : (10 : ℚ) ^ magnitude num den ≤ 10 * x.magnitude := by
    rw [hmagnitude]
    refine ten_zpow_magnitude_le htwo ?_
    rw [hmagnitude, zpow_neg, zpow_ofNat, lt_div_iff₀ hden, inv_mul_lt_iff₀ (by positivity)] at hlarge
    rw [mul_comm]
    exact_mod_cast hlarge.le
  generalize hexp : magnitude num den - ((17 : Nat) : Int) = e
  have hfine : (10 : ℚ) ^ e * 10 ^ 16 ≤ x.magnitude := by
    have hsplit : (10 : ℚ) ^ magnitude num den = 10 ^ e * 10 ^ 17 := by
      rw [← zpow_natCast, ← zpow_add₀ (by norm_num)]
      congr 1
      omega
    rw [hsplit] at hfirst
    linarith
  -- the double counted in units of the last digit
  have hunits : ((num * 10 ^ (-e).toNat : Nat) : ℚ) / (den * 10 ^ e.toNat : Nat) * 10 ^ e =
      x.magnitude := by
    rw [hmagnitude, zpow_eq_div (by norm_num) e]
    push_cast
    field_simp
  have hunit : (0 : ℚ) < 10 ^ e := by positivity
  have hden' : 0 < den * 10 ^ e.toNat := by positivity
  generalize num * 10 ^ (-e).toNat = n at hunits ⊢
  generalize den * 10 ^ e.toNat = k at hunits hden' ⊢
  have hlow : ((n / k : Nat) : ℚ) * 10 ^ e ≤ x.magnitude := by
    rw [← hunits]
    exact mul_le_mul_of_nonneg_right Nat.cast_div_le hunit.le
  have hhigh : x.magnitude < (((n / k : Nat) : ℚ) + 1) * 10 ^ e := by
    rw [← hunits]
    refine mul_lt_mul_of_pos_right ?_ hunit
    rw [div_lt_iff₀ (by exact_mod_cast hden'), mul_comm]
    exact_mod_cast Nat.lt_mul_div_succ n hden'
  rcases covers_floor_or_succ hx hlow hhigh hfine with h | h
  · have hin : inside x ⟨n / k, e⟩ = true := inside_iff.2 h
    rw [hin]
    cases inside x ⟨n / k + 1, e⟩ with
    | false => rfl
    | true =>
      rw [if_pos rfl]
      split_ifs <;> rfl
  · have hin : inside x ⟨n / k + 1, e⟩ = true := inside_iff.2 (by rw [value]; push_cast; exact h)
    rw [hin]
    cases inside x ⟨n / k, e⟩ with
    | false => rfl
    | true =>
      rw [if_pos rfl]
      split_ifs <;> rfl

/-- The digits that are found stand for a number that rounds to the double. -/
theorem shortest_covers (hx : x.HasDigits) : x.Covers (shortest x).value := by
  have hsome : ((List.range 17).findSome? fun n => ofCount? x (n + 1)).isSome = true :=
    List.findSome?_isSome_iff.2 ⟨16, by simp, isSome_ofCount?_seventeen hx⟩
  obtain ⟨d, hd⟩ := Option.isSome_iff_exists.1 hsome
  obtain ⟨n, -, hn⟩ := List.exists_of_findSome?_eq_some hd
  rw [shortest, hd]
  exact ofCount?_covers hn

end Digits

end FormatFuzz.Decimal
