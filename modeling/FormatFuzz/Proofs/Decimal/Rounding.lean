import FormatFuzz.Proofs.Decimal.Interval

namespace FormatFuzz.Decimal.Binary64

variable {x : Binary64} {num den k : Nat} {q : Int}

theorem roundQuotient_spec (num : Nat) (hden : 0 < den) :
    2 * (roundQuotient num den * den) ≤ 2 * num + den ∧
      2 * num ≤ 2 * (roundQuotient num den * den) + den ∧
      (roundQuotient num den % 2 = 0 ∨ 2 * (roundQuotient num den * den) < 2 * num + den ∧
        2 * num < 2 * (roundQuotient num den * den) + den) := by
  have hnum := Nat.div_add_mod num den
  have hrest := Nat.mod_lt num hden
  simp only [roundQuotient]
  generalize num / den = a at hnum ⊢
  generalize num % den = r at hnum hrest ⊢
  rw [Nat.mul_comm] at hnum
  have hsucc : (a + 1) * den = a * den + den := Nat.succ_mul a den
  split_ifs
  · omega
  · rw [hsucc]
    omega
  · omega
  · rw [hsucc]
    omega

/-- Of two integers that are at most a half away on either side, the lower one is not above the other if
an odd one is not exactly a half away. -/
theorem le_of_near {j k : Nat} (hlow : 2 * (j * den) ≤ 2 * num + den)
    (hhigh : 2 * num ≤ 2 * (k * den) + den) (hj : j % 2 = 0 ∨ 2 * (j * den) < 2 * num + den)
    (hk : k % 2 = 0 ∨ 2 * num < 2 * (k * den) + den) (hden : 0 < den) : j ≤ k := by
  by_contra! hlt
  have hmul : (k + 1) * den ≤ j * den := Nat.mul_le_mul_right den hlt
  have hsucc : (k + 1) * den = k * den + den := Nat.succ_mul k den
  -- then both are exactly a half away, one of them is odd
  have hnext : j * den = (k + 1) * den := by omega
  obtain rfl := Nat.eq_of_mul_eq_mul_right hden hnext
  omega

theorem le_roundQuotient (hlow : 2 * (k * den) ≤ 2 * num + den)
    (htie : k % 2 = 0 ∨ 2 * (k * den) < 2 * num + den) (hden : 0 < den) :
    k ≤ roundQuotient num den := by
  obtain ⟨-, hhigh, hround⟩ := roundQuotient_spec num hden
  exact le_of_near hlow hhigh htie (hround.imp_right And.right) hden

/-- A quotient at most a half away from an integer is rounded to it, at exactly a half if it is even. -/
theorem roundQuotient_eq (hlow : 2 * (k * den) ≤ 2 * num + den)
    (hhigh : 2 * num ≤ 2 * (k * den) + den)
    (htie : k % 2 = 0 ∨ 2 * (k * den) < 2 * num + den ∧ 2 * num < 2 * (k * den) + den)
    (hden : 0 < den) : roundQuotient num den = k := by
  obtain ⟨hround, -, htie'⟩ := roundQuotient_spec num hden
  refine le_antisymm ?_ (le_roundQuotient hlow (htie.imp_right And.left) hden)
  exact le_of_near hround hhigh (htie'.imp_right And.left) (htie.imp_right And.right) hden

theorem exists_roundAt_eq (num : Nat) (hden : 0 < den) (q : Int) :
    ∃ n d : Nat, 0 < d ∧ roundAt num den q = roundQuotient n d ∧
      (num : ℚ) / den = n / d * (2 : ℚ) ^ q := by
  have hden' : (den : ℚ) ≠ 0 := by positivity
  rw [roundAt]
  split
  · next hq =>
    obtain ⟨k, rfl⟩ := Int.eq_ofNat_of_zero_le hq
    refine ⟨num, den <<< k, ?_, rfl, ?_⟩
    · rw [Nat.shiftLeft_eq]
      positivity
    · rw [Nat.shiftLeft_eq, zpow_natCast]
      push_cast
      field_simp
  · next hq =>
    obtain ⟨k, hk⟩ := Int.eq_ofNat_of_zero_le (Int.neg_nonneg_of_nonpos (Int.le_of_not_le hq))
    refine ⟨num <<< (-q).toNat, den, hden, rfl, ?_⟩
    obtain rfl : q = -(k : Int) := by omega
    rw [neg_neg, Int.toNat_natCast, Nat.shiftLeft_eq, zpow_neg, zpow_natCast]
    push_cast
    field_simp

theorem roundAt_eq (hden : 0 < den) (hlow : ((k : ℚ) - 1 / 2) * (2 : ℚ) ^ q ≤ num / den)
    (hhigh : (num : ℚ) / den ≤ (k + 1 / 2) * (2 : ℚ) ^ q)
    (htie : k % 2 = 0 ∨ ((k : ℚ) - 1 / 2) * (2 : ℚ) ^ q < num / den ∧
      (num : ℚ) / den < (k + 1 / 2) * (2 : ℚ) ^ q) :
    roundAt num den q = k := by
  obtain ⟨n, d, hd, hround, hquotient⟩ := exists_roundAt_eq num hden q
  have hpow : (0 : ℚ) < 2 ^ q := by positivity
  have hd' : (0 : ℚ) < d := by positivity
  rw [hquotient] at hlow hhigh htie
  simp only [mul_le_mul_iff_left₀ hpow, mul_lt_mul_iff_left₀ hpow, le_div_iff₀ hd', div_le_iff₀ hd',
    lt_div_iff₀ hd', div_lt_iff₀ hd'] at hlow hhigh htie
  rw [hround]
  refine roundQuotient_eq ?_ ?_ ?_ hd
  · have : 2 * (k * d : ℚ) ≤ 2 * n + d := by linarith
    exact_mod_cast this
  · have : (2 * n : ℚ) ≤ 2 * (k * d) + d := by linarith
    exact_mod_cast this
  · refine htie.imp id fun ⟨hl, hh⟩ => ⟨?_, ?_⟩
    · have : 2 * (k * d : ℚ) < 2 * n + d := by linarith
      exact_mod_cast this
    · have : (2 * n : ℚ) < 2 * (k * d) + d := by linarith
      exact_mod_cast this

theorem le_roundAt (hden : 0 < den) (hlow : ((k : ℚ) - 1 / 2) * (2 : ℚ) ^ q ≤ num / den)
    (htie : k % 2 = 0 ∨ ((k : ℚ) - 1 / 2) * (2 : ℚ) ^ q < num / den) : k ≤ roundAt num den q := by
  obtain ⟨n, d, hd, hround, hquotient⟩ := exists_roundAt_eq num hden q
  have hpow : (0 : ℚ) < 2 ^ q := by positivity
  have hd' : (0 : ℚ) < d := by positivity
  rw [hquotient] at hlow htie
  simp only [mul_le_mul_iff_left₀ hpow, mul_lt_mul_iff_left₀ hpow, le_div_iff₀ hd', lt_div_iff₀ hd']
    at hlow htie
  rw [hround]
  refine le_roundQuotient ?_ ?_ hd
  · have : 2 * (k * d : ℚ) ≤ 2 * n + d := by linarith
    exact_mod_cast this
  · refine htie.imp id fun hl => ?_
    have : 2 * (k * d : ℚ) < 2 * n + d := by linarith
    exact_mod_cast this

/-- The lengths of two numbers in bits give their quotient up to a factor of two to either side. -/
theorem quotient_bounds (hnum : num ≠ 0) (hden : 0 < den) :
    (2 : ℚ) ^ ((num.log2 : Int) - den.log2 - 1) < num / den ∧
      (num : ℚ) / den < 2 ^ ((num.log2 : Int) - den.log2 + 1) := by
  have hnumLow : (2 : ℚ) ^ (num.log2 : Int) ≤ num := by
    rw [zpow_natCast]
    exact_mod_cast Nat.log2_self_le hnum
  have hnumHigh : (num : ℚ) < 2 ^ ((num.log2 : Int) + 1) := by
    rw [← Nat.cast_succ, zpow_natCast]
    exact_mod_cast Nat.lt_log2_self
  have hdenLow : (2 : ℚ) ^ (den.log2 : Int) ≤ den := by
    rw [zpow_natCast]
    exact_mod_cast Nat.log2_self_le hden.ne'
  have hdenHigh : (den : ℚ) < 2 ^ ((den.log2 : Int) + 1) := by
    rw [← Nat.cast_succ, zpow_natCast]
    exact_mod_cast Nat.lt_log2_self
  have hden' : (0 : ℚ) < den := by positivity
  constructor
  · rw [lt_div_iff₀ hden']
    have hsplit : (2 : ℚ) ^ ((num.log2 : Int) - den.log2 - 1) * 2 ^ ((den.log2 : Int) + 1) =
        2 ^ (num.log2 : Int) := by
      rw [← zpow_add₀ (by norm_num)]
      congr 1
      omega
    have hpow : (0 : ℚ) < 2 ^ ((num.log2 : Int) - den.log2 - 1) := by positivity
    nlinarith
  · rw [div_lt_iff₀ hden']
    have hsplit : (2 : ℚ) ^ ((num.log2 : Int) - den.log2 + 1) * 2 ^ (den.log2 : Int) =
        2 ^ ((num.log2 : Int) + 1) := by
      rw [← zpow_add₀ (by norm_num)]
      congr 1
      omega
    have hpow : (0 : ℚ) < 2 ^ ((num.log2 : Int) - den.log2 + 1) := by positivity
    nlinarith

theorem Covers.bounds {v : ℚ} (h : x.Covers v) (hpos : 0 < x.significand) :
    ((x.significand : ℚ) - 1 / 2) * 2 ^ x.exponent ≤ v ∧
      v ≤ (x.significand + 1 / 2) * (2 : ℚ) ^ x.exponent ∧
      (x.significand % 2 = 0 ∨ ((x.significand : ℚ) - 1 / 2) * 2 ^ x.exponent < v ∧
        v < (x.significand + 1 / 2) * (2 : ℚ) ^ x.exponent) ∧
      (x.significand = 2 ^ 52 → 1 < x.exponentField →
        ((x.significand : ℚ) - 1 / 4) * 2 ^ x.exponent ≤ v) := by
  have hquarter : (2 : ℚ) ^ (x.exponent - 2) = 2 ^ x.exponent / 4 := by
    rw [zpow_sub₀ (by norm_num)]
    norm_num
  have hpow : (0 : ℚ) < 2 ^ x.exponent := by positivity
  have hlowest : (4 * x.significand - 2 : ℚ) ≤ x.lowest ∧
      (x.significand = 2 ^ 52 → 1 < x.exponentField → (4 * x.significand - 1 : ℚ) ≤ x.lowest) := by
    rw [lowest]
    split
    · rw [Nat.cast_sub (by omega)]
      push_cast
      exact ⟨by linarith, fun _ _ => le_refl _⟩
    · next hnot =>
      rw [Nat.cast_sub (by omega)]
      push_cast
      exact ⟨le_refl _, fun hm he => absurd ⟨hm, he⟩ hnot⟩
  obtain ⟨hhalf, hedge⟩ := hlowest
  rw [Covers, hquarter, highest] at h
  push_cast at h
  split at h
  · next heven =>
    refine ⟨by nlinarith, by nlinarith, .inl heven, fun hm he => ?_⟩
    have := hedge hm he
    nlinarith
  · refine ⟨by nlinarith, by nlinarith, .inr ⟨by nlinarith, by nlinarith⟩, fun hm he => ?_⟩
    have := hedge hm he
    nlinarith

theorem HasDigits.ofScaled_significand (hx : x.HasDigits) :
    ofScaled x.negative x.significand x.exponent = x := by
  obtain ⟨_, _, _, hhigh, _⟩ := hx.bounds
  have hfields := x.ofFields_significand
  rw [ofScaled, if_neg (Int.not_lt.2 hhigh)]
  exact hfields

theorem two_zpow_add (q : Int) (k : Nat) : (2 : ℚ) ^ (q + k) = 2 ^ k * 2 ^ q := by
  rw [zpow_add₀ (by norm_num), zpow_natCast, mul_comm]

theorem two_zpow_eq_double (q : Int) : (2 : ℚ) ^ q = 2 * 2 ^ (q - 1) := by
  rw [← zpow_one_add₀ (by norm_num), add_sub_cancel]

/-- The exponent that is tried first, from the lengths of the two numbers in bits. -/
def firstExponent (num den : Nat) : Int := max ((num.log2 : Int) - den.log2 - 53) (-1074)

theorem quotient_lt_firstExponent (hnum : num ≠ 0) (hden : 0 < den) :
    (num : ℚ) / den < 2 ^ 54 * 2 ^ firstExponent num den := by
  refine (quotient_bounds hnum hden).2.trans_le ?_
  rw [← two_zpow_add, firstExponent]
  exact zpow_le_zpow_right₀ (by norm_num) (by omega)

theorem firstExponent_lt_quotient (hnum : num ≠ 0) (hden : 0 < den) :
    firstExponent num den = -1074 ∨ 2 ^ 52 * 2 ^ firstExponent num den < (num : ℚ) / den := by
  refine or_iff_not_imp_left.2 fun hfirst => lt_of_le_of_lt ?_ (quotient_bounds hnum hden).1
  rw [← two_zpow_add]
  rw [firstExponent] at hfirst ⊢
  exact zpow_le_zpow_right₀ (by norm_num) (by omega)

theorem firstExponent_le (hk : k < 2 ^ 53) (hq : -1074 ≤ q) (hnum : num ≠ 0) (hden : 0 < den)
    (hhigh : (num : ℚ) / den ≤ (k + 1 / 2) * (2 : ℚ) ^ q) : firstExponent num den ≤ q := by
  by_contra! hlt
  rcases firstExponent_lt_quotient hnum hden with hfirst | hfirst
  · omega
  have hstep : (2 : ℚ) ^ (q + (1 : Nat)) ≤ 2 ^ firstExponent num den :=
    zpow_le_zpow_right₀ (by norm_num) (by omega)
  rw [two_zpow_add] at hstep
  have hk' : (k : ℚ) + 1 ≤ 2 ^ 53 := by exact_mod_cast hk
  have hpow : (0 : ℚ) < 2 ^ q := by positivity
  nlinarith

theorem le_firstExponent (hk : 2 ^ 52 ≤ k ∨ q = -1074) (hnum : num ≠ 0) (hden : 0 < den)
    (hlow : ((k : ℚ) - 1 / 2) * (2 : ℚ) ^ q ≤ num / den) : q - 2 ≤ firstExponent num den := by
  by_contra! hlt
  have hleast : -1074 ≤ firstExponent num den := le_max_right _ _
  have hsize := quotient_lt_firstExponent hnum hden
  have hstep : (2 : ℚ) ^ (firstExponent num den + (3 : Nat)) ≤ 2 ^ q :=
    zpow_le_zpow_right₀ (by norm_num) (by omega)
  rw [two_zpow_add] at hstep
  have hk' : (2 : ℚ) ^ 52 ≤ k := by exact_mod_cast (by omega : 2 ^ 52 ≤ k)
  have hpow : (0 : ℚ) < 2 ^ q := by positivity
  nlinarith

/-- What has a normal significand needs more bits than there are in units half as large. -/
theorem le_of_normal {v : ℚ} (hk : 2 ^ 52 ≤ k) (hlow : ((k : ℚ) - 1 / 2) * (2 : ℚ) ^ q ≤ v)
    (hedge : k = 2 ^ 52 → ((k : ℚ) - 1 / 4) * (2 : ℚ) ^ q ≤ v) :
    (2 ^ 53 - 1 / 2) * (2 : ℚ) ^ (q - 1) ≤ v := by
  have hpow : (0 : ℚ) < 2 ^ (q - 1) := by positivity
  rw [two_zpow_eq_double] at hlow hedge
  rcases hk.eq_or_lt with rfl | hk
  · have hquarter := hedge rfl
    push_cast at hquarter
    linarith
  · have hsucc : (2 : ℚ) ^ 52 + 1 ≤ k := by exact_mod_cast hk
    nlinarith

theorem ofQuotient_of_covers (hx : x.HasDigits) (hden : 0 < den)
    (hcovers : x.Covers ((num : ℚ) / den)) : ofQuotient x.negative num den = x := by
  obtain ⟨hpos, hlt, hqlow, _, hnormal⟩ := hx.bounds
  obtain ⟨hlow, hhigh, htie, hedge⟩ := hcovers.bounds hpos
  have hfield : x.exponent = (max x.exponentField 1 : Nat) - 1075 := rfl
  have hself := hx.ofScaled_significand
  generalize x.significand = m at hpos hlt hnormal hlow hhigh htie hedge hself
  generalize x.exponent = q at hqlow hnormal hlow hhigh htie hedge hfield hself
  have hnum : num ≠ 0 := by
    rintro rfl
    have hm : (1 : ℚ) ≤ m := by exact_mod_cast hpos
    have hpow : (0 : ℚ) < 2 ^ q := by positivity
    rw [Nat.cast_zero, zero_div] at hlow
    nlinarith
  have hround : roundAt num den q = m := roundAt_eq hden hlow hhigh htie
  have hle := firstExponent_le hlt hqlow hnum hden hhigh
  have hge := le_firstExponent hnormal hnum hden hlow
  have hleast : -1074 ≤ firstExponent num den := le_max_right _ _
  have hbits : 0x20000000000000 = 2 ^ 53 := by norm_num
  have hfirst : max ((num.log2 : Int) - den.log2 - 53) (-1074) = firstExponent num den := rfl
  rw [ofQuotient, if_neg hnum]
  simp only
  rw [hbits, hfirst]
  have hcases : firstExponent num den = q ∨
      (firstExponent num den = q - 1 ∨ firstExponent num den = q - 2) ∧ 2 ^ 52 ≤ m := by
    omega
  -- the exponent that is tried first is the right one, one too low or two too low
  rcases hcases with hq | ⟨hq, hm⟩
  · rw [hq, hround, if_pos hlt, hround, if_pos hlt]
    exact hself
  have hlarge : ((2 ^ 53 : Nat) - 1 / 2) * (2 : ℚ) ^ (q - 1) ≤ num / den := by
    exact_mod_cast le_of_normal hm hlow fun hm52 => hedge hm52 (by omega)
  have heven : (2 ^ 53 : Nat) % 2 = 0 := by norm_num
  rcases hq with hq | hq
  · have hover : 2 ^ 53 ≤ roundAt num den (q - 1) := le_roundAt hden hlarge (.inl heven)
    rw [hq, if_neg (Nat.not_lt.2 hover), sub_add_cancel, hround, if_pos hlt]
    exact hself
  · -- only the least normal significand is so near to the next lower power of two
    have hsize := quotient_lt_firstExponent hnum hden
    rw [hq] at hsize
    have hquarter : (2 : ℚ) ^ q = 2 ^ 2 * 2 ^ (q - 2) := by
      rw [← two_zpow_add, Nat.cast_ofNat, sub_add_cancel]
    have hpow : (0 : ℚ) < 2 ^ (q - 2) := by positivity
    obtain rfl : m = 2 ^ 52 := by
      have hm' : (m : ℚ) < 2 ^ 52 + 1 := by nlinarith
      exact Nat.le_antisymm (Nat.lt_succ_iff.1 (by exact_mod_cast hm')) hm
    have hhalf := two_zpow_eq_double q
    have hover : 2 ^ 53 ≤ roundAt num den (q - 2) := by
      refine le_roundAt hden (le_trans ?_ hlarge) (.inl heven)
      exact mul_le_mul_of_nonneg_left (by linarith) (by norm_num)
    have hagain : roundAt num den (q - 1) = 2 ^ 53 := by
      refine roundAt_eq hden hlarge ?_ (.inl heven)
      push_cast
      linarith
    have hnext : q - 2 + 1 = q - 1 := by omega
    rw [hq, if_neg (Nat.not_lt.2 hover), hnext, hagain, if_neg (Nat.lt_irrefl _), sub_add_cancel]
    exact hself

/-- The powers of two that a double can have are far from the powers of ten beyond which nothing is
looked at. -/
theorem two_pow_lt_ten_pow : (2 : ℚ) ^ 1077 < 10 ^ 400 := by
  calc (2 : ℚ) ^ 1077
    _ = (2 ^ 3) ^ 359 := by rw [← pow_mul]
    _ ≤ 10 ^ 359 := pow_le_pow_left₀ (by norm_num) (by norm_num) _
    _ < 10 ^ 400 := pow_lt_pow_right₀ (by norm_num) (by norm_num)

theorem HasDigits.covers_bounds {v : ℚ} (hx : x.HasDigits) (h : x.Covers v) :
    (10 : ℚ) ^ (-400 : Int) < v ∧ v < 10 ^ (400 : Int) := by
  obtain ⟨hpos, hlt, hqlow, hqhigh, _⟩ := hx.bounds
  obtain ⟨hlow, hhigh, _, _⟩ := h.bounds hpos
  have hm : (1 : ℚ) ≤ x.significand := by exact_mod_cast hpos
  have hm' : (x.significand : ℚ) + 1 ≤ 2 ^ 53 := by exact_mod_cast hlt
  have hleast : (2 : ℚ) ^ (-1074 : Int) ≤ 2 ^ x.exponent := zpow_le_zpow_right₀ (by norm_num) hqlow
  have hgreatest : (2 : ℚ) ^ x.exponent ≤ 2 ^ (971 : Int) := zpow_le_zpow_right₀ (by norm_num) hqhigh
  have hsmall : (10 : ℚ) ^ (-400 : Int) < 1 / 2 * 2 ^ (-1074 : Int) := by
    rw [zpow_neg, zpow_neg, zpow_ofNat, zpow_ofNat, one_div, ← mul_inv, ← pow_succ']
    refine inv_strictAnti₀ (by positivity) (lt_of_le_of_lt ?_ two_pow_lt_ten_pow)
    exact pow_le_pow_right₀ (by norm_num) (by norm_num)
  have hlarge : (2 : ℚ) ^ 53 * 2 ^ (971 : Int) < 10 ^ (400 : Int) := by
    rw [zpow_ofNat, zpow_ofNat, ← pow_add]
    refine lt_of_le_of_lt ?_ two_pow_lt_ten_pow
    exact pow_le_pow_right₀ (by norm_num) (by norm_num)
  have hpow : (0 : ℚ) < 2 ^ x.exponent := by positivity
  generalize (2 : ℚ) ^ x.exponent = u at *
  generalize (2 : ℚ) ^ (-1074 : Int) = a at *
  generalize (2 : ℚ) ^ (971 : Int) = b at *
  constructor
  · exact hsmall.trans_le (by nlinarith)
  · exact lt_of_le_of_lt (by nlinarith) hlarge

theorem ofDecimal_of_covers {digits : Nat} {e : Int} (hx : x.HasDigits)
    (hcovers : x.Covers (digits * (10 : ℚ) ^ e)) : ofDecimal x.negative digits e = x := by
  obtain ⟨hlow, hhigh⟩ := hx.covers_bounds hcovers
  have hsmall : (0 : ℚ) < 10 ^ (-400 : Int) := by positivity
  have hdigits : digits ≠ 0 := by
    rintro rfl
    rw [Nat.cast_zero, zero_mul] at hlow
    exact absurd hsmall hlow.not_gt
  have hone : (1 : ℚ) ≤ digits := by exact_mod_cast Nat.pos_of_ne_zero hdigits
  have hexp : ¬ 400 < e := by
    intro he
    have hpow : (10 : ℚ) ^ (400 : Int) ≤ 10 ^ e := zpow_le_zpow_right₀ (by norm_num) he.le
    have hmul : (10 : ℚ) ^ e ≤ digits * 10 ^ e := le_mul_of_one_le_left (by positivity) hone
    exact absurd hhigh (hpow.trans hmul).not_gt
  have hexp' : ¬ e < -400 - (digits.log2 : Int) := by
    intro he
    have hlen : (digits : ℚ) ≤ 10 ^ ((digits.log2 : Int) + 1) := by
      rw [← Nat.cast_succ, zpow_natCast]
      have hlt : digits < 2 ^ (digits.log2 + 1) := Nat.lt_log2_self
      have hle : 2 ^ (digits.log2 + 1) ≤ 10 ^ (digits.log2 + 1) :=
        Nat.pow_le_pow_left (by norm_num) _
      exact_mod_cast (hlt.trans_le hle).le
    have hpow : (0 : ℚ) < 10 ^ e := by positivity
    have hprod : (10 : ℚ) ^ ((digits.log2 : Int) + 1) * 10 ^ e ≤ 10 ^ (-400 : Int) := by
      rw [← zpow_add₀ (by norm_num)]
      exact zpow_le_zpow_right₀ (by norm_num) (by omega)
    have hmul := mul_le_mul_of_nonneg_right hlen hpow.le
    exact absurd hlow (hmul.trans hprod).not_gt
  rw [ofDecimal, if_neg hdigits, if_neg hexp, if_neg hexp']
  split
  · next he =>
    obtain ⟨k, rfl⟩ := Int.eq_ofNat_of_zero_le he
    refine ofQuotient_of_covers hx Nat.one_pos ?_
    rw [zpow_natCast] at hcovers
    rw [Int.toNat_natCast, Nat.pow_eq]
    push_cast
    rwa [div_one]
  · next he =>
    obtain ⟨k, hk⟩ := Int.eq_ofNat_of_zero_le (Int.neg_nonneg_of_nonpos (Int.le_of_not_le he))
    obtain rfl : e = -(k : Int) := by omega
    refine ofQuotient_of_covers hx (by rw [Nat.pow_eq]; positivity) ?_
    rw [zpow_neg, zpow_natCast, ← div_eq_mul_inv] at hcovers
    rw [neg_neg, Int.toNat_natCast, Nat.pow_eq]
    push_cast
    exact hcovers

end FormatFuzz.Decimal.Binary64
