import FormatFuzz.Text.Integer
import Mathlib.Tactic.Common

namespace FormatFuzz

theorem Primitive.hasText_int_iff {n : Int} :
    (Primitive.int n).hasText = true ↔ (Nat.toDigits 10 n.natAbs).length ≤ Text.maxDigits := by
  rw [Primitive.hasText, decide_eq_true_iff, Nat.pow_eq, Nat.length_toDigits_le_iff (by decide) (by decide)]

theorem Primitive.exists_int_of_not_hasText {v : Primitive} (h : v.hasText = false) :
    ∃ n : Int, v = .int n ∧ Text.maxDigits < (Nat.toDigits 10 n.natAbs).length := by
  cases v with
  | int n =>
    refine ⟨n, rfl, Nat.lt_of_not_le fun hle => ?_⟩
    rw [hasText_int_iff.2 hle] at h
    cases h
  | null | bool b | float x | str s => cases h

namespace Text

variable {ds cs : List Char} {c : Char}

theorem digitValue?_of_isDigit (hc : c.isDigit = true) : digitValue? c = some (c.toNat - 48) := by
  have hascii : c.toNat < 128 := Nat.lt_of_le_of_lt (Char.isDigit_iff_toNat.1 hc).2 (by decide)
  rw [digitValue?, if_pos hascii, if_pos hc]

theorem digitsWithUnderscores?_digits (hds : ∀ c ∈ ds, c.isDigit = true) (value count : Nat) :
    digitsWithUnderscores? value count true ds =
      some (Nat.ofDigitChars 10 ds value, count + ds.length) := by
  induction ds generalizing value count with
  | nil => rfl
  | cons c ds ih =>
    obtain ⟨hc, hds⟩ := List.forall_mem_cons.1 hds
    have hunderscore : (c == '_') = false := by
      apply beq_false_of_ne
      rintro rfl
      cases hc
    have hvalue : value * 10 + (c.toNat - 48) = 10 * value + (c.toNat - '0'.toNat) := by
      rw [Nat.mul_comm]
      rfl
    rw [digitsWithUnderscores?, hunderscore, digitValue?_of_isDigit hc, Nat.ofDigitChars_cons,
      List.length_cons]
    simp only [Bool.false_eq_true, if_false]
    rw [ih hds, hvalue]
    congr 2
    omega

theorem isDigit_toDigits (n : Nat) : ∀ c ∈ Nat.toDigits 10 n, c.isDigit = true := fun _ =>
  Nat.isDigit_of_mem_toDigits (by decide) (by decide)

theorem digitsWithUnderscores?_toDigits (n : Nat) :
    digitsWithUnderscores? 0 0 false (Nat.toDigits 10 n) = some (n, (Nat.toDigits 10 n).length) := by
  have hread := digitsWithUnderscores?_digits (isDigit_toDigits n) 0 0
  rw [Nat.ofDigitChars_ten_toDigits, Nat.zero_add] at hread
  obtain ⟨c, ds, hcons⟩ := List.exists_cons_of_ne_nil (Nat.toDigits_ne_nil (n := n) (b := 10))
  have hc : c ≠ '_' := by
    rintro rfl
    exact absurd (isDigit_toDigits n '_' (by rw [hcons]; exact List.mem_cons_self)) (by decide)
  -- only in front of an underscore does it make a difference whether a digit was before
  rw [← hread, hcons, digitsWithUnderscores?, digitsWithUnderscores?, beq_false_of_ne hc]
  simp

/-- A sign and digits have no blanks around them. -/
theorem trimmed_of_forall {blank : Char → Bool} (h : ∀ c ∈ cs, blank c = false) :
    ((cs.dropWhile blank).reverse.dropWhile blank).reverse = cs := by
  have hkeep : ∀ ds : List Char, (∀ c ∈ ds, blank c = false) → ds.dropWhile blank = ds := by
    intro ds hds
    cases ds with
    | nil => rfl
    | cons c ds =>
      exact List.dropWhile_cons_of_neg (by rw [hds c List.mem_cons_self]; decide)
  rw [hkeep cs h, hkeep cs.reverse fun c hc => h c (List.mem_reverse.1 hc), List.reverse_reverse]

theorem toList_toString_int (n : Int) : (toString n).toList =
    (if n < 0 then ['-'] else []) ++ Nat.toDigits 10 n.natAbs := by
  rw [Int.toString_eq_repr, Int.repr_eq_if]
  by_cases hn : n < 0
  · have habs : (-n).toNat = n.natAbs := by omega
    rw [if_neg (by omega), if_pos hn, habs]
    simp
  · have habs : n.toNat = n.natAbs := by omega
    rw [if_pos (by omega), if_neg hn, habs]
    simp

theorem isNumberBlank_of_sign_or_digit (h : c = '-' ∨ c.isDigit = true) (ascii : Bool) :
    isNumberBlank ascii c = false := by
  have hcode : c.toNat = 45 ∨ (48 ≤ c.toNat ∧ c.toNat ≤ 57) := by
    rcases h with rfl | hc
    · exact .inl rfl
    · exact .inr (Char.isDigit_iff_toNat.1 hc)
  have hblank : isBlank c = false := by
    simp only [isBlank, Bool.or_eq_false_iff, Bool.and_eq_false_iff, decide_eq_false_iff_not,
      beq_eq_false_iff_ne]
    omega
  have hspace : (c == ' ') = false := by
    apply beq_false_of_ne
    rintro rfl
    revert hcode
    decide
  have hcontrol : (decide (9 ≤ c.toNat) && decide (c.toNat ≤ 13)) = false := by
    simp only [Bool.and_eq_false_iff, decide_eq_false_iff_not]
    omega
  cases ascii with
  | true => simp only [isNumberBlank, if_true, hspace, hcontrol, Bool.or_self]
  | false => simpa [isNumberBlank] using hblank

theorem splitSign_toString (n : Int) :
    splitSign (toString n).toList = (decide (n < 0), Nat.toDigits 10 n.natAbs) := by
  rw [toList_toString_int]
  by_cases hn : n < 0
  · rw [if_pos hn, decide_eq_true hn]
    rfl
  · obtain ⟨c, ds, hcons⟩ := List.exists_cons_of_ne_nil
      (Nat.toDigits_ne_nil (n := n.natAbs) (b := 10))
    have hc : c.isDigit = true :=
      isDigit_toDigits n.natAbs c (by rw [hcons]; exact List.mem_cons_self)
    rw [if_neg hn, List.nil_append, decide_eq_false hn, hcons]
    unfold splitSign
    split
    · next heq => cases heq; cases hc
    · next heq => cases heq; cases hc
    · rfl

theorem integer?_toString {n : Int} (h : (Primitive.int n).hasText = true) :
    integer? (toString n) = .ok n := by
  have hlength := Primitive.hasText_int_iff.1 h
  have hchars : ∀ c ∈ (toString n).toList, c = '-' ∨ c.isDigit = true := by
    intro c hc
    rw [toList_toString_int, List.mem_append] at hc
    rcases hc with hc | hc
    · split at hc
      · exact .inl (List.mem_singleton.1 hc)
      · cases hc
    · exact .inr (isDigit_toDigits _ c hc)
  have hvalue : (if decide (n < 0) = true then -(n.natAbs : Int) else n.natAbs) = n := by
    simp only [decide_eq_true_iff]
    omega
  unfold integer?
  simp only [trimmed_of_forall fun c hc => isNumberBlank_of_sign_or_digit (hchars c hc) _,
    splitSign_toString, digitsWithUnderscores?_toDigits, if_neg (Nat.not_lt.2 hlength), hvalue]

end Text

end FormatFuzz
