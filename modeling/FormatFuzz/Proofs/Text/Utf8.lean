import FormatFuzz.Text.Utf8
import Mathlib.Tactic.IntervalCases

namespace FormatFuzz.Text

variable {n bits position start missing : Nat} {first low high : UInt8} {bs : List UInt8}

theorem utf8Lead_two (hlow : 0xc2 ≤ n) (hhigh : n ≤ 0xdf) :
    utf8Lead (UInt8.ofNat n) = some (1, 0x80, 0xbf, n - 0xc0) := by
  interval_cases n <;> rfl

/-- The first of three bytes allows the second byte of every character that is not written with two
bytes and is no surrogate. -/
theorem utf8Lead_three {v : Nat} (hlow : 0x800 ≤ v) (hhigh : v ≤ 0xffff)
    (hvalid : v < 0xd800 ∨ 0xdfff < v) :
    ∃ low high, utf8Lead (UInt8.ofNat (v / 4096 % 0x10 + 0xe0)) = some (2, low, high, v / 4096) ∧
      low.toNat ≤ v / 64 % 0x40 + 0x80 ∧ v / 64 % 0x40 + 0x80 ≤ high.toNat := by
  have hv : v / 4096 % 0x10 = v / 4096 := by omega
  have hx : v / 4096 < 0x10 := by omega
  rw [hv]
  generalize hlead : v / 4096 = x at hx ⊢
  interval_cases x <;> refine ⟨_, _, rfl, ?_, ?_⟩ <;> simp <;> omega

/-- The first of four bytes allows the second byte of every character beyond those of three bytes. -/
theorem utf8Lead_four {v : Nat} (hlow : 0x10000 ≤ v) (hhigh : v < 0x110000) :
    ∃ low high, utf8Lead (UInt8.ofNat (v / 262144 % 0x08 + 0xf0)) = some (3, low, high, v / 262144) ∧
      low.toNat ≤ v / 4096 % 0x40 + 0x80 ∧ v / 4096 % 0x40 + 0x80 ≤ high.toNat := by
  have hv : v / 262144 % 0x08 = v / 262144 := by omega
  have hx : v / 262144 < 5 := by omega
  rw [hv]
  generalize hlead : v / 262144 = x at hx ⊢
  interval_cases x <;> refine ⟨_, _, rfl, ?_, ?_⟩ <;> simp <;> omega

theorem toNat_ofNat_of_lt (hn : n < 0x100) : (UInt8.ofNat n).toNat = n := by
  rw [UInt8.toNat_ofNat', Nat.mod_eq_of_lt hn]

theorem between_ofNat (hn : n < 0x100) (hlow : low.toNat ≤ n) (hhigh : n ≤ high.toNat) :
    (low ≤ UInt8.ofNat n && UInt8.ofNat n ≤ high) = true := by
  simp only [UInt8.le_iff_toNat_le, toNat_ofNat_of_lt hn, Bool.and_eq_true, decide_eq_true_eq]
  exact ⟨hlow, hhigh⟩

theorem decodeFrom_single (hn : n < 0x80) :
    decodeFrom position none (UInt8.ofNat n :: bs) =
      (decodeFrom (position + 1) none bs).map (Char.ofNat n :: ·) := by
  have hto := toNat_ofNat_of_lt (n := n) (by omega)
  have hlt : UInt8.ofNat n < 0x80 := by
    rw [UInt8.lt_iff_toNat_lt, hto]
    exact hn
  simp only [decodeFrom, if_pos hlt, hto]
  cases decodeFrom (position + 1) none bs <;> rfl

theorem decodeFrom_lead {count : Nat} (hn : 0x80 ≤ n) (hn' : n < 0x100)
    (hlead : utf8Lead (UInt8.ofNat n) = some (count, low, high, bits)) :
    decodeFrom position none (UInt8.ofNat n :: bs) =
      decodeFrom (position + 1) (some (UInt8.ofNat n, position, count, low, high, bits)) bs := by
  have hge : ¬ UInt8.ofNat n < 0x80 := by
    rw [UInt8.lt_iff_toNat_lt, toNat_ofNat_of_lt hn']
    exact Nat.not_lt.2 hn
  simp only [decodeFrom, if_neg hge, hlead]

theorem decodeFrom_more (hn : n < 0x40) (hlow : low.toNat ≤ n + 0x80) (hhigh : n + 0x80 ≤ high.toNat)
    (hmissing : 1 < missing) :
    decodeFrom position (some (first, start, missing, low, high, bits)) (UInt8.ofNat (n + 0x80) :: bs) =
      decodeFrom (position + 1) (some (first, start, missing - 1, 0x80, 0xbf, bits * 64 + n)) bs := by
  have hto := toNat_ofNat_of_lt (n := n + 0x80) (by omega)
  have hin := between_ofNat (n := n + 0x80) (by omega) hlow hhigh
  simp only [decodeFrom, hin, if_true, hto, Nat.add_sub_cancel, if_neg (Nat.not_le.2 hmissing)]

theorem decodeFrom_last (hn : n < 0x40) (hlow : low.toNat ≤ n + 0x80) (hhigh : n + 0x80 ≤ high.toNat) :
    decodeFrom position (some (first, start, 1, low, high, bits)) (UInt8.ofNat (n + 0x80) :: bs) =
      (decodeFrom (position + 1) none bs).map (Char.ofNat (bits * 64 + n) :: ·) := by
  have hto := toNat_ofNat_of_lt (n := n + 0x80) (by omega)
  have hin := between_ofNat (n := n + 0x80) (by omega) hlow hhigh
  simp only [decodeFrom, hin, if_true, hto, Nat.add_sub_cancel, le_refl]
  cases decodeFrom (position + 1) none bs <;> rfl

theorem decodeFrom_utf8EncodeChar (c : Char) (position : Nat) (bs : List UInt8) :
    ∃ next, decodeFrom position none (String.utf8EncodeChar c ++ bs) =
      (decodeFrom next none bs).map (c :: ·) := by
  have hc : Char.ofNat c.val.toNat = c := c.ofNat_toNat
  have hvalid : c.val.toNat < 0xd800 ∨ 0xdfff < c.val.toNat ∧ c.val.toNat < 0x110000 := c.valid
  unfold String.utf8EncodeChar
  generalize c.val.toNat = v at hc hvalid
  subst hc
  simp only
  split
  · exact ⟨_, decodeFrom_single (by omega)⟩
  split
  · have hlead := utf8Lead_two (n := v / 64 % 0x20 + 0xc0) (by omega) (by omega)
    refine ⟨position + 2, ?_⟩
    rw [List.cons_append, List.cons_append, List.nil_append,
      decodeFrom_lead (by omega) (by omega) hlead, decodeFrom_last (by omega) (by simp) (by simp; omega)]
    have hv : (v / 64 % 0x20 + 0xc0 - 0xc0) * 64 + v % 0x40 = v := by omega
    rw [hv]
  split
  · obtain ⟨low, high, hlead, hlow, hhigh⟩ := utf8Lead_three (v := v) (by omega) (by omega) (by omega)
    refine ⟨position + 3, ?_⟩
    rw [List.cons_append, List.cons_append, List.cons_append, List.nil_append,
      decodeFrom_lead (by omega) (by omega) hlead,
      decodeFrom_more (by omega) hlow hhigh (by omega),
      decodeFrom_last (by omega) (by simp) (by simp; omega)]
    have hv : (v / 4096 * 64 + v / 64 % 0x40) * 64 + v % 0x40 = v := by omega
    rw [hv]
  · obtain ⟨low, high, hlead, hlow, hhigh⟩ := utf8Lead_four (v := v) (by omega) (by omega)
    refine ⟨position + 4, ?_⟩
    rw [List.cons_append, List.cons_append, List.cons_append, List.cons_append, List.nil_append,
      decodeFrom_lead (by omega) (by omega) hlead,
      decodeFrom_more (by omega) hlow hhigh (by omega),
      decodeFrom_more (by omega) (by simp) (by simp; omega) (by omega),
      decodeFrom_last (by omega) (by simp) (by simp; omega)]
    have hv : ((v / 262144 * 64 + v / 4096 % 0x40) * 64 + v / 64 % 0x40) * 64 + v % 0x40 = v := by
      omega
    rw [hv]

theorem decodeFrom_flatMap (cs : List Char) (position : Nat) :
    decodeFrom position none (cs.flatMap String.utf8EncodeChar) = .ok cs := by
  induction cs generalizing position with
  | nil => rfl
  | cons c cs ih =>
    obtain ⟨next, h⟩ := decodeFrom_utf8EncodeChar c position (cs.flatMap String.utf8EncodeChar)
    rw [List.flatMap_cons, h, ih]
    rfl

theorem encodeUtf8_eq_flatMap (s : String) : encodeUtf8 s = s.toList.flatMap String.utf8EncodeChar := by
  have h : s.toUTF8 = s.toList.utf8Encode := by
    rw [String.toUTF8_eq_toByteArray, ← String.toByteArray_ofList, String.ofList_toList]
  rw [encodeUtf8, h, List.utf8Encode]
  simp

/-- A text is read back from its bytes as it was. -/
theorem decodeUtf8_encodeUtf8 (s : String) : decodeUtf8 (encodeUtf8 s) = .ok s := by
  rw [decodeUtf8, encodeUtf8_eq_flatMap, decodeFrom_flatMap]
  simp [bind, Except.bind, pure, Except.pure]

end FormatFuzz.Text
