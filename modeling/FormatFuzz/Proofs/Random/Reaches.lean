import FormatFuzz.Proofs.Random.Yields
import Mathlib.Algebra.Group.Nat.Defs

/-!
# What a draw can reach

A draw reaches a result when some words make it yield that result, whatever words follow them. The words
of a composed draw are those of its parts in a row. A bounded number reaches every value below its bound:
the words that spell the value in binary are not rejected.
-/

namespace FormatFuzz.Random.Draw

variable {α β : Type}

/-- Some words lead to a result and are used up by it. -/
def Reaches (d : Draw Words α) (a : α) : Prop := ∃ ws, ∀ rest, d ⟨ws ++ rest⟩ = (a, ⟨rest⟩)

theorem reaches_pure (a : α) : Reaches (pure a) a := ⟨[], fun _ => rfl⟩

theorem Reaches.bind {d : Draw Words α} {f : α → Draw Words β} {a : α} {b : β} (hd : Reaches d a)
    (hf : Reaches (f a) b) : Reaches (d >>= f) b := by
  obtain ⟨ws, hws⟩ := hd
  obtain ⟨vs, hvs⟩ := hf
  refine ⟨ws ++ vs, fun rest => ?_⟩
  change f (d ⟨ws ++ vs ++ rest⟩).1 (d ⟨ws ++ vs ++ rest⟩).2 = (b, ⟨rest⟩)
  rw [List.append_assoc, hws, hvs]

theorem word_reaches {n : Nat} (h : n < 2 ^ 32) : Reaches word n := by
  refine ⟨[UInt32.ofNat n], fun rest => ?_⟩
  change ((UInt32.ofNat n).toNat, _) = _
  rw [UInt32.toNat_ofNat_of_lt' h]
  rfl

theorem wordsThenBits_reaches {full rest n : Nat} (hrest : rest ≤ 32)
    (h : n < 2 ^ (32 * full + rest)) : Reaches (wordsThenBits full rest) n := by
  induction full generalizing n with
  | zero =>
    -- of the last word the upper bits are taken, so the number is put there
    have hword : n <<< (32 - rest) < 2 ^ 32 := by
      rw [Nat.shiftLeft_eq]
      calc n * 2 ^ (32 - rest) < 2 ^ rest * 2 ^ (32 - rest) :=
            Nat.mul_lt_mul_of_pos_right (by simpa using h) (Nat.two_pow_pos _)
        _ = 2 ^ 32 := by rw [← Nat.pow_add, Nat.add_sub_cancel' hrest]
    refine (word_reaches hword).bind ?_
    rw [Nat.shiftLeft_shiftRight]
    exact reaches_pure n
  | succ full ih =>
    -- the low bits come with the first word and the others with the words behind it
    have hlow : n % 2 ^ 32 < 2 ^ 32 := Nat.mod_lt _ (Nat.two_pow_pos _)
    have hhigh : n / 2 ^ 32 < 2 ^ (32 * full + rest) := by
      rw [Nat.div_lt_iff_lt_mul (Nat.two_pow_pos _), ← Nat.pow_add]
      calc n < 2 ^ (32 * (full + 1) + rest) := h
        _ = 2 ^ (32 * full + rest + 32) := by congr 1; omega
    refine (word_reaches hlow).bind ((ih hhigh).bind ?_)
    have hsum : n % 2 ^ 32 + (n / 2 ^ 32) <<< 32 = n := by
      rw [Nat.shiftLeft_eq, Nat.mul_comm]
      exact Nat.mod_add_div n (2 ^ 32)
    rw [hsum]
    exact reaches_pure n

theorem bits_reaches {count n : Nat} (h : n < 2 ^ count) : Reaches (bits count) n := by
  cases count with
  | zero =>
    obtain rfl : n = 0 := by simpa using h
    exact reaches_pure 0
  | succ count =>
    refine wordsThenBits_reaches (by omega) ?_
    rwa [show 32 * (count / 32) + (count % 32 + 1) = count + 1 by omega]

theorem firstBelow_reaches {bound width n : Nat} (hbound : n < bound) (hwidth : n < 2 ^ width)
    (tries : Nat) : Reaches (firstBelow bound width tries) n := by
  cases tries with
  | zero =>
    refine (bits_reaches hwidth).bind ?_
    rw [Nat.mod_eq_of_lt hbound]
    exact reaches_pure n
  | succ tries =>
    refine (bits_reaches hwidth).bind ?_
    rw [if_pos hbound]
    exact reaches_pure n

theorem below_reaches {bound n : Nat} (h : n < bound) : Reaches (below bound) n := by
  rw [below, if_neg (by omega)]
  exact firstBelow_reaches h (Nat.lt_trans h Nat.lt_log2_self) patience

theorem between_reaches {low high n : Int} (hlow : low ≤ n) (hhigh : n ≤ high) :
    Reaches (between low high) n := by
  rw [between, if_pos (Int.le_trans hlow hhigh)]
  have hbelow : (n - low).toNat < (high - low + 1).toNat := by omega
  refine (below_reaches hbelow).bind ?_
  rw [show low + ((n - low).toNat : Int) = n by omega]
  exact reaches_pure n

/-- The upper bits of a fraction come with the first word and the lower ones with the second. -/
theorem fraction_reaches {n : Nat} (h : n < 2 ^ 53) : Reaches fraction n := by
  have hhigh : n / 2 ^ 26 * 2 ^ 5 < 2 ^ 32 := by omega
  have hlow : n % 2 ^ 26 * 2 ^ 6 < 2 ^ 32 := by omega
  refine (word_reaches hhigh).bind ((word_reaches hlow).bind ?_)
  have hsum : (n / 2 ^ 26 * 2 ^ 5) >>> 5 <<< 26 + (n % 2 ^ 26 * 2 ^ 6) >>> 6 = n := by
    simp only [Nat.shiftRight_eq_div_pow, Nat.shiftLeft_eq]
    omega
  rw [hsum]
  exact reaches_pure n

theorem chance_reaches {part whole n : Nat} (h : n < 2 ^ 53) :
    Reaches (chance part whole) (n < ((2 * part) <<< 53 + whole) / (2 * whole)) :=
  (fraction_reaches h).bind (reaches_pure _)

theorem choose_reaches {xs : List α} {i : Nat} (hi : i < xs.length) (nonempty : 0 < xs.length) :
    Reaches (choose xs nonempty) xs[i] := by
  refine (below_reaches hi).bind ?_
  rw [dif_pos hi]
  exact reaches_pure _

end FormatFuzz.Random.Draw
