import FormatFuzz.Json.Reader
import FormatFuzz.Json.Writer
import Mathlib.Data.List.Basic
import Mathlib.Tactic.SplitIfs

namespace FormatFuzz.Json

variable {start more : List Char} {fuel : Nat} {c : Char}

theorem hex_of_lt {n : Nat} (hn : n < 32) :
    Text.hex 4 n = ['0', '0', (n / 16).digitChar, (n % 16).digitChar] := by
  revert n
  decide

theorem hexDigit?_digitChar {n : Nat} (hn : n < 16) : hexDigit? n.digitChar = some n := by
  revert n
  decide

theorem fourDigits?_hex {n : Nat} (hn : n < 32) (hmore : more ≠ []) :
    fourDigits? (Text.hex 4 n ++ more) = some (n, more) := by
  obtain ⟨a, cs, rfl⟩ := List.exists_cons_of_ne_nil hmore
  have hzero : hexDigit? '0' = some 0 := by decide
  have hhigh := hexDigit?_digitChar (n := n / 16) (by omega)
  have hlow := hexDigit?_digitChar (n := n % 16) (by omega)
  have hsum : 0 * 4096 + 0 * 256 + n / 16 * 16 + n % 16 = n := by omega
  rw [hex_of_lt hn]
  simp only [List.cons_append, List.nil_append, fourDigits?, hzero, hhigh, hlow, Option.bind_eq_bind,
    Option.bind_some, hsum]
  rfl

theorem readString_escapeChar (hmore : more ≠ []) :
    readString start (fuel + 1) (escapeChar c ++ more) =
      (readString start fuel more).map fun p => (c :: p.1, p.2) := by
  unfold escapeChar
  -- the seven characters with a short escape
  iterate 7
    split
    · next h =>
      subst h
      rfl
  split
  · next hcontrol =>
    have hescape : ∀ rest, unicodeEscape c.toNat rest = (c, rest) := by
      intro rest
      have hhigh : ¬ (0xd800 ≤ c.toNat ∧ c.toNat < 0xdc00) := by omega
      have hlow : ¬ (0xd800 ≤ c.toNat ∧ c.toNat < 0xe000) := by omega
      unfold unicodeEscape
      simp only [hhigh, hlow, if_false, Char.ofNat_toNat]
    simp only [List.cons_append, readString, fourDigits?_hex hcontrol hmore, hescape]
    cases readString start fuel more <;> rfl
  · next hquote hslash _ _ _ _ _ hprintable =>
    have hquote' : (c == '"') = false := by simpa using hquote
    have hslash' : (c == '\\') = false := by simpa using hslash
    simp only [List.cons_append, List.nil_append, readString, hquote', hslash']
    rw [if_neg (by decide), if_neg hprintable, if_neg (by decide)]
    cases readString start fuel more <;> rfl

theorem escapeChar_ne_nil (c : Char) : escapeChar c ≠ [] := by
  unfold escapeChar
  split_ifs <;> exact List.cons_ne_nil _ _

theorem length_le_flatMap (s : List Char) : s.length ≤ (s.flatMap escapeChar).length := by
  induction s with
  | nil => exact Nat.le_refl _
  | cons c s ih =>
    have hpos := List.length_pos_iff.2 (escapeChar_ne_nil c)
    rw [List.flatMap_cons, List.length_append, List.length_cons]
    omega

theorem readString_flatMap (start : List Char) (s rest : List Char) (h : s.length < fuel) :
    readString start fuel (s.flatMap escapeChar ++ '"' :: rest) = .ok (s, rest) := by
  induction s generalizing fuel with
  | nil =>
    obtain ⟨fuel, rfl⟩ := Nat.exists_eq_add_one_of_ne_zero (Nat.ne_of_gt h)
    rfl
  | cons c s ih =>
    rw [List.length_cons] at h
    obtain ⟨fuel, rfl⟩ := Nat.exists_eq_add_one_of_ne_zero (Nat.ne_zero_of_lt h)
    rw [List.flatMap_cons, List.append_assoc, readString_escapeChar (by simp), ih (by omega)]
    rfl

/-- The reader of a text has as many steps as there are characters. -/
theorem readString_quoted (start s rest : List Char) :
    readString start (s.flatMap escapeChar ++ '"' :: rest).length
      (s.flatMap escapeChar ++ '"' :: rest) = .ok (s, rest) := by
  apply readString_flatMap
  have hlen := length_le_flatMap s
  rw [List.length_append, List.length_cons]
  omega

end FormatFuzz.Json
