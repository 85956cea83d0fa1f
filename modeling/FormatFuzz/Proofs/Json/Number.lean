import FormatFuzz.Json.Reader
import FormatFuzz.Json.Writer
import FormatFuzz.Proofs.Decimal.Shortest
import FormatFuzz.Proofs.Text.Integer

namespace FormatFuzz.Json

open Decimal

/-! ## Digits -/

def Digital (ds : List Char) : Prop := ds ≠ [] ∧ ∀ c ∈ ds, c.isDigit = true

def DigitFree (rest : List Char) : Prop := ∀ c ∈ rest.head?, c.isDigit = false

/-- A text that does not go on with anything that belongs to a number. -/
def NumberFree (rest : List Char) : Prop :=
  ∀ c ∈ rest.head?, c.isDigit = false ∧ c ≠ '.' ∧ c ≠ 'e' ∧ c ≠ 'E'

variable {ds rest : List Char}

theorem NumberFree.digitFree (h : NumberFree rest) : DigitFree rest := fun c hc => (h c hc).1

theorem digital_digitsOf (n : Nat) : Digital (digitsOf n) :=
  ⟨Nat.toDigits_ne_nil, fun _ hc => Nat.isDigit_of_mem_toDigits (by omega) (by omega) hc⟩

theorem Digital.append (h : Digital ds) {more : List Char} (hmore : ∀ c ∈ more, c.isDigit = true) :
    Digital (ds ++ more) := by
  refine ⟨fun hnil => h.1 (List.append_eq_nil_iff.1 hnil).1, fun c hc => ?_⟩
  exact (List.mem_append.1 hc).elim (h.2 c) (hmore c)

theorem takeWhile_isDigit_append (hds : ∀ c ∈ ds, c.isDigit = true) (hrest : DigitFree rest) :
    (ds ++ rest).takeWhile Char.isDigit = ds ∧ (ds ++ rest).dropWhile Char.isDigit = rest := by
  rw [List.takeWhile_append_of_pos hds, List.dropWhile_append_of_pos hds]
  cases rest with
  | nil => exact ⟨List.append_nil _, rfl⟩
  | cons c rest =>
    have hc : ¬ c.isDigit = true := Bool.not_eq_true _ ▸ hrest c rfl
    rw [List.takeWhile_cons_of_neg hc, List.dropWhile_cons_of_neg hc, List.append_nil]
    exact ⟨rfl, rfl⟩

theorem digitsValue_eq (ds : List Char) : digitsValue ds = Nat.ofDigitChars 10 ds 0 := by
  rw [digitsValue, Nat.ofDigitChars_eq_foldl]
  congr 1
  funext n d
  rw [Nat.mul_comm]
  rfl

@[simp] theorem digitsValue_digitsOf (n : Nat) : digitsValue (digitsOf n) = n := by
  rw [digitsValue_eq, digitsOf, Nat.ofDigitChars_ten_toDigits]

theorem digitsValue_append (ds more : List Char) :
    digitsValue (ds ++ more) = 10 ^ more.length * digitsValue ds + digitsValue more := by
  rw [digitsValue_eq, digitsValue_eq, digitsValue_eq, Nat.ofDigitChars_append,
    Nat.ofDigitChars_eq_ofDigitChars_zero]

@[simp] theorem digitsValue_replicate_zero (n : Nat) : digitsValue (List.replicate n '0') = 0 := by
  rw [digitsValue_eq, Nat.ofDigitChars_replicate_zero, Nat.mul_zero]

theorem digitsValue_padLeft (width n : Nat) : digitsValue (padLeft width (digitsOf n)) = n := by
  rw [padLeft, digitsValue_append, digitsValue_replicate_zero, Nat.mul_zero, Nat.zero_add,
    digitsValue_digitsOf]

theorem digital_padLeft (width n : Nat) : Digital (padLeft width (digitsOf n)) := by
  have h := digital_digitsOf n
  refine ⟨fun hnil => h.1 (List.append_eq_nil_iff.1 hnil).2, fun c hc => ?_⟩
  rcases List.mem_append.1 hc with hc | hc
  · rw [List.eq_of_mem_replicate hc]
    rfl
  · exact h.2 c hc

/-- Only zero is written with a zero in front. -/
theorem head_digitsOf_ne_zero {n : Nat} (hn : n ≠ 0) : (digitsOf n).head? ≠ some '0' := by
  induction n using Nat.strongRecOn with
  | ind n ih =>
    rw [digitsOf, Nat.toDigits_eq_if (by omega)]
    split
    · next hlt =>
      have hdigit : ∀ m < 10, m ≠ 0 → Nat.digitChar m ≠ '0' := by decide
      rw [List.head?_cons]
      exact fun h => hdigit n hlt hn (Option.some.inj h)
    · next hge =>
      rw [List.head?_append_of_ne_nil _ Nat.toDigits_ne_nil]
      exact ih (n / 10) (by omega) (by omega)

/-! ## The parts of a number -/

def Whole (ds : List Char) : Prop := ds = ['0'] ∨ Digital ds ∧ ds.head? ≠ some '0'

theorem Whole.digital (h : Whole ds) : Digital ds := by
  rcases h with rfl | h
  · exact ⟨by simp, by simp⟩
  · exact h.1

theorem whole_digitsOf (n : Nat) : Whole (digitsOf n) := by
  by_cases hn : n = 0
  · rw [hn]
    exact .inl rfl
  · exact .inr ⟨digital_digitsOf n, head_digitsOf_ne_zero hn⟩

theorem integralPart_append (hds : Whole ds) (hrest : DigitFree rest) :
    integralPart (ds ++ rest) = some (ds, rest) := by
  rcases hds with rfl | ⟨⟨hne, hdigits⟩, hhead⟩
  · rfl
  · obtain ⟨htake, hdrop⟩ := takeWhile_isDigit_append hdigits hrest
    obtain ⟨c, cs, rfl⟩ := List.exists_cons_of_ne_nil hne
    have hc : c ≠ '0' := fun h => hhead (by rw [h]; rfl)
    rw [List.cons_append] at htake hdrop ⊢
    rw [integralPart.eq_2 _ (fun _ h => hc (List.cons.inj h).1), htake, hdrop]
    rfl

theorem fractionPart_append (hds : Digital ds) (hrest : DigitFree rest) :
    fractionPart ('.' :: (ds ++ rest)) = some (ds, rest) := by
  obtain ⟨htake, hdrop⟩ := takeWhile_isDigit_append hds.2 hrest
  simp only [fractionPart, htake, hdrop]
  rw [if_neg (by rw [List.isEmpty_iff]; exact hds.1)]

theorem fractionPart_eq_none (h : '.' ∉ rest.head?) : fractionPart rest = none := by
  unfold fractionPart
  split
  · exact absurd rfl h
  · rfl

theorem exponentPart_append (hds : Digital ds) (hrest : DigitFree rest) (negative : Bool) :
    exponentPart ('e' :: (if negative then '-' else '+') :: (ds ++ rest)) =
      some (if negative then -(digitsValue ds : Int) else digitsValue ds, rest) := by
  obtain ⟨htake, hdrop⟩ := takeWhile_isDigit_append hds.2 hrest
  have hne : ¬ ds.isEmpty = true := by rw [List.isEmpty_iff]; exact hds.1
  cases negative with
  | false => simp [exponentPart, htake, hdrop, hne]
  | true => simp [exponentPart, htake, hdrop, hne]

theorem exponentPart_eq_none (h : 'e' ∉ rest.head? ∧ 'E' ∉ rest.head?) : exponentPart rest = none := by
  cases rest with
  | nil => rfl
  | cons c rest =>
    have hc : c ≠ 'e' ∧ c ≠ 'E' := ⟨fun hc => h.1 (by rw [hc]; rfl), fun hc => h.2 (by rw [hc]; rfl)⟩
    simp [exponentPart, hc.1, hc.2]

/-! ## Numerals -/

structure Numeral where
  negative : Bool
  whole : List Char
  places : Option (List Char)
  /-- Whether the exponent is negative, and its digits. -/
  exponent : Option (Bool × List Char)
  whole_valid : Whole whole
  places_valid : ∀ ds ∈ places, Digital ds
  exponent_valid : ∀ e ∈ exponent, Digital e.2

namespace Numeral

def signText (n : Numeral) : List Char := if n.negative then ['-'] else []

def placesText (n : Numeral) : List Char := (n.places.map ('.' :: ·)).getD []

def exponentText (n : Numeral) : List Char :=
  (n.exponent.map fun (negative, ds) => 'e' :: (if negative then '-' else '+') :: ds).getD []

def text (n : Numeral) : List Char := n.signText ++ (n.whole ++ (n.placesText ++ n.exponentText))

def decimal (n : Numeral) : Digits where
  digits := digitsValue (n.whole ++ n.places.getD [])
  exponent := (n.exponent.map fun (negative, ds) =>
    if negative then -(digitsValue ds : Int) else digitsValue ds).getD 0 - (n.places.getD []).length

/-- Without point and exponent the number is an integer. -/
def value (n : Numeral) : Primitive :=
  if n.places.isNone && n.exponent.isNone then
    .int (if n.negative then -(digitsValue n.whole : Int) else digitsValue n.whole)
  else .float (.ofDecimal n.negative n.decimal.digits n.decimal.exponent)

variable {n : Numeral}

theorem exponentPart_text (hrest : NumberFree rest) :
    exponentPart (n.exponentText ++ rest) = n.exponent.map fun (negative, ds) =>
      (if negative then -(digitsValue ds : Int) else digitsValue ds, rest) := by
  have hvalid := n.exponent_valid
  rw [exponentText]
  cases h : n.exponent with
  | none =>
    apply exponentPart_eq_none
    exact ⟨fun hc => (hrest _ hc).2.2.1 rfl, fun hc => (hrest _ hc).2.2.2 rfl⟩
  | some e =>
    obtain ⟨negative, ds⟩ := e
    exact exponentPart_append (hvalid _ h) hrest.digitFree negative

theorem digitFree_exponentText (hrest : NumberFree rest) : DigitFree (n.exponentText ++ rest) := by
  rw [exponentText]
  cases n.exponent with
  | none => exact hrest.digitFree
  | some e =>
    rintro c ⟨⟩
    rfl

theorem fractionPart_text (hrest : NumberFree rest) :
    fractionPart (n.placesText ++ (n.exponentText ++ rest)) =
      n.places.map fun ds => (ds, n.exponentText ++ rest) := by
  have hvalid := n.places_valid
  have hfree := n.digitFree_exponentText hrest
  rw [placesText]
  cases h : n.places with
  | none =>
    refine fractionPart_eq_none fun hc => ?_
    rw [exponentText] at hc
    cases he : n.exponent with
    | none =>
      rw [he] at hc
      exact (hrest _ hc).2.1 rfl
    | some e =>
      rw [he] at hc
      cases hc
  | some ds => exact fractionPart_append (hvalid _ h) hfree

theorem digitFree_placesText (hrest : NumberFree rest) :
    DigitFree (n.placesText ++ (n.exponentText ++ rest)) := by
  rw [placesText]
  cases n.places with
  | none => exact n.digitFree_exponentText hrest
  | some ds =>
    rintro c ⟨⟩
    rfl

theorem sign_text (n : Numeral) (rest : List Char) :
    ((n.text ++ rest).head? == some '-') = n.negative ∧
      (if n.negative then (n.text ++ rest).drop 1 else n.text ++ rest) =
        n.whole ++ (n.placesText ++ (n.exponentText ++ rest)) := by
  obtain ⟨hne, hdigits⟩ := n.whole_valid.digital
  obtain ⟨c, cs, hwhole⟩ := List.exists_cons_of_ne_nil hne
  have hc : c ≠ '-' := by
    rintro rfl
    exact absurd (hdigits '-' (by rw [hwhole]; exact List.mem_cons_self)) (by decide)
  rw [text, signText, hwhole]
  cases n.negative with
  | false => simp [hc]
  | true => simp

theorem readNumber?_text (n : Numeral) (hrest : NumberFree rest) :
    readNumber? (n.text ++ rest) = some (n.value, rest) := by
  obtain ⟨hnegative, hbody⟩ := n.sign_text rest
  have hfraction := n.fractionPart_text hrest
  have hexponent := n.exponentPart_text hrest
  have hwhole := integralPart_append n.whole_valid (n.digitFree_placesText hrest)
  have hplaces : ((n.places.map fun ds => (ds, n.exponentText ++ rest)).map (·.2)).getD
      (n.placesText ++ (n.exponentText ++ rest)) = n.exponentText ++ rest := by
    rw [placesText]
    cases n.places <;> rfl
  have hscale : ((n.exponent.map fun (negative, ds) =>
      (if negative then -(digitsValue ds : Int) else digitsValue ds, rest)).map (·.2)).getD
      (n.exponentText ++ rest) = rest := by
    rw [exponentText]
    cases n.exponent <;> rfl
  simp only [readNumber?, hnegative, hbody, hwhole, Option.bind_eq_bind, Option.bind_some, hfraction,
    hplaces, hexponent, hscale, value, decimal]
  cases n.places <;> cases n.exponent <;> rfl

end Numeral

/-! ## Layouts -/

theorem digitsOf_ne_nil (n : Nat) : digitsOf n ≠ [] := (digital_digitsOf n).1

/-- The digits of a number other than zero can be cut short and followed by zeros before a point. -/
theorem whole_take_append {n k : Nat} (hn : n ≠ 0) (hk : 0 < k) (zeros : Nat) :
    Whole ((digitsOf n).take k ++ List.replicate zeros '0') := by
  have hdigits := (digital_digitsOf n).2
  have hne : (digitsOf n).take k ≠ [] := by
    rw [ne_eq, List.take_eq_nil_iff]
    exact not_or.2 ⟨hk.ne', digitsOf_ne_nil n⟩
  have htake : Digital ((digitsOf n).take k) := ⟨hne, fun c hc => hdigits c (List.mem_of_mem_take hc)⟩
  refine .inr ⟨htake.append fun c hc => ?_, ?_⟩
  · rw [List.eq_of_mem_replicate hc]
    rfl
  · rw [List.head?_append_of_ne_nil _ hne, List.head?_take, if_neg hk.ne']
    exact head_digitsOf_ne_zero hn

/-- Behind its sign, the text is a number with a point or an exponent that stands for a decimal. -/
def Writes (body : List Char) (d : Digits) : Prop :=
  ∀ negative, ∃ n : Numeral, n.negative = negative ∧ n.text = n.signText ++ body ∧
    (n.places.isNone && n.exponent.isNone) = false ∧ n.decimal.value = d.value

variable {digits : Nat}

theorem writes_before (digits k : Nat) :
    Writes ('0' :: '.' :: (List.replicate k '0' ++ digitsOf digits))
      ⟨digits, -(k + (digitsOf digits).length : Nat)⟩ := by
  intro negative
  have hplaces : Digital (List.replicate k '0' ++ digitsOf digits) := by
    refine ⟨by simp [digitsOf_ne_nil], fun c hc => ?_⟩
    rcases List.mem_append.1 hc with hc | hc
    · rw [List.eq_of_mem_replicate hc]
      rfl
    · exact (digital_digitsOf digits).2 c hc
  refine ⟨⟨negative, ['0'], some (List.replicate k '0' ++ digitsOf digits), none, .inl rfl, ?_,
    by simp⟩, rfl, ?_, rfl, ?_⟩
  · rintro ds ⟨⟩
    exact hplaces
  · simp [Numeral.text, Numeral.placesText, Numeral.exponentText]
  · have hvalue : digitsValue ('0' :: (List.replicate k '0' ++ digitsOf digits)) = digits := by
      rw [← List.cons_append, ← List.replicate_succ, digitsValue_append, digitsValue_replicate_zero,
        Nat.mul_zero, Nat.zero_add, digitsValue_digitsOf]
    simp [Numeral.decimal, Digits.value, hvalue]

theorem writes_behind (hdigits : digits ≠ 0) (k : Nat) :
    Writes (digitsOf digits ++ List.replicate k '0' ++ ['.', '0']) ⟨digits, k⟩ := by
  intro negative
  have hwhole := whole_take_append hdigits (List.length_pos_iff.2 (digitsOf_ne_nil digits)) k
  rw [List.take_length] at hwhole
  refine ⟨⟨negative, digitsOf digits ++ List.replicate k '0', some ['0'], none, hwhole, ?_, by simp⟩,
    rfl, ?_, rfl, ?_⟩
  · rintro ds ⟨⟩
    exact ⟨by simp, by simp⟩
  · simp [Numeral.text, Numeral.placesText, Numeral.exponentText]
  · have hvalue : digitsValue (digitsOf digits ++ List.replicate k '0' ++ ['0']) =
        digits * 10 ^ k * 10 := by
      rw [List.append_assoc, ← List.replicate_succ', digitsValue_append, digitsValue_replicate_zero,
        List.length_replicate, digitsValue_digitsOf]
      ring
    rw [Numeral.decimal, Digits.value, Digits.value]
    simp only [Option.getD_some, hvalue]
    simp

theorem writes_between (hdigits : digits ≠ 0) {k : Nat} (hk : 0 < k)
    (hlt : k < (digitsOf digits).length) :
    Writes ((digitsOf digits).take k ++ '.' :: (digitsOf digits).drop k)
      ⟨digits, (k : Int) - (digitsOf digits).length⟩ := by
  intro negative
  have hwhole := whole_take_append hdigits hk 0
  rw [List.replicate_zero, List.append_nil] at hwhole
  refine ⟨⟨negative, (digitsOf digits).take k, some ((digitsOf digits).drop k), none, hwhole, ?_,
    by simp⟩, rfl, ?_, rfl, ?_⟩
  · rintro ds ⟨⟩
    refine ⟨by simpa using hlt, fun c hc => (digital_digitsOf digits).2 c (List.mem_of_mem_drop hc)⟩
  · simp [Numeral.text, Numeral.placesText, Numeral.exponentText]
  · have hlen : -(((digitsOf digits).length - k : Nat) : Int) = k - (digitsOf digits).length := by
      omega
    simp [Numeral.decimal, Digits.value, hlen]

/-- The digits with a point behind the first one, if there is another. -/
theorem writes_scaled (hdigits : digits ≠ 0) (width : Nat) (e : Int) :
    Writes ((match digitsOf digits with
        | [] => []
        | [c] => [c]
        | c :: rest => c :: '.' :: rest) ++
        'e' :: (if e < 0 then '-' else '+') :: padLeft width (digitsOf e.natAbs))
      ⟨digits, e + 1 - (digitsOf digits).length⟩ := by
  intro negative
  have hwhole := whole_take_append hdigits Nat.one_pos 0
  have hds := (digital_digitsOf digits).2
  have hvalue := digitsValue_digitsOf digits
  have hscale : ∀ ds ∈ some (decide (e < 0), padLeft width (digitsOf e.natAbs)), Digital ds.2 := by
    rintro ds ⟨⟩
    exact digital_padLeft _ _
  have hexp : (if decide (e < 0) = true then -(e.natAbs : Int) else e.natAbs) = e := by
    by_cases he : e < 0
    · rw [if_pos (decide_eq_true he)]
      omega
    · rw [if_neg (by simpa using he)]
      omega
  rw [List.replicate_zero, List.append_nil] at hwhole
  cases h : digitsOf digits with
  | nil => exact absurd h (digitsOf_ne_nil digits)
  | cons c rest =>
    rw [h] at hwhole hds hvalue
    cases rest with
    | nil =>
      refine ⟨⟨negative, [c], none, _, hwhole, by simp, hscale⟩, rfl, ?_, rfl, ?_⟩
      · simp [Numeral.text, Numeral.placesText, Numeral.exponentText]
      · rw [Numeral.decimal]
        simp only [Option.getD_none, List.append_nil, Option.map_some, Option.getD_some,
          digitsValue_padLeft, hvalue, hexp]
        simp
    | cons c' rest =>
      refine ⟨⟨negative, [c], some (c' :: rest), _, hwhole, ?_, hscale⟩, rfl, ?_, rfl, ?_⟩
      · rintro ds ⟨⟩
        exact ⟨by simp, fun a ha => hds a (List.mem_cons_of_mem _ ha)⟩
      · simp [Numeral.text, Numeral.placesText, Numeral.exponentText]
      · rw [Numeral.decimal]
        simp only [List.singleton_append, Option.map_some, Option.getD_some, digitsValue_padLeft,
          hvalue, hexp, List.length_cons]
        congr 2
        omega

theorem writes_magnitude (style : Style) {d : Digits} (hd : d.digits ≠ 0) :
    Writes (style.magnitude d) d := by
  obtain ⟨digits, exponent⟩ := d
  have hlen := List.length_pos_iff.2 (digitsOf_ne_nil digits)
  rw [Style.magnitude]
  simp only at hd ⊢
  generalize hpoint : ((digitsOf digits).length : Int) + exponent = point
  split
  · split
    · have h := writes_before digits (-point).toNat
      obtain rfl : exponent = -((-point).toNat + (digitsOf digits).length : Nat) := by omega
      exact h
    · split
      · have h := writes_behind hd (point.toNat - (digitsOf digits).length)
        obtain rfl : exponent = (point.toNat - (digitsOf digits).length : Nat) := by omega
        exact h
      · have h := writes_between hd (k := point.toNat) (by omega) (by omega)
        obtain rfl : exponent = point.toNat - (digitsOf digits).length := by omega
        exact h
  · have h := writes_scaled hd style.exponentDigits (point - 1)
    obtain rfl : exponent = point - 1 + 1 - (digitsOf digits).length := by omega
    exact h

/-! ## Doubles and integers -/

theorem ofDecimal_zero (negative : Bool) (e : Int) :
    Binary64.ofDecimal negative 0 e = Binary64.ofFields negative 0 0 := if_pos rfl

theorem writes_zero : Writes ['0', '.', '0'] ⟨0, 0⟩ := by
  intro negative
  refine ⟨⟨negative, ['0'], some ['0'], none, .inl rfl, ?_, by simp⟩, rfl, ?_, rfl, ?_⟩
  · rintro ds ⟨⟩
    exact ⟨by simp, by simp⟩
  · simp [Numeral.text, Numeral.placesText, Numeral.exponentText]
  · have hvalue : digitsValue ['0', '0'] = 0 := by decide
    simp [Numeral.decimal, Digits.value, hvalue]

theorem digits_shortest_ne_zero {x : Binary64} (hx : x.HasDigits) :
    (Digits.shortest x).digits ≠ 0 := by
  intro hzero
  have hpos := (hx.covers_bounds (Digits.shortest_covers hx)).1
  have hsmall : (0 : ℚ) < 10 ^ (-400 : Int) := by positivity
  rw [Digits.value, hzero, Nat.cast_zero, zero_mul] at hpos
  exact absurd hsmall hpos.not_gt

/-- A finite double is written as a number that is read as the double. -/
theorem exists_numeral_write (style : Style) {x : Binary64} (hx : x.isFinite = true) :
    ∃ n : Numeral, n.text = (style.write x).toList ∧ n.value = .float x := by
  have hnan : ¬ x.isNaN = true := by simp [Binary64.isNaN, hx]
  rw [Style.write, if_neg hnan, if_neg (by simp [hx])]
  cases hzero : x.isZero with
  | true =>
    obtain ⟨n, hnegative, htext, hkind, hvalue⟩ := writes_zero x.negative
    have hdigits : n.decimal.digits = 0 := by
      have hpow : (10 : ℚ) ^ n.decimal.exponent ≠ 0 := by positivity
      simpa [Digits.value, hpow] using hvalue
    simp only [Binary64.isZero, Bool.and_eq_true, beq_iff_eq] at hzero
    have hself := x.ofFields_fields
    rw [hzero.1, hzero.2] at hself
    refine ⟨n, ?_, ?_⟩
    · rw [htext, Numeral.signText, hnegative]
      cases x.negative <;> simp
    · rw [Numeral.value, hkind, hdigits, ofDecimal_zero, hnegative, hself]
      rfl
  | false =>
    have hdigits : x.HasDigits := ⟨hx, hzero⟩
    obtain ⟨n, hnegative, htext, hkind, hvalue⟩ :=
      writes_magnitude style (digits_shortest_ne_zero hdigits) x.negative
    have hcovers := Digits.shortest_covers hdigits
    rw [← hvalue] at hcovers
    refine ⟨n, ?_, ?_⟩
    · rw [htext, Numeral.signText, hnegative]
      cases x.negative <;> simp
    · rw [Numeral.value, hkind, hnegative, Binary64.ofDecimal_of_covers hdigits hcovers]
      rfl

theorem exists_numeral_toString (i : Int) :
    ∃ n : Numeral, n.text = (toString i).toList ∧ n.value = .int i := by
  refine ⟨⟨decide (i < 0), digitsOf i.natAbs, none, none, whole_digitsOf _, by simp, by simp⟩, ?_, ?_⟩
  · rw [Text.toList_toString_int]
    simp [Numeral.text, Numeral.signText, Numeral.placesText, Numeral.exponentText, digitsOf]
  · rw [Numeral.value]
    simp only [Option.isNone_none, Bool.and_self, if_true, digitsValue_digitsOf]
    by_cases hi : i < 0
    · rw [if_pos (decide_eq_true hi)]
      congr 1
      omega
    · rw [if_neg (by simpa using hi)]
      congr 1
      omega

/-- No word begins like a number. -/
theorem readWord?_text (n : Numeral) (rest : List Char) : readWord? (n.text ++ rest) = none := by
  obtain ⟨hne, hdigits⟩ := n.whole_valid.digital
  obtain ⟨c, cs, hwhole⟩ := List.exists_cons_of_ne_nil hne
  have hc : c.isDigit = true := hdigits c (by rw [hwhole]; exact List.mem_cons_self)
  have hother : ∀ a : Char, a.isDigit = false → a ≠ c := by
    rintro a ha rfl
    rw [ha] at hc
    cases hc
  rw [Numeral.text, Numeral.signText, hwhole]
  simp only [readWord?, words, List.findSome?_cons, List.findSome?_nil]
  cases n.negative
  · simp [hother]
  · simp [hother]

def isNumberChar (c : Char) : Bool := c.isDigit || c == '-' || c == '+' || c == '.' || c == 'e'

theorem isNumberChar_of_isDigit {c : Char} (h : c.isDigit = true) : isNumberChar c = true := by
  simp [isNumberChar, h]

theorem text_ne_nil (n : Numeral) : n.text ≠ [] := by
  have hne := n.whole_valid.digital.1
  simp [Numeral.text, hne]

theorem mem_text (n : Numeral) : ∀ c ∈ n.text, isNumberChar c = true := by
  have hwhole := n.whole_valid.digital.2
  have hplaces := n.places_valid
  have hexponent := n.exponent_valid
  obtain ⟨negative, whole, places, exponent, _, _, _⟩ := n
  intro c hc
  simp only [Numeral.text, Numeral.signText, Numeral.placesText, Numeral.exponentText,
    List.mem_append] at hc
  rcases hc with hc | hc | hc | hc
  · cases negative with
    | false => cases hc
    | true =>
      rw [List.mem_singleton.1 hc]
      decide
  · exact isNumberChar_of_isDigit (hwhole c hc)
  · cases places with
    | none => cases hc
    | some ds =>
      rcases List.mem_cons.1 hc with h | h
      · rw [h]
        decide
      · exact isNumberChar_of_isDigit ((hplaces ds rfl).2 c h)
  · cases exponent with
    | none => cases hc
    | some e =>
      rcases List.mem_cons.1 hc with h | hc
      · rw [h]
        decide
      rcases List.mem_cons.1 hc with h | h
      · rw [h]
        cases e.1 <;> decide
      · exact isNumberChar_of_isDigit ((hexponent e rfl).2 c h)

theorem skipSpace_text (n : Numeral) (rest : List Char) :
    skipSpace (n.text ++ rest) = n.text ++ rest := by
  obtain ⟨c, cs, hcons⟩ := List.exists_cons_of_ne_nil (text_ne_nil n)
  have hplain := mem_text n c (by rw [hcons]; exact List.mem_cons_self)
  have hspace : ¬ isSpace c = true := by
    intro h
    simp only [isSpace, Bool.or_eq_true, beq_iff_eq] at h
    rcases h with ((h | h) | h) | h <;> (rw [h] at hplain; revert hplain; decide)
  rw [hcons, List.cons_append, skipSpace, List.dropWhile_cons_of_neg hspace]

theorem readValue_text (n : Numeral) (hrest : NumberFree rest) (fuel levels : Nat) :
    readValue (fuel + 1) levels (n.text ++ rest) =
      (limitDigits n.value).map fun v => (.prim v, rest) := by
  have hscalar : (readWord? (n.text ++ rest)).or (readNumber? (n.text ++ rest)) =
      some (n.value, rest) := by
    rw [readWord?_text, n.readNumber?_text hrest]
    rfl
  obtain ⟨c, cs, hcons⟩ := List.exists_cons_of_ne_nil (text_ne_nil n)
  have hc : c ≠ '"' ∧ c ≠ '\x7b' ∧ c ≠ '[' := by
    have hplain := mem_text n c (by rw [hcons]; exact List.mem_cons_self)
    refine ⟨?_, ?_, ?_⟩ <;> (intro hc; subst hc; revert hplain; decide)
  rw [hcons, List.cons_append] at hscalar ⊢
  rw [readValue.eq_5 _ _ _ (fun _ h => hc.1 (List.cons.inj h).1)
    (fun _ h => hc.2.1 (List.cons.inj h).1) (fun _ h => hc.2.2 (List.cons.inj h).1), hscalar]
  simp only
  cases limitDigits n.value <;> rfl

end FormatFuzz.Json
