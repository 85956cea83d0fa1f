import FormatFuzz.Program.Numeral
import FormatFuzz.Proofs.Json.Number
import FormatFuzz.Text.Word

namespace FormatFuzz.Program

open Json (Digital DigitFree Whole Numeral)

namespace Lex

def WordFree (rest : List Char) : Prop := ∀ c ∈ rest.head?, Text.isWordChar c = false

variable {ds rest : List Char}

theorem WordFree.ne (h : WordFree rest) {c : Char} (hc : c ∈ rest.head?) {a : Char}
    (ha : Text.isWordChar a = true) : c ≠ a := by
  rintro rfl
  rw [h c hc] at ha
  cases ha

theorem toNat_lt_of_isDigit {c : Char} (h : c.isDigit = true) : c.toNat < 128 := by
  have hle : c.val ≤ '9'.val := of_decide_eq_true (Bool.and_eq_true_iff.1 h).2
  exact Nat.lt_of_le_of_lt (UInt32.le_iff_toNat_le.1 hle) (by decide)

theorem isWordChar_of_isDigit {c : Char} (h : c.isDigit = true) : Text.isWordChar c = true := by
  simp [Text.isWordChar, toNat_lt_of_isDigit h, Char.isAlphanum, h]

theorem WordFree.digitFree (h : WordFree rest) : DigitFree rest := by
  intro c hc
  by_contra hdigit
  exact absurd (isWordChar_of_isDigit (by simpa using hdigit)) (by simp [h c hc])

/-- Digits end before a character that is neither a digit nor an underscore. -/
theorem moreDigits_append {digit : Char → Bool} (hdigits : ∀ c ∈ ds, digit c = true ∧ c ≠ '_')
    (hrest : ∀ c ∈ rest.head?, digit c = false ∧ c ≠ '_') :
    moreDigits digit (ds ++ rest) = (ds, rest) := by
  induction ds with
  | nil =>
    cases rest with
    | nil => rfl
    | cons c rest =>
      obtain ⟨hc, hunderscore⟩ := hrest c rfl
      rw [List.nil_append, moreDigits.eq_2 _ _ _ (fun _ _ h _ => hunderscore h), hc]
      rfl
  | cons c ds ih =>
    obtain ⟨hc, hunderscore⟩ := hdigits c List.mem_cons_self
    rw [List.cons_append, moreDigits.eq_2 _ _ _ (fun _ _ h _ => hunderscore h), if_pos hc,
      ih fun a ha => hdigits a (List.mem_cons_of_mem _ ha)]

theorem ne_underscore_of_isDigit {c : Char} (h : c.isDigit = true) : c ≠ '_' := by
  rintro rfl
  cases h

theorem digits_append (hds : Digital ds) (hrest : DigitFree rest) (hunderscore : '_' ∉ rest.head?) :
    digits (ds ++ rest) = some (ds, rest) := by
  obtain ⟨hne, hdigits⟩ := hds
  obtain ⟨c, cs, rfl⟩ := List.exists_cons_of_ne_nil hne
  have hmore : moreDigits Char.isDigit (cs ++ rest) = (cs, rest) := by
    apply moreDigits_append
    · intro a ha
      have hdigit := hdigits a (List.mem_cons_of_mem _ ha)
      exact ⟨hdigit, ne_underscore_of_isDigit hdigit⟩
    · intro a ha
      exact ⟨hrest a ha, fun h => hunderscore (h ▸ ha)⟩
  rw [List.cons_append, digits, if_pos (hdigits c List.mem_cons_self), hmore]

theorem digits_eq_none (h : DigitFree rest) : digits rest = none := by
  cases rest with
  | nil => rfl
  | cons c rest =>
    rw [digits, h c rfl]
    rfl

theorem exponent_eq_none (h : WordFree rest) : exponent rest = none := by
  cases rest with
  | nil => rfl
  | cons c rest =>
    have hlower : c ≠ 'e' := h.ne rfl (by decide)
    have hupper : c ≠ 'E' := h.ne rfl (by decide)
    simp [exponent, hlower, hupper]

theorem imaginary_eq_none (h : 'j' ∉ rest.head? ∧ 'J' ∉ rest.head?) : imaginary (ds, rest) = none := by
  unfold imaginary
  split
  · next heq =>
    rw [(Prod.mk.inj heq).2] at h
    exact absurd rfl h.1
  · next heq =>
    rw [(Prod.mk.inj heq).2] at h
    exact absurd rfl h.2
  · rfl

theorem WordFree.imaginary_eq_none (h : WordFree rest) : imaginary (ds, rest) = none :=
  Lex.imaginary_eq_none
    ⟨fun hc => h.ne hc (by decide) rfl, fun hc => h.ne hc (by decide) rfl⟩

theorem exponent_append (hds : Digital ds) (hrest : WordFree rest) (negative : Bool) :
    exponent ('e' :: (if negative then '-' else '+') :: (ds ++ rest)) =
      some ('e' :: (if negative then '-' else '+') :: ds, rest) := by
  have hdigits := digits_append hds hrest.digitFree fun h => hrest.ne h (by decide) rfl
  cases negative with
  | false => simp [exponent, hdigits]
  | true => simp [exponent, hdigits]

theorem intNumber_append (hds : Whole ds) (hrest : WordFree rest) :
    intNumber (ds ++ rest) = some (ds, rest) := by
  rcases hds with rfl | ⟨hds, hhead⟩
  · have hzeros : moreDigits (· == '0') ([] ++ rest) = ([], rest) := by
      apply moreDigits_append (by simp)
      intro c hc
      exact ⟨by simpa using hrest.ne hc (by decide), hrest.ne hc (by decide)⟩
    rw [List.nil_append] at hzeros
    cases rest with
    | nil => rfl
    | cons c rest =>
      have hmark : ∀ a, Text.isWordChar a = true → (c == a) = false :=
        fun a ha => beq_false_of_ne (hrest.ne rfl ha)
      simp [intNumber, hmark, hzeros, show Text.isWordChar 'x' = true by decide,
        show Text.isWordChar 'X' = true by decide, show Text.isWordChar 'b' = true by decide,
        show Text.isWordChar 'B' = true by decide, show Text.isWordChar 'o' = true by decide,
        show Text.isWordChar 'O' = true by decide]
  · have hdigits := digits_append hds hrest.digitFree fun h => hrest.ne h (by decide) rfl
    obtain ⟨c, cs, rfl⟩ := List.exists_cons_of_ne_nil hds.1
    have hc : c ≠ '0' := fun h => hhead (by rw [h]; rfl)
    unfold intNumber
    split
    · next heq => exact absurd (List.cons.inj heq).1 hc
    · exact hdigits

theorem exponent_text (n : Numeral) (hrest : WordFree rest) :
    exponent (n.exponentText ++ rest) = n.exponent.map fun _ => (n.exponentText, rest) := by
  have hvalid := n.exponent_valid
  rw [Numeral.exponentText]
  cases h : n.exponent with
  | none => exact exponent_eq_none hrest
  | some e =>
    obtain ⟨negative, es⟩ := e
    exact exponent_append (hvalid _ h) hrest negative

theorem thenOptional_exponent (n : Numeral) (hrest : WordFree rest) :
    thenOptional (ds, n.exponentText ++ rest) exponent = (ds ++ n.exponentText, rest) := by
  rw [thenOptional, exponent_text n hrest]
  cases h : n.exponent with
  | none =>
    have hnil : n.exponentText = [] := by rw [Numeral.exponentText, h]; rfl
    simp [hnil]
  | some e => rfl

theorem digits_whole (n : Numeral) (hrest : WordFree rest) :
    digits (n.whole ++ (n.placesText ++ (n.exponentText ++ rest))) =
      some (n.whole, n.placesText ++ (n.exponentText ++ rest)) := by
  have hhead : ∀ c ∈ (n.placesText ++ (n.exponentText ++ rest)).head?,
      c = '.' ∨ c = 'e' ∨ c ∈ rest.head? := by
    rw [Numeral.placesText, Numeral.exponentText]
    cases n.places with
    | some ps => simp
    | none =>
      cases n.exponent with
      | some e => simp
      | none => exact fun c hc => .inr (.inr hc)
  apply digits_append n.whole_valid.digital
  · intro c hc
    rcases hhead c hc with rfl | rfl | hc
    · rfl
    · rfl
    · exact hrest.digitFree c hc
  · intro hc
    rcases hhead _ hc with h | h | hc
    · exact absurd h (by decide)
    · exact absurd h (by decide)
    · exact hrest.ne hc (by decide) rfl

theorem floatNumber_text (n : Numeral) (hrest : WordFree rest)
    (hmark : n.places.isSome ∨ n.exponent.isSome) :
    floatNumber (n.whole ++ (n.placesText ++ (n.exponentText ++ rest))) =
      some (n.whole ++ (n.placesText ++ n.exponentText), rest) := by
  have hwhole := digits_whole n hrest
  have hvalid := n.places_valid
  rw [floatNumber, pointFloat, expFloat, hwhole]
  rw [Numeral.placesText] at hwhole ⊢
  cases hplaces : n.places with
  | some ps =>
    have hdigits : digits (ps ++ (n.exponentText ++ rest)) = some (ps, n.exponentText ++ rest) := by
      apply digits_append (hvalid ps hplaces)
      · rw [Numeral.exponentText]
        cases n.exponent with
        | none => exact hrest.digitFree
        | some e =>
          rintro c ⟨⟩
          rfl
      · rw [Numeral.exponentText]
        cases n.exponent with
        | none => exact fun h => hrest.ne h (by decide) rfl
        | some e => simp
    simp [hdigits, thenOptional_exponent n hrest]
  | none =>
    rw [hplaces] at hmark
    obtain ⟨e, he⟩ := Option.isSome_iff_exists.1 (hmark.resolve_left (by simp))
    obtain ⟨cs, hcs⟩ : ∃ cs, n.exponentText ++ rest = 'e' :: cs := by
      rw [Numeral.exponentText, he]
      exact ⟨_, rfl⟩
    have hexponent := exponent_text n hrest
    rw [he] at hexponent
    rw [hcs] at hexponent ⊢
    simp [hexponent, bind, pure]

/-- The numbers that a program is printed with: those without a sign, and imaginary ones. -/
inductive NumberText : List Char → Prop
  | real {n : Numeral} : n.negative = false → NumberText n.text
  | imaginary {ds : List Char} : Digital ds → NumberText (ds ++ ['j'])

theorem exists_cons_of_numberText {t : List Char} (ht : NumberText t) :
    ∃ c cs, t = c :: cs ∧ c.isDigit = true := by
  cases ht with
  | @real n hsign =>
    obtain ⟨hne, hdigits⟩ := n.whole_valid.digital
    obtain ⟨c, cs, hcs⟩ := List.exists_cons_of_ne_nil hne
    refine ⟨c, cs ++ (n.placesText ++ n.exponentText), ?_, hdigits c (by rw [hcs]; simp)⟩
    rw [Numeral.text, Numeral.signText, hsign, hcs]
    rfl
  | @imaginary ds hds =>
    obtain ⟨c, cs, hcs⟩ := List.exists_cons_of_ne_nil hds.1
    exact ⟨c, cs ++ ['j'], by rw [hcs]; rfl, hds.2 c (by rw [hcs]; simp)⟩

theorem mem_numberText {t : List Char} (ht : NumberText t) :
    ∀ c ∈ t, Json.isNumberChar c = true ∨ c = 'j' := by
  intro c hc
  cases ht with
  | @real n _ => exact .inl (Json.mem_text n c hc)
  | @imaginary ds hds =>
    rcases List.mem_append.1 hc with hc | hc
    · exact .inl (Json.isNumberChar_of_isDigit (hds.2 c hc))
    · exact .inr (List.mem_singleton.1 hc)

theorem number_imaginary (hds : Digital ds) (rest : List Char) :
    number (ds ++ 'j' :: rest) = some (ds ++ ['j'], rest) := by
  have hdigits : digits (ds ++ 'j' :: rest) = some (ds, 'j' :: rest) := by
    apply digits_append hds
    · rintro c ⟨⟩
      rfl
    · simp
  rw [number, hdigits]
  rfl

/-- A number with places or an exponent is read as the longer form. -/
theorem number_marked (n : Numeral) (hrest : WordFree rest)
    (hmark : n.places.isSome ∨ n.exponent.isSome) :
    number (n.whole ++ (n.placesText ++ (n.exponentText ++ rest))) =
      some (n.whole ++ (n.placesText ++ n.exponentText), rest) := by
  have hfirst : imaginary (n.whole, n.placesText ++ (n.exponentText ++ rest)) = none := by
    apply imaginary_eq_none
    rw [Numeral.placesText, Numeral.exponentText]
    cases hplaces : n.places with
    | some ps => simp
    | none =>
      obtain ⟨e, he⟩ := Option.isSome_iff_exists.1 (hmark.resolve_left (by simp [hplaces]))
      simp [he]
  rw [number, digits_whole n hrest, floatNumber_text n hrest hmark, Option.bind_some, hfirst,
    Option.bind_some, hrest.imaginary_eq_none]
  rfl

/-- Plain digits end before anything but a point. -/
theorem number_whole (hds : Whole ds) (hrest : WordFree rest) (hpoint : '.' ∉ rest.head?) :
    number (ds ++ rest) = some (ds, rest) := by
  have hdigits : digits (ds ++ rest) = some (ds, rest) :=
    digits_append hds.digital hrest.digitFree fun hc => hrest.ne hc (by decide) rfl
  have hfloat : floatNumber (ds ++ rest) = none := by
    rw [floatNumber, pointFloat, expFloat, hdigits]
    cases rest with
    | nil => rfl
    | cons c rest =>
      have hc : c ≠ '.' := fun h => hpoint (by rw [h]; rfl)
      simp [exponent_eq_none hrest, hc, bind]
  rw [number, hdigits, Option.bind_some, hrest.imaginary_eq_none, hfloat, intNumber_append hds hrest]
  rfl

theorem number_append {t : List Char} (ht : NumberText t) (hrest : WordFree rest)
    (hpoint : '.' ∈ rest.head? → ∃ c ∈ t, c.isDigit = false) :
    number (t ++ rest) = some (t, rest) := by
  cases ht with
  | imaginary hds =>
    rw [List.append_assoc, List.singleton_append]
    exact number_imaginary hds rest
  | @real n hsign =>
    have htext : n.text = n.whole ++ (n.placesText ++ n.exponentText) := by
      rw [Numeral.text, Numeral.signText, hsign]
      rfl
    by_cases hmark : n.places.isSome ∨ n.exponent.isSome
    · rw [htext, List.append_assoc, List.append_assoc]
      exact number_marked n hrest hmark
    · obtain ⟨hplaces, hexponent⟩ := not_or.1 hmark
      have hnil : n.placesText = [] ∧ n.exponentText = [] := by
        rw [Numeral.placesText, Numeral.exponentText, Option.not_isSome_iff_eq_none.1 hplaces,
          Option.not_isSome_iff_eq_none.1 hexponent]
        exact ⟨rfl, rfl⟩
      rw [htext, hnil.1, hnil.2, List.append_nil, List.append_nil] at hpoint ⊢
      refine number_whole n.whole_valid hrest fun hc => ?_
      obtain ⟨c, hmem, hc⟩ := hpoint hc
      exact Bool.false_ne_true (hc.symm.trans (n.whole_valid.digital.2 c hmem))

theorem number_eq_none {c : Char} (hc : c.isDigit = false) (hpoint : c = '.' → DigitFree rest) :
    number (c :: rest) = none := by
  have hdigits : digits (c :: rest) = none := by
    apply digits_eq_none
    rintro a ⟨⟩
    exact hc
  have hfloat : pointFloat (c :: rest) = none := by
    by_cases h : c = '.'
    · rw [h] at hdigits ⊢
      simp [pointFloat, hdigits, digits_eq_none (hpoint h)]
    · simp [pointFloat, hdigits, h]
  have hint : intNumber (c :: rest) = none := by
    unfold intNumber
    split
    · next heq =>
      rw [(List.cons.inj heq).1] at hc
      cases hc
    · exact hdigits
  simp [number, floatNumber, expFloat, hdigits, hfloat, hint, bind]

end Lex

end FormatFuzz.Program
