import FormatFuzz.Json.Reader
import FormatFuzz.Proofs.Text.Integer
import Mathlib.Algebra.Group.Nat.Defs
import Mathlib.Data.List.Infix

/-!
# When limits are met

A reader leaves the end of what it was given, and so do the readers that it is made of. A limit is met
only by a text that is long enough: one with more digits in a row than are allowed, or one that opens
more lists and mappings than can be nested.
-/

namespace FormatFuzz.Json

def isOpening (c : Char) : Bool := c == '[' || c == '{'

def Limit.MetBy (levels : Nat) (cs : List Char) : Limit → Prop
  | .digits n =>
    Text.maxDigits < n ∧ ∃ ds, ds <:+: cs ∧ (∀ d ∈ ds, d.isDigit = true) ∧ n ≤ ds.length
  | .nesting _ => levels < cs.countP isOpening

theorem Limit.MetBy.of_suffix {levels : Nat} {cs rest : List Char} {l : Limit}
    (h : l.MetBy levels rest) (hrest : rest <:+ cs) : l.MetBy levels cs := by
  cases l with
  | digits n =>
    obtain ⟨hn, ds, hds, hdigits, hlength⟩ := h
    exact ⟨hn, ds, hds.trans hrest.isInfix, hdigits, hlength⟩
  | nesting kind => exact Nat.lt_of_lt_of_le h (hrest.sublist.countP_le)

/-- A text that opens one more list or mapping is long enough for one more level. -/
theorem Limit.MetBy.cons {levels : Nat} {rest : List Char} {l : Limit} {c : Char}
    (hc : isOpening c = true) (h : l.MetBy levels rest) : l.MetBy (levels + 1) (c :: rest) := by
  cases l with
  | digits n =>
    have hrest : Limit.MetBy levels rest (.digits n) := h
    exact hrest.of_suffix (List.suffix_cons c rest)
  | nesting kind =>
    rw [MetBy, List.countP_cons_of_pos hc]
    exact Nat.succ_lt_succ h

/-- What a reader answers for a text: something with an end of the text, a problem, or a limit that the
text is long enough for. -/
def Bounded {α : Type} (levels : Nat) (cs : List Char) : Except Fault (α × List Char) → Prop
  | .ok (_, rest) => rest <:+ cs
  | .error (.problem _ _) => True
  | .error (.limit l) => l.MetBy levels cs

namespace Bounded

variable {α β : Type} {levels : Nat} {cs rest : List Char} {x : Except Fault (α × List Char)}

theorem of_suffix (h : Bounded levels rest x) (hrest : rest <:+ cs) : Bounded levels cs x := by
  match x with
  | .ok (a, rest') => exact List.IsSuffix.trans h hrest
  | .error (.problem _ _) => trivial
  | .error (.limit l) => exact Limit.MetBy.of_suffix h hrest

theorem fail (problem : Problem) : Bounded levels cs (Json.fail (α := α × List Char) problem rest) :=
  trivial

theorem bind {f : α × List Char → Except Fault (β × List Char)} (hx : Bounded levels cs x)
    (hf : ∀ a rest, rest <:+ cs → Bounded levels rest (f (a, rest))) : Bounded levels cs (x >>= f) := by
  match x with
  | .ok (a, rest) => exact (hf a rest hx).of_suffix hx
  | .error (.problem _ _) => trivial
  | .error (.limit l) => exact hx

theorem map (f : α → β) (hx : Bounded levels cs x) :
    Bounded levels cs (do
      let p ← x
      return (f p.1, p.2)) :=
  hx.bind fun _ rest _ => List.suffix_refl rest

theorem inside {f : Nat → Except Fault (α × List Char)} {c : Char} {kind : String}
    (hc : isOpening c = true) (hf : ∀ levels, Bounded levels rest (f levels)) :
    Bounded levels (c :: rest) (Json.inside kind levels >>= f) := by
  cases levels with
  | zero =>
    change 0 < (c :: rest).countP isOpening
    rw [List.countP_cons_of_pos hc]
    exact Nat.succ_pos _
  | succ levels =>
    change Bounded (levels + 1) (c :: rest) (f levels)
    have hinside := hf levels
    generalize f levels = y at hinside
    match y with
    | .ok (a, rest') => exact List.IsSuffix.trans hinside (List.suffix_cons c rest)
    | .error (.problem _ _) => trivial
    | .error (.limit l) => exact Limit.MetBy.cons hc hinside

end Bounded

variable {levels : Nat} {cs rest : List Char}

theorem suffix_fourDigits? {n : Nat} (h : fourDigits? cs = some (n, rest)) : rest <:+ cs := by
  unfold fourDigits? at h
  split at h
  · next a b c d e more =>
    simp only [Option.bind_eq_bind, Option.bind_eq_some_iff, Option.pure_def, Option.some.injEq,
      Prod.mk.injEq] at h
    obtain ⟨_, _, _, _, _, _, _, _, _, rfl⟩ := h
    exact ⟨[a, b, c, d], rfl⟩
  · cases h

theorem suffix_unicodeEscape (n : Nat) (rest : List Char) : (unicodeEscape n rest).2 <:+ rest := by
  unfold unicodeEscape
  extract_lets alone
  split
  · split
    · next more =>
      split
      · next m more' hdigits =>
        split
        · exact (suffix_fourDigits? hdigits).trans ⟨['\\', 'u'], rfl⟩
        · exact List.suffix_refl _
      · exact List.suffix_refl _
    · exact List.suffix_refl _
  · exact List.suffix_refl _

theorem bounded_readString (levels : Nat) (start : List Char) (fuel : Nat) (cs : List Char) :
    Bounded levels cs (readString start fuel cs) := by
  induction fuel generalizing cs with
  | zero => exact .fail _
  | succ fuel ih =>
    -- one more character in front of what is read behind it
    have hmore := fun (c : Char) rest (hrest : rest <:+ cs) => ((ih rest).of_suffix hrest).map (c :: ·)
    cases cs with
    | nil => exact .fail _
    | cons c cs =>
      unfold readString
      split
      · exact List.suffix_cons c cs
      · split
        · exact .fail _
        · split
          · split
            · exact .fail _
            · next digits =>
              split
              · exact .fail _
              · next n rest hdigits =>
                have hrest := (suffix_unicodeEscape n rest).trans (suffix_fourDigits? hdigits)
                exact hmore _ _ (hrest.trans ⟨[c, 'u'], rfl⟩)
            · next e rest _ =>
              split
              · exact .fail _
              · exact hmore _ _ ⟨[c, e], rfl⟩
          · exact hmore _ _ (List.suffix_cons c cs)

theorem suffix_readWord? {v : Primitive} (h : readWord? cs = some (v, rest)) : rest <:+ cs := by
  obtain ⟨⟨w, v'⟩, -, hw⟩ := List.exists_of_findSome?_eq_some h
  simp only at hw
  split at hw
  · cases hw
    exact List.drop_suffix _ _
  · cases hw

theorem integralPart_spec {ds : List Char} (h : integralPart cs = some (ds, rest)) :
    (∀ d ∈ ds, d.isDigit = true) ∧ cs = ds ++ rest := by
  unfold integralPart at h
  split at h
  · cases h
    exact ⟨List.forall_mem_singleton.2 rfl, rfl⟩
  · dsimp only at h
    split at h
    · cases h
    · cases h
      exact ⟨List.all_eq_true.1 List.all_takeWhile, List.takeWhile_append_dropWhile.symm⟩

theorem suffix_fractionPart {ds : List Char} (h : fractionPart cs = some (ds, rest)) : rest <:+ cs := by
  unfold fractionPart at h
  split at h
  · dsimp only at h
    split at h
    · cases h
    · cases h
      exact (List.dropWhile_suffix _).trans (List.suffix_cons _ _)
  · cases h

theorem suffix_exponentPart {e : Int} (h : exponentPart cs = some (e, rest)) : rest <:+ cs := by
  unfold exponentPart at h
  split at h
  · next c cs =>
    split at h
    · split at h
      next negative more hsign =>
        have hmore : more <:+ cs := by
          split at hsign
          all_goals
            cases hsign
            first
              | exact List.suffix_cons _ _
              | exact List.suffix_refl _
        dsimp only at h
        split at h
        · cases h
        · cases h
          exact ((List.dropWhile_suffix _).trans hmore).trans (List.suffix_cons _ _)
    · cases h
  · cases h

theorem suffix_part {α : Type} {part : Option (α × List Char)}
    (h : ∀ a rest, part = some (a, rest) → rest <:+ cs) : (part.map (·.2)).getD cs <:+ cs := by
  cases part with
  | none => exact List.suffix_refl _
  | some p => exact h p.1 p.2 rfl

/-- What is read as an integer is a row of digits of the text. -/
theorem readNumber?_spec {v : Primitive} (h : readNumber? cs = some (v, rest)) :
    rest <:+ cs ∧ ∀ n, v = .int n → ∃ ds, ds <:+: cs ∧ (∀ d ∈ ds, d.isDigit = true) ∧
      n.natAbs = digitsValue ds := by
  simp only [readNumber?, Option.bind_eq_bind, Option.bind_eq_some_iff] at h
  obtain ⟨⟨whole, more⟩, hwhole, h⟩ := h
  obtain ⟨hdigits, htext⟩ := integralPart_spec hwhole
  have hstart : whole ++ more <:+ cs := by
    rw [← htext]
    split
    · exact List.drop_suffix _ _
    · exact List.suffix_refl _
  have hfraction : ((fractionPart more).map (·.2)).getD more <:+ more :=
    suffix_part fun _ _ => suffix_fractionPart
  have hexponent := (suffix_part fun _ _ => suffix_exponentPart).trans hfraction
  have hend := hexponent.trans ((List.suffix_append whole more).trans hstart)
  split at h
  · cases h
    refine ⟨hend, ?_⟩
    rintro n ⟨⟩
    refine ⟨whole, (List.prefix_append whole more).isInfix.trans hstart.isInfix, hdigits, ?_⟩
    split
    · exact Int.natAbs_neg _
    · rfl
  · cases h
    exact ⟨hend, fun n hn => by cases hn⟩

theorem foldl_digits_lt {ds : List Char} (hds : ∀ d ∈ ds, d.isDigit = true) (n : Nat) :
    ds.foldl (fun n d => n * 10 + (d.toNat - 48)) n < (n + 1) * 10 ^ ds.length := by
  induction ds generalizing n with
  | nil => simp
  | cons d ds ih =>
    obtain ⟨hd, hds⟩ := List.forall_mem_cons.1 hds
    have hvalue : d.toNat ≤ 57 := (Char.isDigit_iff_toNat.1 hd).2
    calc
      _ < (n * 10 + (d.toNat - 48) + 1) * 10 ^ ds.length := ih hds _
      _ ≤ ((n + 1) * 10) * 10 ^ ds.length := Nat.mul_le_mul_right _ (by omega)
      _ = (n + 1) * 10 ^ (ds.length + 1) := by rw [Nat.pow_succ', Nat.mul_assoc]

theorem length_toDigits_digitsValue {ds : List Char} (hne : ds ≠ [])
    (hds : ∀ d ∈ ds, d.isDigit = true) : (Nat.toDigits 10 (digitsValue ds)).length ≤ ds.length := by
  rw [Nat.length_toDigits_le_iff (by decide) (List.length_pos_iff.2 hne)]
  have hlt := foldl_digits_lt hds 0
  rwa [Nat.zero_add, Nat.one_mul] at hlt

theorem readWord?_ne_int (n : Int) : readWord? cs ≠ some (.int n, rest) := by
  intro h
  obtain ⟨⟨w, v⟩, hmem, hw⟩ := List.exists_of_findSome?_eq_some h
  simp only at hw
  split at hw
  · cases hw
    simp [words] at hmem
  · cases hw

/-- An integer with too many digits has them in the text. -/
theorem metBy_of_not_hasText {n : Int} (levels : Nat)
    (h : (readWord? cs).or (readNumber? cs) = some (.int n, rest))
    (htext : (Primitive.int n).hasText = false) :
    Limit.MetBy levels cs (.digits (Nat.toDigits 10 n.natAbs).length) := by
  rcases Option.or_eq_some_iff.1 h with hword | ⟨-, hnumber⟩
  · exact absurd hword (readWord?_ne_int n)
  obtain ⟨_, hn, hlong⟩ := Primitive.exists_int_of_not_hasText htext
  cases hn
  obtain ⟨ds, hpart, hdigits, hvalue⟩ := (readNumber?_spec hnumber).2 n rfl
  refine ⟨hlong, ds, hpart, hdigits, ?_⟩
  rw [hvalue]
  refine length_toDigits_digitsValue ?_ hdigits
  -- no digits at all would stand for zero, which has one
  rintro rfl
  rw [hvalue] at hlong
  exact absurd hlong (by decide)

/-- A value without parts is read, or the text has more digits in a row than are allowed. -/
theorem bounded_limitDigits {v : Primitive} (h : (readWord? cs).or (readNumber? cs) = some (v, rest)) :
    Bounded levels cs (do return (Data.prim (← limitDigits v), rest)) := by
  have hrest : rest <:+ cs := by
    rcases Option.or_eq_some_iff.1 h with hword | ⟨-, hnumber⟩
    · exact suffix_readWord? hword
    · exact (readNumber?_spec hnumber).1
  cases v with
  | int n =>
    cases htext : (Primitive.int n).hasText with
    | true =>
      simp only [limitDigits, htext, if_true]
      exact hrest
    | false =>
      simp only [limitDigits, htext]
      exact metBy_of_not_hasText levels h htext
  | null | bool b | float x | str s => exact hrest

theorem suffix_skipSpace (cs : List Char) : skipSpace cs <:+ cs := List.dropWhile_suffix _

theorem suffix_of_skipSpace {c : Char} (h : skipSpace cs = c :: rest) : rest <:+ cs := by
  have hspace := suffix_skipSpace cs
  rw [h] at hspace
  exact (List.suffix_cons c rest).trans hspace

section Values

variable {fuel : Nat}

theorem bounded_readItems (hvalue : ∀ levels cs, Bounded levels cs (readValue fuel levels cs))
    (hitems : ∀ levels cs, Bounded levels cs (readItems fuel levels cs))
    (levels : Nat) (cs : List Char) : Bounded levels cs (readItems (fuel + 1) levels cs) := by
  rw [readItems]
  refine (hvalue levels cs).bind fun v rest _ => ?_
  dsimp only
  split
  · next rest' hclose => exact suffix_of_skipSpace hclose
  · next rest' hcomma =>
    have hmore := (hitems levels (skipSpace rest')).of_suffix (suffix_skipSpace rest')
    exact (hmore.map (v :: ·)).of_suffix (suffix_of_skipSpace hcomma)
  · exact .fail _

theorem bounded_readMembers (hvalue : ∀ levels cs, Bounded levels cs (readValue fuel levels cs))
    (hmembers : ∀ levels cs, Bounded levels cs (readMembers fuel levels cs))
    (levels : Nat) (cs : List Char) : Bounded levels cs (readMembers (fuel + 1) levels cs) := by
  unfold readMembers
  split
  · next name =>
    refine ((bounded_readString levels _ _ _).of_suffix (List.suffix_cons _ _)).bind fun name rest _ => ?_
    dsimp only
    split
    · next rest' hcolon =>
      refine ((hvalue levels (skipSpace rest')).bind fun v rest _ => ?_).of_suffix
        ((suffix_skipSpace _).trans (suffix_of_skipSpace hcolon))
      dsimp only
      split
      · next rest' hclose => exact suffix_of_skipSpace hclose
      · next rest' hcomma =>
        have hmore := (hmembers levels (skipSpace rest')).of_suffix (suffix_skipSpace rest')
        exact (hmore.map ((String.ofList name, v) :: ·)).of_suffix (suffix_of_skipSpace hcomma)
      · exact .fail _
    · exact .fail _
  · exact .fail _

theorem bounded_readValue_succ (hitems : ∀ levels cs, Bounded levels cs (readItems fuel levels cs))
    (hmembers : ∀ levels cs, Bounded levels cs (readMembers fuel levels cs))
    (levels : Nat) (cs : List Char) : Bounded levels cs (readValue (fuel + 1) levels cs) := by
  unfold readValue
  split
  · next rest =>
    have hstring := (bounded_readString levels ('"' :: rest) rest.length rest).of_suffix
      (List.suffix_cons '"' rest)
    exact hstring.map fun s => Data.str (String.ofList s)
  · next rest =>
    refine .inside rfl fun levels => ?_
    dsimp only
    split
    · next rest' hclose => exact suffix_of_skipSpace hclose
    · exact ((hmembers _ _).of_suffix (suffix_skipSpace _)).map Data.ofPairs
  · next rest =>
    refine .inside rfl fun levels => ?_
    dsimp only
    split
    · next rest' hclose => exact suffix_of_skipSpace hclose
    · exact ((hitems _ _).of_suffix (suffix_skipSpace _)).map Data.list
  · split
    · next v rest hfound => exact bounded_limitDigits hfound
    · exact .fail _

end Values

/-- The three readers call each other with less fuel. -/
theorem bounded_readers (fuel : Nat) :
    (∀ levels cs, Bounded levels cs (readValue fuel levels cs)) ∧
      (∀ levels cs, Bounded levels cs (readItems fuel levels cs)) ∧
      ∀ levels cs, Bounded levels cs (readMembers fuel levels cs) := by
  induction fuel with
  | zero =>
    refine ⟨fun levels cs => ?_, fun levels cs => ?_, fun levels cs => ?_⟩
    · rw [readValue]
      exact .fail _
    · rw [readItems]
      exact .fail _
    · rw [readMembers]
      exact .fail _
  | succ fuel ih =>
    obtain ⟨hvalue, hitems, hmembers⟩ := ih
    exact ⟨bounded_readValue_succ hitems hmembers, bounded_readItems hvalue hitems,
      bounded_readMembers hvalue hmembers⟩

/-- A limit is met only by a text that is long enough for it. -/
theorem metBy_of_read {text : String} {l : Limit} (h : read levels text = .error (.limit l)) :
    l.MetBy (levels + 1) text.toList := by
  have hvalue := ((bounded_readers (2 * text.toList.length + 2)).1 (levels + 1) _).of_suffix
    (suffix_skipSpace text.toList)
  simp only [read] at h
  split at h
  · cases h
  · generalize readValue _ _ _ = x at hvalue h
    match x with
    | .error (.problem what left) => cases h
    | .error (.limit l') =>
      cases h
      exact hvalue
    | .ok (v, rest) =>
      simp only [bind, Except.bind, pure, Except.pure] at h
      split at h <;> cases h

end FormatFuzz.Json
