import FormatFuzz.Pattern.Search
import Mathlib.Data.List.Induction
import Mathlib.Tactic.Common

/-!
# What a search finds

A pattern describes a stretch of a text between what is before it and what is after it. A search marks
the positions where such stretches end, all at once as the bits of a number: a mark behind a leaf comes
from a mark in front of it, so a mark behind a pattern has a stretch before it that the pattern describes
and that begins at a mark. Of repetitions only those without bounds are looked at here.
-/

namespace FormatFuzz

inductive Pattern.Describes : Pattern → List Char → List Char → List Char → Prop
  | nothing {before after : List Char} : Describes .nothing before [] after
  | char {set : CharClass} {before after : List Char} {c : Char} : set.contains c = true →
      Describes (.leaf (.char set)) before [c] after
  | anchor {place : Anchor} {before after : List Char} : place.holds before.getLast? after = true →
      Describes (.leaf (.anchor place)) before [] after
  | sequence {p q : Pattern} {before a b after : List Char} : Describes p before a (b ++ after) →
      Describes q (before ++ a) b after → Describes (.sequence p q) before (a ++ b) after
  | left {p q : Pattern} {before a after : List Char} : Describes p before a after →
      Describes (.either p q) before a after
  | right {p q : Pattern} {before a after : List Char} : Describes q before a after →
      Describes (.either p q) before a after
  | done {p : Pattern} {most : Option Nat} {before after : List Char} :
      Describes (.repetition p 0 most) before [] after
  | more {p : Pattern} {least : Nat} {most : Option Nat} {before a b after : List Char} :
      most ≠ some 0 → Describes p before a (b ++ after) →
      Describes (.repetition p (least - 1) (most.map (· - 1))) (before ++ a) b after →
      Describes (.repetition p least most) before (a ++ b) after

def Shape.Unbounded {α : Type} : Shape α → Prop
  | nothing => True
  | leaf _ => True
  | sequence p q => p.Unbounded ∧ q.Unbounded
  | either p q => p.Unbounded ∧ q.Unbounded
  | repetition p least most => p.Unbounded ∧ least = 0 ∧ most = none

variable {text : List Char} {s i j : Nat}

def Within (text : List Char) (s : Nat) : Prop := ∀ i, s.testBit i = true → i ≤ text.length

theorem testBit_toNat (b : Bool) (i : Nat) : b.toNat.testBit i = true ↔ i = 0 ∧ b = true := by
  cases b with
  | false => simp
  | true => simp [Nat.testBit_one_eq_true_iff_self_eq_zero]

/-- The positions where a test holds are those between the two parts of a text for which it does. -/
theorem testBit_positionsWhere {test : Option Char → List Char → Bool} {before : Option Char} :
    (positionsWhere test before text).testBit i = true ↔ ∃ pre post, text = pre ++ post ∧
      pre.length = i ∧ test (pre.getLast?.or before) post = true := by
  induction text generalizing before i with
  | nil =>
    rw [positionsWhere, testBit_toNat]
    constructor
    · rintro ⟨rfl, h⟩
      exact ⟨[], [], rfl, rfl, h⟩
    · rintro ⟨pre, post, hsplit, rfl, h⟩
      obtain ⟨rfl, rfl⟩ := List.append_eq_nil_iff.1 hsplit.symm
      exact ⟨rfl, h⟩
  | cons c cs ih =>
    rw [positionsWhere]
    have hbit : (test before (c :: cs)).toNat < 2 := Bool.toNat_lt _
    cases i with
    | zero =>
      have hlow : (2 * positionsWhere test (some c) cs + (test before (c :: cs)).toNat).testBit 0 =
          test before (c :: cs) := by
        rw [Nat.testBit_zero, Nat.mul_add_mod]
        cases test before (c :: cs) <;> rfl
      rw [hlow]
      constructor
      · exact fun h => ⟨[], _, rfl, rfl, h⟩
      · rintro ⟨pre, post, hsplit, hlength, h⟩
        obtain rfl := List.eq_nil_of_length_eq_zero hlength
        obtain rfl : c :: cs = post := hsplit
        exact h
    | succ i =>
      have hhigh : (2 * positionsWhere test (some c) cs + (test before (c :: cs)).toNat) / 2 =
          positionsWhere test (some c) cs := by omega
      rw [Nat.testBit_succ, hhigh, ih]
      constructor
      · rintro ⟨pre, post, rfl, rfl, h⟩
        refine ⟨c :: pre, post, rfl, rfl, ?_⟩
        cases hlast : pre.getLast? <;> simp_all [List.getLast?_cons]
      · rintro ⟨_ | ⟨a, pre⟩, post, hsplit, hlength, h⟩
        · cases hlength
        · obtain ⟨rfl, rfl⟩ := List.cons.inj hsplit
          refine ⟨pre, post, rfl, Nat.succ.inj hlength, ?_⟩
          cases hlast : pre.getLast? <;> simp_all [List.getLast?_cons]

def Pattern.Spans (p : Pattern) (text : List Char) (i j : Nat) : Prop :=
  ∃ before a after, text = before ++ (a ++ after) ∧ before.length = i ∧ (before ++ a).length = j ∧
    p.Describes before a after

namespace Pattern

variable {p q : Pattern} {k : Nat}

theorem spans_filter {leaf : Leaf} (h : ((leaf.filter text).apply s).testBit j = true) :
    ∃ i, s.testBit i = true ∧ Spans (.leaf leaf) text i j := by
  cases leaf with
  | char set =>
    simp only [Leaf.filter, Filter.apply, if_true, Nat.testBit_shiftLeft, Nat.testBit_and,
      Bool.and_eq_true, decide_eq_true_eq, testBit_positionsWhere] at h
    obtain ⟨hj, hs, before, after, rfl, hlength, hc⟩ := h
    cases after with
    | nil => cases hc
    | cons c after =>
      refine ⟨j - 1, hs, before, [c], after, rfl, hlength, ?_, .char hc⟩
      rw [List.length_append, hlength, List.length_singleton]
      omega
  | anchor place =>
    simp only [Leaf.filter, Filter.apply, Bool.false_eq_true, if_false, Nat.testBit_and,
      Bool.and_eq_true, testBit_positionsWhere, Option.or_none] at h
    obtain ⟨hs, before, after, rfl, rfl, hplace⟩ := h
    exact ⟨_, hs, before, [], after, rfl, rfl, by rw [List.append_nil], .anchor hplace⟩

theorem Spans.exists_parts (hp : p.Spans text i j) (hq : q.Spans text j k) :
    ∃ before a b after, text = before ++ (a ++ b ++ after) ∧ before.length = i ∧
      (before ++ (a ++ b)).length = k ∧ p.Describes before a (b ++ after) ∧
      q.Describes (before ++ a) b after := by
  obtain ⟨before, a, after, rfl, rfl, rfl, hp⟩ := hp
  obtain ⟨before', b, after', hsplit, hlength, rfl, hq⟩ := hq
  rw [← List.append_assoc] at hsplit
  obtain ⟨rfl, rfl⟩ := List.append_inj hsplit hlength.symm
  exact ⟨before, a, b, after', by simp, rfl, by simp, hp, hq⟩

theorem Spans.le (h : p.Spans text i j) : j ≤ text.length := by
  obtain ⟨before, a, after, rfl, -, rfl, -⟩ := h
  simp only [List.length_append]
  omega

/-- No character is stepped over by nothing. -/
theorem spans_of_describes (hj : j ≤ text.length)
    (h : p.Describes (text.take j) [] (text.drop j)) : p.Spans text j j := by
  have hlength : (text.take j).length = j := by rw [List.length_take, Nat.min_eq_left hj]
  exact ⟨text.take j, [], text.drop j, by simp, hlength, by rw [List.append_nil, hlength], h⟩

theorem Spans.sequence (hp : p.Spans text i j) (hq : q.Spans text j k) :
    Spans (.sequence p q) text i k := by
  obtain ⟨before, a, b, after, htext, hi, hk, hp, hq⟩ := hp.exists_parts hq
  exact ⟨before, a ++ b, after, htext, hi, hk, .sequence hp hq⟩

theorem Spans.left (hp : p.Spans text i j) : Spans (.either p q) text i j := by
  obtain ⟨before, a, after, htext, hi, hj, hp⟩ := hp
  exact ⟨before, a, after, htext, hi, hj, .left hp⟩

theorem Spans.right (hq : q.Spans text i j) : Spans (.either p q) text i j := by
  obtain ⟨before, a, after, htext, hi, hj, hq⟩ := hq
  exact ⟨before, a, after, htext, hi, hj, .right hq⟩

theorem Spans.more (hp : p.Spans text i j) (hrest : Spans (.repetition p 0 none) text j k) :
    Spans (.repetition p 0 none) text i k := by
  obtain ⟨before, a, b, after, htext, hi, hk, hp, hrest⟩ := hp.exists_parts hrest
  exact ⟨before, a ++ b, after, htext, hi, hk, .more nofun hp hrest⟩

/-- Every step to a closure is a stretch, so what the closure holds is reached by a repetition. -/
theorem spans_closure {step : Nat → Nat} (hstep : ∀ {s}, Within text s → ∀ {j},
      (step s).testBit j = true → ∃ i, s.testBit i = true ∧ p.Spans text i j)
    (n : Nat) (hs : Within text s) (h : (closure step n s).testBit j = true) :
    ∃ i, s.testBit i = true ∧ Spans (.repetition p 0 none) text i j := by
  induction n generalizing s with
  | zero => exact ⟨j, h, spans_of_describes (hs j h) .done⟩
  | succ n ih =>
    simp only [closure] at h
    split at h
    · exact ⟨j, h, spans_of_describes (hs j h) .done⟩
    · have hnext : ∀ i, (s ||| step s).testBit i = true →
          s.testBit i = true ∨ ∃ i', s.testBit i' = true ∧ p.Spans text i' i := by
        intro i hi
        rw [Nat.testBit_or, Bool.or_eq_true] at hi
        exact hi.imp_right (hstep hs)
      have hwithin : Within text (s ||| step s) := by
        intro i hi
        rcases hnext i hi with hi | ⟨i', -, hspans⟩
        · exact hs i hi
        · exact hspans.le
      obtain ⟨i, hi, hrest⟩ := ih hwithin h
      rcases hnext i hi with hi | ⟨i', hi', hspans⟩
      · exact ⟨i, hi, hrest⟩
      · exact ⟨i', hi', hspans.more hrest⟩

/-- Where a pattern is looked for from positions of a text, it is found behind stretches that it
describes. -/
theorem spans_reach (hp : p.Unbounded) {positions : Nat} (hs : Within text s)
    (h : ((Shape.map (Leaf.filter text) p).reach positions s).testBit j = true) :
    ∃ i, s.testBit i = true ∧ p.Spans text i j := by
  induction p generalizing s j with
  | nothing => exact ⟨j, h, spans_of_describes (hs j h) .nothing⟩
  | leaf leaf => exact spans_filter h
  | sequence p q ihp ihq =>
    have hwithin : Within text ((Shape.map (Leaf.filter text) p).reach positions s) := by
      intro i hi
      obtain ⟨_, _, hspans⟩ := ihp hp.1 hs hi
      exact hspans.le
    obtain ⟨k, hk, hq⟩ := ihq hp.2 hwithin h
    obtain ⟨i, hi, hp⟩ := ihp hp.1 hs hk
    exact ⟨i, hi, hp.sequence hq⟩
  | either p q ihp ihq =>
    simp only [Shape.map, Shape.reach, Nat.testBit_or, Bool.or_eq_true] at h
    rcases h with h | h
    · obtain ⟨i, hi, hspans⟩ := ihp hp.1 hs h
      exact ⟨i, hi, hspans.left⟩
    · obtain ⟨i, hi, hspans⟩ := ihq hp.2 hs h
      exact ⟨i, hi, hspans.right⟩
  | repetition p least most ih =>
    obtain ⟨hp, rfl, rfl⟩ := hp
    simp only [Shape.map, Shape.reach, Nat.zero_min, iterate] at h
    exact spans_closure (fun hs _ h => ih hp hs h) positions hs h

theorem exists_describes_of_occursIn (hp : p.Unbounded) {text : String}
    (h : p.occursIn text = true) : ∃ before a after, text.toList = before ++ (a ++ after) ∧
      p.Describes before a after := by
  have hwithin : Within text.toList (1 <<< (text.toList.length + 1) - 1) := by
    intro i hi
    rw [Nat.one_shiftLeft, Nat.testBit_two_pow_sub_one, decide_eq_true_eq] at hi
    omega
  simp only [occursIn, bne_iff_ne, ne_eq] at h
  obtain ⟨j, hj⟩ := Nat.exists_testBit_of_ne_zero h
  obtain ⟨i, -, before, a, after, htext, -, -, hdescribes⟩ := spans_reach hp hwithin hj
  exact ⟨before, a, after, htext, hdescribes⟩

def ofChar (c : Char) : Pattern := .leaf (.char (.one c.toNat false))

def ofWord (c : Char) (cs : List Char) : Pattern :=
  cs.foldl (fun p c => .sequence p (ofChar c)) (ofChar c)

variable {c : Char} {cs before a after : List Char}

theorem describes_ofChar (h : (ofChar c).Describes before a after) : a = [c] := by
  cases h with
  | @char _ _ _ c' hc =>
    simp [CharClass.contains, CharClass.one] at hc
    rw [Char.toNat_inj.1 (by omega : c'.toNat = c.toNat)]

theorem describes_ofWord (h : (ofWord c cs).Describes before a after) : a = c :: cs := by
  induction cs using List.reverseRecOn generalizing before a after with
  | nil => exact describes_ofChar h
  | append_singleton cs c' ih =>
    rw [ofWord, List.foldl_append] at h
    cases h with
    | sequence hcs hc => rw [ih hcs, describes_ofChar hc, List.cons_append]

theorem describes_anchor {place : Anchor} (h : Describes (.leaf (.anchor place)) before a after) :
    a = [] ∧ place.holds before.getLast? after = true := by
  cases h with
  | anchor hplace => exact ⟨rfl, hplace⟩

theorem describes_repetition {set : CharClass} {least : Nat} {most : Option Nat}
    (h : Describes (.repetition (.leaf (.char set)) least most) before a after) :
    ∀ c ∈ a, set.contains c = true := by
  generalize hp : Shape.repetition (Shape.leaf (Leaf.char set)) least most = p at h
  induction h generalizing least most with
  | done => exact List.forall_mem_nil _
  | more _ hfirst _ _ ih =>
    cases hp
    cases hfirst with
    | char hc => exact List.forall_mem_cons.2 ⟨hc, ih rfl⟩
  | _ => cases hp

end Pattern

end FormatFuzz
