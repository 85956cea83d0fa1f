import FormatFuzz.Diff.Segment
import FormatFuzz.Proofs.Diff.Stretch
import Mathlib.Data.List.Chain
import Mathlib.Tactic.Common

/-!
# A difference is an edit script

The segments from one text to another one hold both texts and are told in one way only: none is empty,
none is followed by one of its kind, and what is added stands behind what is removed. A kept segment is
followed by another kind because it was the longest that could be kept.
-/

namespace FormatFuzz

namespace Segment

def textWithout (change : Change) (ss : List Segment) : String :=
  String.join ((ss.filter (·.change ≠ change)).map text)

def Follows (s t : Segment) : Prop :=
  s.change ≠ t.change ∧ ¬ (s.change = .insert ∧ t.change = .delete)

/-- What the segments from one text to another one hold, and how they stand. -/
structure IsScript (before after : String) (ss : List Segment) : Prop where
  before_eq : textWithout .insert ss = before
  after_eq : textWithout .delete ss = after
  nonempty : ∀ s ∈ ss, s.text ≠ ""
  follows : ss.IsChain Follows

variable {ss : List Segment} {s : Segment} {change : Change} {a b cs : List Char}

theorem ofChars_of_ne_nil (change : Change) (h : cs ≠ []) :
    ofChars change cs = [⟨change, String.ofList cs⟩] := by
  rw [ofChars, if_neg (by simpa using h)]

theorem textWithout_append (change : Change) (ss ts : List Segment) :
    textWithout change (ss ++ ts) = textWithout change ss ++ textWithout change ts := by
  simp [textWithout]

theorem textWithout_singleton (change : Change) (s : Segment) :
    textWithout change [s] = if s.change = change then "" else s.text := by
  by_cases h : s.change = change
  · simp [textWithout, h]
  · simp [textWithout, h]

theorem textWithout_ofChars (c change : Change) (cs : List Char) :
    textWithout c (ofChars change cs) = if change = c then "" else String.ofList cs := by
  cases cs with
  | nil => simp [ofChars, textWithout]
  | cons d cs =>
    by_cases h : change = c
    · simp [ofChars, textWithout, h]
    · simp [ofChars, textWithout, h]

theorem exists_textWithout_eq_append (change : Change) (hs : s ∈ ss.getLast?) (h : s.change ≠ change) :
    ∃ front, textWithout change ss = front ++ s.text := by
  obtain ⟨ts, rfl⟩ := List.getLast?_eq_some_iff.1 hs
  exact ⟨textWithout change ts, by simp [textWithout, h]⟩

theorem exists_textWithout_eq_prepend (change : Change) (hs : s ∈ ss.head?) (h : s.change ≠ change) :
    ∃ back, textWithout change ss = s.text ++ back := by
  obtain ⟨ts, rfl⟩ := List.head?_eq_some_iff.1 hs
  exact ⟨textWithout change ts, by simp [textWithout, h]⟩

theorem infix_textWithout (change : Change) (hs : s ∈ ss) (h : s.change ≠ change) :
    s.text.toList <:+: (textWithout change ss).toList := by
  obtain ⟨xs, ys, rfl⟩ := List.append_of_mem hs
  exact ⟨(textWithout change xs).toList, (textWithout change ys).toList, by simp [textWithout, h]⟩

theorem between_nil (b : List Char) : between [] b = ofChars .insert b := by
  have hsize : ¬ (0 < (Stretch.longest [] b).size ∧
      (Stretch.longest [] b).first + (Stretch.longest [] b).size ≤ ([] : List Char).length) := by
    intro h
    have hend := h.2
    rw [List.length_nil] at hend
    omega
  rw [between, dif_neg hsize]
  rfl

/-- The segments between two texts: those between their fronts, the longest common part and those
between their backs, or a removal and an addition if nothing is common. -/
theorem between_cases (a b : List Char) :
    (∃ x w y x' y', a = x ++ w ++ y ∧ b = x' ++ w ++ y' ∧ w ≠ [] ∧
      (∀ v, v <:+: a → v <:+: b → v.length ≤ w.length) ∧
      between a b = between x x' ++ ofChars .equal w ++ between y y') ∨
    (∀ v, v <:+: a → v <:+: b → v = []) ∧ between a b = ofChars .delete a ++ ofChars .insert b := by
  obtain ⟨x, w, y, x', y', ha, hb, hfirst, hsecond, hsize⟩ := Stretch.isCommon_longest a b
  have hlongest : ∀ v, v <:+: a → v <:+: b → v.length ≤ w.length := by
    intro v hva hvb
    rw [hsize]
    exact Stretch.length_le_longest hva hvb
  rw [between, ← hfirst, ← hsecond, ← hsize]
  by_cases hw : w = []
  · refine .inr ⟨fun v hva hvb => ?_, dif_neg (by simp [hw])⟩
    rw [hw] at hlongest
    exact List.eq_nil_of_length_eq_zero (Nat.le_zero.1 (hlongest v hva hvb))
  · refine .inl ⟨x, w, y, x', y', ha, hb, hw, hlongest, ?_⟩
    have hguard : 0 < w.length ∧ x.length + w.length ≤ a.length := by
      refine ⟨List.length_pos_iff.2 hw, ?_⟩
      rw [ha, List.length_append, List.length_append]
      omega
    rw [dif_pos hguard]
    simp [ha, hb]

/-- What holds where nothing is common, and of two texts with a longest common part if it holds in
front of the part and behind it, holds of all texts. -/
theorem between_induction {P : List Char → List Char → List Segment → Prop}
    (apart : ∀ a b, (∀ v, v <:+: a → v <:+: b → v = []) →
      P a b (ofChars .delete a ++ ofChars .insert b))
    (common : ∀ x w y x' y', w ≠ [] →
      (∀ v, v <:+: x ++ w ++ y → v <:+: x' ++ w ++ y' → v.length ≤ w.length) →
      P x x' (between x x') → P y y' (between y y') →
      P (x ++ w ++ y) (x' ++ w ++ y') (between x x' ++ ofChars .equal w ++ between y y'))
    (a b : List Char) : P a b (between a b) := by
  -- on the length of the first text: both sides of a common part are shorter
  induction hn : a.length using Nat.strong_induction_on generalizing a b with
  | h n ih =>
    rcases between_cases a b with ⟨x, w, y, x', y', rfl, rfl, hw, hlongest, heq⟩ | ⟨hnothing, heq⟩
    · have hpos : 0 < w.length := List.length_pos_iff.2 hw
      rw [List.length_append, List.length_append] at hn
      rw [heq]
      exact common x w y x' y' hw hlongest (ih x.length (by omega) x x' rfl)
        (ih y.length (by omega) y y' rfl)
    · rw [heq]
      exact apart a b hnothing

theorem textWithout_between (a b : List Char) :
    textWithout .insert (between a b) = String.ofList a ∧
      textWithout .delete (between a b) = String.ofList b := by
  refine between_induction (P := fun a b ss => textWithout .insert ss = String.ofList a ∧
    textWithout .delete ss = String.ofList b) ?_ ?_ a b
  · intro a b _
    simp [textWithout_append, textWithout_ofChars]
  · intro x w y x' y' _ _ hfront hback
    simp [textWithout_append, textWithout_ofChars, hfront, hback]

theorem text_ne_empty_of_mem_ofChars (h : s ∈ ofChars change cs) : s.text ≠ "" := by
  cases cs with
  | nil => cases h
  | cons c cs =>
    obtain rfl := List.mem_singleton.1 h
    simp

theorem text_ne_empty (a b : List Char) : ∀ s ∈ between a b, s.text ≠ "" := by
  refine between_induction (P := fun _ _ ss => ∀ s ∈ ss, s.text ≠ "") ?_ ?_ a b
  · intro a b _ s hs
    rcases List.mem_append.1 hs with hs | hs
    · exact text_ne_empty_of_mem_ofChars hs
    · exact text_ne_empty_of_mem_ofChars hs
  · intro x w y x' y' _ _ hfront hback s hs
    rw [List.mem_append, List.mem_append] at hs
    rcases hs with (hs | hs) | hs
    · exact hfront s hs
    · exact text_ne_empty_of_mem_ofChars hs
    · exact hback s hs

/-- In front of the longest common part there is no kept segment: with it the part would be longer. -/
theorem change_ne_equal_of_getLast? {x w y x' y' : List Char}
    (hlongest : ∀ v, v <:+: x ++ w ++ y → v <:+: x' ++ w ++ y' → v.length ≤ w.length)
    (hs : s ∈ (between x x').getLast?) : s.change ≠ .equal := by
  intro hequal
  obtain ⟨front, hfront⟩ := exists_textWithout_eq_append .insert hs (by simp [hequal])
  obtain ⟨front', hfront'⟩ := exists_textWithout_eq_append .delete hs (by simp [hequal])
  rw [(textWithout_between x x').1] at hfront
  rw [(textWithout_between x x').2] at hfront'
  have hx : x = front.toList ++ s.text.toList := by simpa using congrArg String.toList hfront
  have hx' : x' = front'.toList ++ s.text.toList := by simpa using congrArg String.toList hfront'
  -- the kept text and the part behind it would be one common part
  have hlength := hlongest (s.text.toList ++ w) ⟨front.toList, y, by simp [hx]⟩
    ⟨front'.toList, y', by simp [hx']⟩
  apply text_ne_empty x x' s (List.mem_of_getLast? hs)
  rw [List.length_append] at hlength
  rw [← String.toList_eq_nil_iff, ← List.length_eq_zero_iff]
  omega

/-- Nor is there one behind it. -/
theorem change_ne_equal_of_head? {x w y x' y' : List Char}
    (hlongest : ∀ v, v <:+: x ++ w ++ y → v <:+: x' ++ w ++ y' → v.length ≤ w.length)
    (hs : s ∈ (between y y').head?) : s.change ≠ .equal := by
  intro hequal
  obtain ⟨back, hback⟩ := exists_textWithout_eq_prepend .insert hs (by simp [hequal])
  obtain ⟨back', hback'⟩ := exists_textWithout_eq_prepend .delete hs (by simp [hequal])
  rw [(textWithout_between y y').1] at hback
  rw [(textWithout_between y y').2] at hback'
  have hy : y = s.text.toList ++ back.toList := by simpa using congrArg String.toList hback
  have hy' : y' = s.text.toList ++ back'.toList := by simpa using congrArg String.toList hback'
  have hlength := hlongest (w ++ s.text.toList) ⟨x, back.toList, by simp [hy]⟩
    ⟨x', back'.toList, by simp [hy']⟩
  apply text_ne_empty y y' s (List.mem_of_head? hs)
  rw [List.length_append] at hlength
  rw [← String.toList_eq_nil_iff, ← List.length_eq_zero_iff]
  omega

theorem isChain_between (a b : List Char) : (between a b).IsChain Follows := by
  refine between_induction (P := fun _ _ ss => ss.IsChain Follows) ?_ ?_ a b
  · intro a b _
    cases a with
    | nil =>
      cases b with
      | nil => exact .nil
      | cons d b => exact .singleton _
    | cons c a =>
      cases b with
      | nil => exact .singleton _
      | cons d b => exact .cons_cons ⟨by simp, by simp⟩ (.singleton _)
  · intro x w y x' y' hw hlongest hfront hback
    rw [ofChars_of_ne_nil .equal hw]
    refine (hfront.append (.singleton _) ?_).append hback ?_
    · intro s hs t ht
      obtain rfl := Option.some.inj ht
      exact ⟨change_ne_equal_of_getLast? hlongest hs, by simp⟩
    · intro s hs t ht
      rw [List.getLast?_concat] at hs
      obtain rfl := Option.some.inj hs
      exact ⟨(change_ne_equal_of_head? hlongest ht).symm, by simp⟩

theorem between_self (a : List Char) : between a a = ofChars .equal a := by
  rcases between_cases a a with ⟨x, w, y, x', y', ha, ha', hw, hlongest, heq⟩ | ⟨hnothing, heq⟩
  · -- the longest common part is the whole text, so nothing is left beside it
    have hlength := hlongest a List.infix_rfl List.infix_rfl
    have hparts := congrArg List.length ha
    have hparts' := congrArg List.length ha'
    simp only [List.length_append] at hparts hparts'
    obtain rfl : x = [] := List.eq_nil_of_length_eq_zero (by omega)
    obtain rfl : y = [] := List.eq_nil_of_length_eq_zero (by omega)
    obtain rfl : x' = [] := List.eq_nil_of_length_eq_zero (by omega)
    obtain rfl : y' = [] := List.eq_nil_of_length_eq_zero (by omega)
    obtain rfl : a = w := by simpa using ha
    rw [heq, between_nil]
    exact List.append_nil _
  · rw [heq, hnothing a List.infix_rfl List.infix_rfl]
    rfl

theorem textWithout_of_forall_equal (h : ∀ s ∈ ss, s.change = .equal) (c : Change)
    (hc : c ≠ .equal) : textWithout c ss = String.join (ss.map text) := by
  rw [textWithout, List.filter_eq_self.2]
  intro s hs
  simpa [h s hs] using hc.symm

end Segment

open Segment

theorem textWithout_diffChars (before after : String) :
    textWithout .insert (diffChars before after) = before ∧
      textWithout .delete (diffChars before after) = after := by
  simpa [diffChars] using textWithout_between before.toList after.toList

/-- The difference between two texts is an edit script from the one to the other, and nothing is removed
or added exactly when they are equal. -/
theorem diffChars_isScript (before after : String) :
    IsScript before after (diffChars before after) ∧
      ((∀ s ∈ diffChars before after, s.change = .equal) ↔ before = after) := by
  obtain ⟨hbefore, hafter⟩ := textWithout_between before.toList after.toList
  rw [String.ofList_toList] at hbefore hafter
  refine ⟨⟨hbefore, hafter, text_ne_empty _ _, isChain_between _ _⟩, fun h => ?_, ?_⟩
  · have hkept := textWithout_of_forall_equal h .insert (by simp)
    rw [← textWithout_of_forall_equal h .delete (by simp)] at hkept
    exact hbefore.symm.trans (hkept.trans hafter)
  · rintro rfl s hs
    rw [diffChars, between_self] at hs
    by_cases hnil : before.toList = []
    · rw [hnil] at hs
      cases hs
    · rw [ofChars_of_ne_nil .equal hnil] at hs
      rw [List.mem_singleton.1 hs]

end FormatFuzz
