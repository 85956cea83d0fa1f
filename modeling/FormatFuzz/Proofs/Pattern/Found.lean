import FormatFuzz.Proofs.Pattern.Search
import Mathlib.Data.Finset.Card
import Mathlib.Data.Finset.Range
import Mathlib.Data.Finset.Filter

/-!
# Every stretch is found

Marks move over every stretch that a pattern describes, so no stretch of a text is missed by a search. For
a repetition this needs that its steps go on until they lead to no new mark: each step before makes one,
and a text has no more positions than steps are taken.

Together with the soundness of the search, a pattern occurs in a text exactly when it describes a stretch
of it.
-/

namespace FormatFuzz

variable {text : List Char} {step : Nat → Nat} {s i j n : Nat}

theorem Within.or {t : Nat} (hs : Within text s) (ht : Within text t) : Within text (s ||| t) := by
  intro i hi
  rw [Nat.testBit_or, Bool.or_eq_true] at hi
  exact hi.elim (hs i) (ht i)

theorem within_closure (hstep : ∀ {s}, Within text s → Within text (step s)) (hs : Within text s)
    (n : Nat) : Within text (closure step n s) := by
  induction n generalizing s with
  | zero => exact hs
  | succ n ih =>
    simp only [closure]
    split
    · exact hs
    · exact ih (hs.or (hstep hs))

theorem testBit_closure (h : s.testBit i = true) (n : Nat) : (closure step n s).testBit i = true := by
  induction n generalizing s with
  | zero => exact h
  | succ n ih =>
    simp only [closure]
    split
    · exact h
    · exact ih (by rw [Nat.testBit_or, h, Bool.true_or])

def unmarked (text : List Char) (s : Nat) : Finset Nat :=
  (Finset.range (text.length + 1)).filter fun i => s.testBit i = false

theorem mem_unmarked : i ∈ unmarked text s ↔ i ≤ text.length ∧ s.testBit i = false := by
  rw [unmarked, Finset.mem_filter, Finset.mem_range, Nat.lt_succ_iff]

/-- A set that changes by more members of a text leaves fewer positions over. -/
theorem card_unmarked_lt {t : Nat} (ht : Within text t) (hne : s ||| t ≠ s) :
    (unmarked text (s ||| t)).card < (unmarked text s).card := by
  obtain ⟨i, hi⟩ := Nat.exists_testBit_ne_of_ne hne
  rw [Nat.testBit_or] at hi
  have hold : s.testBit i = false := by
    by_contra hmem
    rw [Bool.not_eq_false] at hmem
    rw [hmem, Bool.true_or] at hi
    exact hi rfl
  rw [hold, Bool.false_or, Bool.ne_false_iff] at hi
  have hsub : unmarked text (s ||| t) ⊆ unmarked text s := by
    intro k hk
    rw [mem_unmarked, Nat.testBit_or, Bool.or_eq_false_iff] at hk
    exact mem_unmarked.2 ⟨hk.1, hk.2.1⟩
  refine Finset.card_lt_card ((Finset.ssubset_iff_of_subset hsub).2 ⟨i, ?_, ?_⟩)
  · exact mem_unmarked.2 ⟨ht i hi, hold⟩
  · rw [mem_unmarked, Nat.testBit_or, hi, Bool.or_true]
    exact fun h => Bool.noConfusion h.2

/-- After as many steps as there are positions left over, no step leads out of the set. -/
theorem closed_closure (hstep : ∀ {s}, Within text s → Within text (step s)) (hs : Within text s)
    (hn : (unmarked text s).card ≤ n) (h : (step (closure step n s)).testBit i = true) :
    (closure step n s).testBit i = true := by
  induction n generalizing s with
  | zero =>
    -- all positions are in the set
    have hempty := Finset.card_eq_zero.1 (Nat.le_zero.1 hn)
    have hnone : i ∉ unmarked text s := hempty ▸ Finset.notMem_empty i
    rw [mem_unmarked, not_and, Bool.not_eq_false] at hnone
    exact hnone (hstep hs i h)
  | succ n ih =>
    simp only [closure] at h ⊢
    split at h
    · next hsame =>
      rw [if_pos hsame, ← hsame, Nat.testBit_or, h, Bool.or_true]
    · next hne =>
      rw [if_neg hne]
      have hfewer := card_unmarked_lt (hstep hs) hne
      exact ih (hs.or (hstep hs)) (by omega) h

namespace Pattern

variable {p q : Pattern} {k positions t : Nat}

theorem testBit_apply_filter {leaf : Leaf} (hi : s.testBit i = true)
    (h : Spans (.leaf leaf) text i j) : ((leaf.filter text).apply s).testBit j = true := by
  obtain ⟨before, a, after, rfl, rfl, rfl, hdescribes⟩ := h
  cases hdescribes with
  | @char set _ _ c hc =>
    simp only [Leaf.filter, Filter.apply, if_true, Nat.testBit_shiftLeft, Nat.testBit_and,
      Bool.and_eq_true, decide_eq_true_eq, testBit_positionsWhere, List.length_append,
      List.length_singleton, Nat.add_sub_cancel]
    exact ⟨Nat.le_add_left _ _, hi, before, [c] ++ after, rfl, rfl, hc⟩
  | anchor hplace =>
    simp only [Leaf.filter, Filter.apply, Bool.false_eq_true, if_false, Nat.testBit_and,
      Bool.and_eq_true, testBit_positionsWhere, Option.or_none, List.append_nil]
    exact ⟨hi, before, after, rfl, rfl, hplace⟩

theorem Spans.exists_between (h : Spans (.sequence p q) text i j) :
    ∃ k, p.Spans text i k ∧ q.Spans text k j := by
  obtain ⟨before, _, after, rfl, rfl, rfl, hdescribes⟩ := h
  cases hdescribes with
  | @sequence _ _ _ a b _ hp hq =>
    refine ⟨(before ++ a).length, ⟨before, a, b ++ after, ?_, rfl, rfl, hp⟩,
      ⟨before ++ a, b, after, ?_, rfl, ?_, hq⟩⟩
    · rw [List.append_assoc]
    · simp
    · rw [List.append_assoc]

/-- A set that a pattern does not lead out of is not left by its repetition either. -/
theorem testBit_of_repetition
    (hclosed : ∀ {i j}, t.testBit i = true → p.Spans text i j → t.testBit j = true)
    (hi : t.testBit i = true) (h : Spans (.repetition p 0 none) text i j) : t.testBit j = true := by
  obtain ⟨before, a, after, htext, rfl, rfl, hdescribes⟩ := h
  generalize hq : Shape.repetition p 0 none = q at hdescribes
  -- along the parts that are repeated: behind each of them there is a mark again
  induction hdescribes with
  | done => rwa [List.append_nil]
  | @more _ _ _ before a b after _ hfirst _ _ ih =>
    cases hq
    rw [List.append_assoc] at htext
    have hmark := hclosed hi ⟨before, a, b ++ after, htext, rfl, rfl, hfirst⟩
    rw [← List.append_assoc before]
    exact ih (by rw [htext, List.append_assoc]) hmark rfl
  | _ => cases hq

theorem within_reach (hp : p.Unbounded) (hs : Within text s) :
    Within text ((Shape.map (Leaf.filter text) p).reach positions s) := by
  intro j hj
  obtain ⟨_, -, hspans⟩ := spans_reach hp hs hj
  exact hspans.le

theorem testBit_reach (hp : p.Unbounded) (hpositions : text.length < positions)
    (hs : Within text s) (hi : s.testBit i = true) (h : p.Spans text i j) :
    ((Shape.map (Leaf.filter text) p).reach positions s).testBit j = true := by
  induction p generalizing s i j with
  | nothing =>
    obtain ⟨before, a, after, -, rfl, rfl, hdescribes⟩ := h
    cases hdescribes
    rwa [List.append_nil]
  | leaf leaf => exact testBit_apply_filter hi h
  | sequence p q ihp ihq =>
    obtain ⟨k, hspans, hrest⟩ := h.exists_between
    exact ihq hp.2 (within_reach hp.1 hs) (ihp hp.1 hs hi hspans) hrest
  | either p q ihp ihq =>
    simp only [Shape.map, Shape.reach, Nat.testBit_or, Bool.or_eq_true]
    obtain ⟨before, a, after, htext, hbefore, hbehind, hdescribes⟩ := h
    cases hdescribes with
    | left hleft => exact .inl (ihp hp.1 hs hi ⟨before, a, after, htext, hbefore, hbehind, hleft⟩)
    | right hright => exact .inr (ihq hp.2 hs hi ⟨before, a, after, htext, hbefore, hbehind, hright⟩)
  | repetition p least most ih =>
    obtain ⟨hp, rfl, rfl⟩ := hp
    simp only [Shape.map, Shape.reach, Nat.zero_min, iterate]
    have hstep : ∀ {s}, Within text s →
        Within text ((Shape.map (Leaf.filter text) p).reach positions s) := within_reach hp
    have hcard : (unmarked text s).card ≤ positions :=
      calc (unmarked text s).card ≤ (Finset.range (text.length + 1)).card :=
            Finset.card_filter_le _ _
        _ = text.length + 1 := Finset.card_range _
        _ ≤ positions := hpositions
    refine testBit_of_repetition ?_ (testBit_closure hi positions) h
    intro i j hmark hspans
    exact closed_closure hstep hs hcard (ih hp (within_closure hstep hs positions) hmark hspans)

/-- A pattern occurs in a text exactly when it describes a stretch of it. -/
theorem occursIn_iff (hp : p.Unbounded) {text : String} : p.occursIn text = true ↔
    ∃ before a after, text.toList = before ++ (a ++ after) ∧ p.Describes before a after := by
  constructor
  · exact exists_describes_of_occursIn hp
  · rintro ⟨before, a, after, htext, hdescribes⟩
    have hbit : ∀ i, (1 <<< (text.toList.length + 1) - 1).testBit i = true ↔ i ≤ text.toList.length := by
      intro i
      rw [Nat.one_shiftLeft, Nat.testBit_two_pow_sub_one, decide_eq_true_eq, Nat.lt_succ_iff]
    have hstart : before.length ≤ text.toList.length := by
      rw [htext, List.length_append]
      exact Nat.le_add_right _ _
    have hfound := testBit_reach hp (Nat.lt_succ_self _) (fun i hi => (hbit i).1 hi) ((hbit _).2 hstart)
      ⟨before, a, after, htext, rfl, rfl, hdescribes⟩
    simp only [occursIn, bne_iff_ne, ne_eq]
    intro hnone
    rw [hnone, Nat.zero_testBit] at hfound
    cases hfound

variable {place : Anchor} {c : Char} {cs before a after : List Char}

theorem describes_either_iff :
    Describes (.either p q) before a after ↔ p.Describes before a after ∨ q.Describes before a after := by
  constructor
  · intro h
    cases h with
    | left h => exact .inl h
    | right h => exact .inr h
  · exact fun h => h.elim .left .right

/-- A place in front of a pattern adds nothing to the stretch. -/
theorem describes_anchor_sequence_iff :
    Describes (.sequence (.leaf (.anchor place)) p) before a after ↔
      place.holds before.getLast? (a ++ after) = true ∧ p.Describes before a after := by
  constructor
  · intro h
    cases h with
    | sequence hplace hp =>
      obtain ⟨rfl, hholds⟩ := describes_anchor hplace
      rw [List.append_nil] at hp
      exact ⟨hholds, hp⟩
  · rintro ⟨hholds, hp⟩
    exact .sequence (.anchor hholds) ((List.append_nil before).symm ▸ hp)

/-- A place behind a pattern adds nothing either. -/
theorem describes_sequence_anchor_iff :
    Describes (.sequence p (.leaf (.anchor place))) before a after ↔
      p.Describes before a after ∧ place.holds (before ++ a).getLast? after = true := by
  constructor
  · intro h
    cases h with
    | sequence hp hplace =>
      obtain ⟨rfl, hholds⟩ := describes_anchor hplace
      rw [List.append_nil]
      exact ⟨hp, hholds⟩
  · rintro ⟨hp, hholds⟩
    have hdescribes := Describes.sequence (b := []) hp (.anchor hholds)
    rwa [List.append_nil] at hdescribes

theorem describes_ofWord_self (c : Char) (cs before after : List Char) :
    (ofWord c cs).Describes before (c :: cs) after := by
  have hone : ∀ (c : Char) (before after : List Char), (ofChar c).Describes before [c] after := by
    intro c before after
    exact .char (by simp [CharClass.contains, CharClass.one])
  induction cs using List.reverseRecOn generalizing before after with
  | nil => exact hone c before after
  | append_singleton cs c' ih =>
    rw [ofWord, List.foldl_append, ← List.cons_append]
    exact .sequence (ih before ([c'] ++ after)) (hone c' (before ++ c :: cs) after)

theorem describes_ofWord_iff : (ofWord c cs).Describes before a after ↔ a = c :: cs := by
  constructor
  · exact describes_ofWord
  · rintro rfl
    exact describes_ofWord_self c cs before after

theorem describes_repetition_of_forall {set : CharClass} (h : ∀ c ∈ a, set.contains c = true) :
    Describes (.repetition (.leaf (.char set)) 0 none) before a after := by
  induction a generalizing before with
  | nil => exact .done
  | cons c a ih =>
    obtain ⟨hc, ha⟩ := List.forall_mem_cons.1 h
    exact .more (a := [c]) nofun (.char hc) (ih ha)

end Pattern

end FormatFuzz
