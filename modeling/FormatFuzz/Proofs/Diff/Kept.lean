import FormatFuzz.Proofs.Diff.Script
import Mathlib.Order.Bounds.Basic

namespace FormatFuzz

namespace Segment

def commonLengths (a b : List Char) : Set ℕ := {n | ∃ w, w <:+: a ∧ w <:+: b ∧ w.length = n}

def keptLengths (ss : List Segment) : Set ℕ :=
  {n | ∃ s ∈ ss, s.change = .equal ∧ s.text.length = n}

variable {s : Segment} {a b : List Char}

theorem infix_of_kept (hs : s ∈ between a b) (h : s.change = .equal) :
    s.text.toList <:+: a ∧ s.text.toList <:+: b := by
  have hbefore := infix_textWithout .insert hs (by simp [h])
  have hafter := infix_textWithout .delete hs (by simp [h])
  rw [(textWithout_between a b).1, String.toList_ofList] at hbefore
  rw [(textWithout_between a b).2, String.toList_ofList] at hafter
  exact ⟨hbefore, hafter⟩

theorem keptLengths_subset (a b : List Char) : keptLengths (between a b) ⊆ commonLengths a b := by
  rintro n ⟨s, hs, hequal, hlength⟩
  obtain ⟨hbefore, hafter⟩ := infix_of_kept hs hequal
  exact ⟨s.text.toList, hbefore, hafter, by rw [String.length_toList, hlength]⟩

/-- Some part is the longest that two texts have in common, and it is kept unless it is empty. -/
theorem exists_longest_kept (a b : List Char) :
    ∃ n, IsGreatest (commonLengths a b) n ∧ (0 < n → n ∈ keptLengths (between a b)) := by
  rcases between_cases a b with ⟨x, w, y, x', y', rfl, rfl, hw, hlongest, heq⟩ | ⟨hnothing, -⟩
  · refine ⟨w.length, ⟨⟨w, ⟨x, y, rfl⟩, ⟨x', y', rfl⟩, rfl⟩, ?_⟩, fun _ => ?_⟩
    · rintro n ⟨v, hv, hv', rfl⟩
      exact hlongest v hv hv'
    · refine ⟨⟨.equal, String.ofList w⟩, ?_, rfl, String.length_ofList⟩
      rw [heq, ofChars_of_ne_nil .equal hw]
      simp
  · refine ⟨0, ⟨⟨[], List.nil_infix, List.nil_infix, rfl⟩, ?_⟩, fun h => absurd h (lt_irrefl 0)⟩
    rintro n ⟨v, hv, hv', rfl⟩
    rw [hnothing v hv hv', List.length_nil]

theorem one_mem_commonLengths {c : Char} (ha : c ∈ a) (hb : c ∈ b) : 1 ∈ commonLengths a b := by
  obtain ⟨x, y, rfl⟩ := List.append_of_mem ha
  obtain ⟨x', y', rfl⟩ := List.append_of_mem hb
  exact ⟨[c], ⟨x, y, by simp⟩, ⟨x', y', by simp⟩, rfl⟩

end Segment

open Segment

/-- The longest kept segment of a difference is as long as the longest part that the two texts have in
common, and nothing is kept exactly when they share no character. -/
theorem diffChars_keeps_longest (before after : String) :
    (∃ n, IsGreatest (commonLengths before.toList after.toList) n ∧
        (0 < n → IsGreatest (keptLengths (diffChars before after)) n)) ∧
      ((∀ s ∈ diffChars before after, s.change ≠ .equal) ↔
        ∀ c ∈ before.toList, c ∉ after.toList) := by
  obtain ⟨n, hgreatest, hkept⟩ := exists_longest_kept before.toList after.toList
  refine ⟨⟨n, hgreatest, fun hpos => ⟨hkept hpos, ?_⟩⟩, ?_, ?_⟩
  · intro k hk
    exact hgreatest.2 (keptLengths_subset _ _ hk)
  · intro hnone c hc hc'
    obtain ⟨s, hs, hequal, -⟩ := hkept (hgreatest.2 (one_mem_commonLengths hc hc'))
    exact hnone s hs hequal
  · intro hapart s hs hequal
    obtain ⟨hbefore, hafter⟩ := infix_of_kept hs hequal
    obtain ⟨c, hc⟩ := List.exists_mem_of_ne_nil s.text.toList (by
      simpa using text_ne_empty _ _ s hs)
    exact hapart c (hbefore.subset hc) (hafter.subset hc)

end FormatFuzz
