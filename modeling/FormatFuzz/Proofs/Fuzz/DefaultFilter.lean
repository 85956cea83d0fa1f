import FormatFuzz.Proofs.Fuzz.Boring
import FormatFuzz.Proofs.Pattern.Found

namespace FormatFuzz

/-- A word stands in a text with no character of a word beside it. -/
def Text.StandsAlone (word text : List Char) : Prop :=
  ∃ before after, text = before ++ (word ++ after) ∧
    (∀ c ∈ before.getLast?, isWordChar c = false) ∧ ∀ c ∈ after.head?, isWordChar c = false

namespace Anchor

variable {c : Char}

/-- In front of a character of a word an edge means that no such character is before it. -/
theorem holds_wordEdge_before (hc : Text.isWordChar c = true) (before : Option Char) (cs : List Char) :
    wordEdge.holds before (c :: cs) = true ↔ ∀ d ∈ before, Text.isWordChar d = false := by
  cases before <;> simp [holds, hc]

theorem holds_wordEdge_behind (hc : Text.isWordChar c = true) (after : List Char) :
    wordEdge.holds (some c) after = true ↔ ∀ d ∈ after.head?, Text.isWordChar d = false := by
  cases after <;> simp [holds, hc]

/-- Between two edges a word that begins and ends with such characters stands alone. -/
theorem holds_wordEdges_iff {last : Char} {cs before after : List Char} (hc : Text.isWordChar c = true)
    (hlast : (c :: cs).getLast? = some last) (hl : Text.isWordChar last = true) :
    wordEdge.holds before.getLast? (c :: cs ++ after) = true ∧
        wordEdge.holds (before ++ c :: cs).getLast? after = true ↔
      (∀ d ∈ before.getLast?, Text.isWordChar d = false) ∧
        ∀ d ∈ after.head?, Text.isWordChar d = false := by
  have hend : (before ++ c :: cs).getLast? = some last := by
    rw [List.getLast?_append, hlast, Option.some_or]
  rw [hend, List.cons_append, holds_wordEdge_before hc, holds_wordEdge_behind hl]

end Anchor

namespace BoringFilter

variable {before a after : List Char}

theorem describes_emptyPattern_of_forall {text : List Char}
    (h : ∀ c ∈ text, Text.isBlank c = true ∨ c = ';') : emptyPattern.Describes [] text [] := by
  refine Pattern.describes_sequence_anchor_iff.2 ⟨Pattern.describes_anchor_sequence_iff.2 ⟨rfl, ?_⟩, rfl⟩
  exact Pattern.describes_repetition_of_forall fun c hc => (contains_emptyChars c).2 (h c hc)

theorem describes_declaringPattern_iff : declaringPattern.Describes before a after ↔
    (a = "global".toList ∨ a = "nonlocal".toList) ∧
      (∀ c ∈ before.getLast?, Text.isWordChar c = false) ∧
        ∀ c ∈ after.head?, Text.isWordChar c = false := by
  have hglobal : 'g' :: "lobal".toList = "global".toList := by decide
  have hnonlocal : 'n' :: "onlocal".toList = "nonlocal".toList := by decide
  rw [declaringPattern, Pattern.describes_sequence_anchor_iff, Pattern.describes_anchor_sequence_iff,
    Pattern.describes_either_iff, Pattern.describes_ofWord_iff, Pattern.describes_ofWord_iff,
    and_right_comm, and_comm, hglobal, hnonlocal]
  refine and_congr_right fun hword => ?_
  -- both words begin and end with letters, so at their edges the other character counts
  rcases hword with rfl | rfl
  · exact Anchor.holds_wordEdges_iff (by decide) (show _ = some 'l' by decide) (by decide)
  · exact Anchor.holds_wordEdges_iff (by decide) (show _ = some 'l' by decide) (by decide)

/-- The default filter takes a program for boring exactly when there is nothing in it but blanks and
semicolons, or one of two words stands in it with no character of a word on either side. -/
theorem isBoring_default_iff (source : String) :
    ∃ filter, ofText defaultBoringPattern = .ok filter ∧
      (filter.isBoring source = true ↔
        (∀ c ∈ source.toList, Text.isBlank c = true ∨ c = ';') ∨
          Text.StandsAlone "global".toList source.toList ∨
            Text.StandsAlone "nonlocal".toList source.toList) := by
  refine ⟨_, ofText_defaultBoringPattern, ?_⟩
  rw [Pattern.occursIn_iff unbounded_defaultPattern]
  constructor
  · rintro ⟨before, a, after, htext, hdescribes⟩
    rcases Pattern.describes_either_iff.1 hdescribes with hempty | hdeclaring
    · exact .inl (htext ▸ of_describes_emptyPattern hempty)
    · obtain ⟨hword, halone⟩ := describes_declaringPattern_iff.1 hdeclaring
      rcases hword with rfl | rfl
      · exact .inr (.inl ⟨before, after, htext, halone⟩)
      · exact .inr (.inr ⟨before, after, htext, halone⟩)
  · rintro (hempty | ⟨before, after, htext, halone⟩ | ⟨before, after, htext, halone⟩)
    · exact ⟨[], source.toList, [], by simp, .left (describes_emptyPattern_of_forall hempty)⟩
    · exact ⟨before, _, after, htext, .right (describes_declaringPattern_iff.2 ⟨.inl rfl, halone⟩)⟩
    · exact ⟨before, _, after, htext, .right (describes_declaringPattern_iff.2 ⟨.inr rfl, halone⟩)⟩

end BoringFilter

end FormatFuzz
