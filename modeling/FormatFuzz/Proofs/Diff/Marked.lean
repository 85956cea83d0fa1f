import FormatFuzz.Proofs.Diff.Rendered

namespace FormatFuzz

def Change.IsMark (style : String) : Prop := style = insert.style ∨ style = delete.style

theorem Change.isMark_style {change : Change} : IsMark change.style ↔ change ≠ .equal := by
  cases change with
  | equal => simp [IsMark, style]
  | insert => simp [IsMark]
  | delete => simp [IsMark]

namespace StyledText

/-- Some character is covered by the style of a removal or an addition. -/
def IsMarked (t : StyledText) : Prop :=
  ∃ i < t.text.length, ∃ s ∈ t.spans, s.start ≤ i ∧ i < s.stop ∧ Change.IsMark s.style

variable {t : StyledText}

theorem mem_stylesAt {spans : List Span} {i : Nat} {style : String} :
    style ∈ stylesAt spans i ↔ ∃ s ∈ spans, s.start ≤ i ∧ i < s.stop ∧ s.style = style := by
  simp [stylesAt, and_assoc]

theorem mem_styledChars {p : Char × List String} : p ∈ t.styledChars ↔
    ∃ i, t.text.toList[i]? = some p.1 ∧ stylesAt t.spans i = p.2 := by
  obtain ⟨c, styles⟩ := p
  constructor
  · intro h
    obtain ⟨⟨d, i⟩, hmem, heq⟩ := List.mem_map.1 h
    obtain ⟨rfl, hstyles⟩ := Prod.mk.inj heq
    exact ⟨i, List.mem_zipIdx_iff_getElem?.1 hmem, hstyles⟩
  · rintro ⟨i, hget, hstyles⟩
    exact List.mem_map.2 ⟨(c, i), List.mem_zipIdx_iff_getElem?.2 hget, Prod.ext rfl hstyles⟩

theorem isMarked_iff : t.IsMarked ↔ ∃ p ∈ t.styledChars, ∃ style ∈ p.2, Change.IsMark style := by
  constructor
  · rintro ⟨i, hi, s, hs, hstart, hstop, hmark⟩
    rw [← String.length_toList] at hi
    exact ⟨(_, _), mem_styledChars.2 ⟨i, List.getElem?_eq_getElem hi, rfl⟩, s.style,
      mem_stylesAt.2 ⟨s, hs, hstart, hstop, rfl⟩, hmark⟩
  · rintro ⟨p, hp, style, hstyle, hmark⟩
    obtain ⟨i, hget, hstyles⟩ := mem_styledChars.1 hp
    rw [← hstyles] at hstyle
    obtain ⟨s, hs, hstart, hstop, rfl⟩ := mem_stylesAt.1 hstyle
    refine ⟨i, ?_, s, hs, hstart, hstop, hmark⟩
    rw [← String.length_toList]
    exact (List.getElem?_eq_some_iff.1 hget).1

end StyledText

open StyledText

/-- What a change is shown by has a mark, unless it is left out. -/
theorem Change.exists_mark_iff {change : Change} {c : Char} :
    (∃ p ∈ change.shown c, ∃ style ∈ p.2, IsMark style) ↔
      change ≠ .equal ∧ isCursorControl c = false := by
  cases hcontrol : isCursorControl c with
  | true => simp [change.shown_control hcontrol]
  | false =>
    by_cases hend : change ≠ .equal ∧ c = '\n'
    · simp [hend.2, shown_lineEnd hend.1, isMark_style]
    · simp [shown_plain hcontrol hend, isMark_style]

/-- A shown difference is marked exactly if not all that is removed or added is left out. -/
theorem isMarked_renderDiff_iff (ss : List Segment) : (renderDiff ss).IsMarked ↔
    ∃ s ∈ ss, s.change ≠ .equal ∧ ∃ c ∈ s.text.toList, isCursorControl c = false := by
  rw [isMarked_iff, (shows_renderDiff ss).chars_eq]
  constructor
  · rintro ⟨p, hp, hmark⟩
    obtain ⟨s, hs, hp⟩ := List.mem_flatMap.1 hp
    obtain ⟨c, hc, hp⟩ := List.mem_flatMap.1 hp
    obtain ⟨hchange, hcontrol⟩ := Change.exists_mark_iff.1 ⟨p, hp, hmark⟩
    exact ⟨s, hs, hchange, c, hc, hcontrol⟩
  · rintro ⟨s, hs, hchange, c, hc, hcontrol⟩
    obtain ⟨p, hp, hmark⟩ := Change.exists_mark_iff.2 ⟨hchange, hcontrol⟩
    exact ⟨p, List.mem_flatMap.2 ⟨s, hs, List.mem_flatMap.2 ⟨c, hc, hp⟩⟩, hmark⟩

/-- If all that is removed or added is left out, the two texts differ in nothing else. -/
theorem Segment.withoutControls_textWithout {ss : List Segment}
    (h : ∀ s ∈ ss, s.change ≠ .equal → ∀ c ∈ s.text.toList, isCursorControl c = true) :
    withoutControls (textWithout .insert ss) = withoutControls (textWithout .delete ss) := by
  induction ss with
  | nil => rfl
  | cons s ss ih =>
    have hss := ih fun s hs => h s (List.mem_cons_of_mem _ hs)
    have hhidden : s.change ≠ .equal → withoutControls s.text = "" := fun hchange => by
      simpa [withoutControls] using h s List.mem_cons_self hchange
    have hone : withoutControls (textWithout .insert [s]) =
        withoutControls (textWithout .delete [s]) := by
      rw [textWithout_singleton, textWithout_singleton]
      obtain ⟨change, text⟩ := s
      cases change with
      | equal => rfl
      | insert => exact (hhidden (by simp)).symm
      | delete => exact hhidden (by simp)
    rw [← List.singleton_append, textWithout_append, textWithout_append, withoutControls_append,
      withoutControls_append, hone, hss]

/-- A difference is shown with a mark exactly if some character that is removed or added is not left out,
and that is so whenever the texts differ in more than the characters that are. -/
theorem isMarked_diffChars (before after : String) :
    ((renderDiff (diffChars before after)).IsMarked ↔ ∃ s ∈ diffChars before after,
        s.change ≠ .equal ∧ ∃ c ∈ s.text.toList, isCursorControl c = false) ∧
      (withoutControls before ≠ withoutControls after →
        (renderDiff (diffChars before after)).IsMarked) := by
  refine ⟨isMarked_renderDiff_iff _, fun hne => ?_⟩
  by_contra hunmarked
  obtain ⟨hbefore, hafter⟩ := textWithout_diffChars before after
  have hsame : withoutControls (Segment.textWithout .insert (diffChars before after)) =
      withoutControls (Segment.textWithout .delete (diffChars before after)) := by
    apply Segment.withoutControls_textWithout
    intro s hs hchange c hc
    by_contra hcontrol
    exact hunmarked ((isMarked_renderDiff_iff _).2 ⟨s, hs, hchange, c, hc, by simpa using hcontrol⟩)
  rw [hbefore, hafter] at hsame
  exact hne hsame

/-- A changed word is seen, though the line ends differ as well. -/
theorem isMarked_diffChars_word : withoutControls "a\r\n" ≠ withoutControls "b\n" ∧
    (renderDiff (diffChars "a\r\n" "b\n")).IsMarked := by
  have hne : withoutControls "a\r\n" ≠ withoutControls "b\n" := by decide
  exact ⟨hne, (isMarked_diffChars "a\r\n" "b\n").2 hne⟩

/-- The two texts end their line in different ways, and nothing is seen of it. -/
theorem not_forall_isMarked :
    ¬ ∀ before after : String, before ≠ after → (renderDiff (diffChars before after)).IsMarked := by
  intro h
  have hdiff : diffChars "a\r\n" "a\n" = [⟨.equal, "a"⟩, ⟨.delete, "\r"⟩, ⟨.equal, "\n"⟩] := by cbv
  have hmarked := h "a\r\n" "a\n" (by decide)
  rw [isMarked_renderDiff_iff, hdiff] at hmarked
  simp [isCursorControl] at hmarked

end FormatFuzz
