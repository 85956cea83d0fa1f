import FormatFuzz.Proofs.Program.Statements

namespace FormatFuzz.Program

open FormatFuzz.Random FormatFuzz.Random.Draw FormatFuzz.Program.Lex

variable {σ : Type} [Source σ]

/-- The text of lines does without a blank line in front. -/
theorem Line.Stand.exists_lays {ls : List Line} (h : Stand 0 ls) : ∃ rows end', rows ≠ [] ∧
    Lays 0 rows end' ∧ textOf ls = "\n".intercalate (rows.map text) ∧ rows ⊆ ls := by
  obtain ⟨hne, hlays⟩ := h
  obtain ⟨end', -, hls⟩ := hlays 0 (Nat.le_refl 0)
  cases hls with
  | nil => exact absurd rfl hne
  | @blank _ _ ls hrest hls => exact ⟨ls, end', hrest, hls, rfl, List.subset_cons_self _ _⟩
  | @row _ _ l ls hrow hlevel hls =>
    refine ⟨l :: ls, end', List.cons_ne_nil l ls, .row hrow hlevel hls, ?_, List.Subset.refl _⟩
    rw [textOf, if_neg (by simpa using hrow.ne_nil), List.map_cons]

theorem Line.Lays.ofText {rows : List Line} {end' : Nat} (h : Lays 0 rows end') (hne : rows ≠ []) :
    Lexed.ofText ("\n".intercalate (rows.map text)) = ⟨Line.tokens 0 rows, none⟩ := by
  obtain ⟨lines, hreads, hflatten⟩ := reads_lines h hne (Nat.zero_le 1)
  exact Lexed.ofText_reads hflatten.symm hreads

/-- A text that is read to its end is written again from its tokens. -/
theorem respace_of_ofText {source : String} {ts : List Token} (h : Lexed.ofText source = ⟨ts, none⟩)
    (t : σ) : ((respace source).run t).1 = .ok (textOfTokens ((spaceTokens ts).run t).1) := by
  unfold respace
  rw [h]
  rfl

/-- A text of lines is read to its end, and written again it has the same tokens but for comments. -/
theorem respace_lines {ls : List Line} (h : Line.Stand 0 ls) (t : σ) :
    ∃ spaced, ((respace (Line.textOf ls)).run t).1 = .ok spaced ∧
      (Lexed.ofText (Line.textOf ls)).error = none ∧ (Lexed.ofText spaced).error = none ∧
        (Lexed.ofText spaced).tokens.filter isMeant = (Lexed.ofText (Line.textOf ls)).tokens := by
  obtain ⟨rows, end', hne, hlays, htext, -⟩ := h.exists_lays
  have hplain : Lexed.ofText (Line.textOf ls) = ⟨Line.tokens 0 rows, none⟩ := htext ▸ hlays.ofText hne
  obtain ⟨out, lines', hreads', hflatten', hmeant⟩ := reads_respaced hlays hne (Nat.zero_le 1)
    (.inr ⟨rfl, rfl⟩) (spaceTokens_yields (Line.tokens 0 rows) t)
  refine ⟨_, respace_of_ofText hplain t, ?_⟩
  have hspaced : Lexed.ofText (textOfTokens ((spaceTokens (Line.tokens 0 rows)).run t).1) =
      ⟨out, none⟩ := Lexed.ofText_reads hflatten'.symm hreads'
  rw [hspaced, hplain]
  exact ⟨rfl, rfl, hmeant⟩

/-- A program in random spacing is made from every state, and both forms of the program that a state leads
to are read to their ends as the same tokens, but for the comments. -/
theorem generateSpaced_tokens (depth : Nat) (t : σ) :
    ∃ spaced, ((generateSpaced depth).run t).1 = .ok spaced ∧
      (Lexed.ofText ((generatePlain depth).run t).1).error = none ∧
        (Lexed.ofText spaced).error = none ∧
          (Lexed.ofText spaced).tokens.filter (·.kind != .comment) =
            (Lexed.ofText ((generatePlain depth).run t).1).tokens := by
  obtain ⟨⟨hlength, -⟩, hdrawn⟩ := Build.module_yields depth t
  have hplain : (generatePlain depth).run t =
      (((Build.module depth).run t).1.source, ((Build.module depth).run t).2) := rfl
  have hspaced : (generateSpaced depth).run t =
      (respace ((generatePlain depth).run t).1).run ((generatePlain depth).run t).2 :=
    run_bind (generatePlain depth) respace t
  rw [hspaced, hplain]
  exact respace_lines (Module.stand_lines hlength hdrawn) _

end FormatFuzz.Program
