import FormatFuzz.Fuzz.Filter
import FormatFuzz.Fuzz.Generator
import FormatFuzz.Proofs.Pattern.Search
import FormatFuzz.Proofs.Program.Outer

namespace FormatFuzz

open FormatFuzz.Random FormatFuzz.Program

namespace BoringFilter

def emptyChars : CharClass := ⟨[.category .blank false, .range 59 59], false, false⟩

def emptyPattern : Pattern :=
  .sequence
    (.sequence (.leaf (.anchor .textStart))
      (.repetition (.leaf (.char emptyChars)) 0 none))
    (.leaf (.anchor .lastLineEnd))

def declaringPattern : Pattern :=
  .sequence
    (.sequence (.leaf (.anchor .wordEdge))
      (.either (Pattern.ofWord 'g' "lobal".toList) (Pattern.ofWord 'n' "onlocal".toList)))
    (.leaf (.anchor .wordEdge))

theorem read_defaultBoringPattern :
    (Pattern.read defaultBoringPattern).toOption = some (.either emptyPattern declaringPattern) := by
  decide +kernel

def defaultPattern : Pattern := .either emptyPattern declaringPattern

theorem ofText_defaultBoringPattern : ofText defaultBoringPattern = .ok ⟨defaultPattern.occursIn⟩ := by
  have hread := read_defaultBoringPattern
  rw [ofText]
  generalize Pattern.read defaultBoringPattern = result at hread ⊢
  cases result with
  | error e => cases hread
  | ok p =>
    rw [Option.some.inj hread]
    rfl

theorem unbounded_defaultPattern : defaultPattern.Unbounded := by
  have hword : ∀ (c : Char) (cs : List Char), (Pattern.ofWord c cs).Unbounded := by
    intro c cs
    induction cs using List.reverseRecOn with
    | nil => trivial
    | append_singleton cs c' ih =>
      rw [Pattern.ofWord, List.foldl_append]
      exact ⟨ih, trivial⟩
  exact ⟨⟨⟨trivial, trivial, rfl, rfl⟩, trivial⟩, ⟨trivial, hword _ _, hword _ _⟩, trivial⟩

variable {before a after : List Char} {source : String}

theorem contains_emptyChars (c : Char) :
    emptyChars.contains c = true ↔ Text.isBlank c = true ∨ c = ';' := by
  have hcode : 59 ≤ c.toNat ∧ c.toNat ≤ 59 ↔ c = ';' := by
    rw [← Char.toNat_inj]
    exact ⟨fun h => Nat.le_antisymm h.2 h.1, fun h => h ▸ ⟨Nat.le_refl _, Nat.le_refl _⟩⟩
  simp [emptyChars, CharClass.contains, Category.contains, hcode]

theorem of_describes_emptyPattern (h : emptyPattern.Describes before a after) :
    ∀ c ∈ before ++ (a ++ after), Text.isBlank c = true ∨ c = ';' := by
  cases h with
  | sequence hfirst hend =>
    obtain ⟨rfl, hlast⟩ := Pattern.describes_anchor hend
    cases hfirst with
    | @sequence _ _ _ _ row _ hstart hrow =>
      obtain ⟨rfl, hopens⟩ := Pattern.describes_anchor hstart
      obtain rfl : before = [] := by simpa [Anchor.holds] using hopens
      have hafter : after = [] ∨ after = ['\n'] := by simpa [Anchor.holds] using hlast
      have hchars : ∀ c ∈ row, Text.isBlank c = true ∨ c = ';' := fun c hc =>
        (contains_emptyChars c).1 (Pattern.describes_repetition hrow c hc)
      rw [List.nil_append, List.nil_append, List.append_nil]
      refine List.forall_mem_append.2 ⟨hchars, ?_⟩
      rcases hafter with rfl | rfl
      · exact List.forall_mem_nil _
      · have hfeed : Text.isBlank '\n' = true := by decide
        exact List.forall_mem_singleton.2 (.inl hfeed)

theorem of_describes_declaringPattern (h : declaringPattern.Describes before a after) :
    a = "global".toList ∨ a = "nonlocal".toList := by
  cases h with
  | sequence hfirst hend =>
    obtain ⟨rfl, -⟩ := Pattern.describes_anchor hend
    cases hfirst with
    | sequence hstart hword =>
      obtain ⟨rfl, -⟩ := Pattern.describes_anchor hstart
      rw [List.nil_append, List.append_nil]
      cases hword with
      | left h => exact .inl (Pattern.describes_ofWord h)
      | right h => exact .inr (Pattern.describes_ofWord h)

/-- A program that the default filter takes for boring is empty but for blanks and semicolons, or one of
the words occurs in it. -/
theorem of_isBoring
    (h : defaultPattern.occursIn source = true) :
    (∀ c ∈ source.toList, Text.isBlank c = true ∨ c = ';') ∨
      "global".toList <:+: source.toList ∨ "nonlocal".toList <:+: source.toList := by
  obtain ⟨before, a, after, htext, hdescribes⟩ :=
    Pattern.exists_describes_of_occursIn unbounded_defaultPattern h
  have hpart : a <:+: source.toList := ⟨before, after, by rw [htext, List.append_assoc]⟩
  cases hdescribes with
  | left hempty => exact .inl (htext ▸ of_describes_emptyPattern hempty)
  | right hdeclaring =>
    rcases of_describes_declaringPattern hdeclaring with rfl | rfl
    · exact .inr (.inl hpart)
    · exact .inr (.inr hpart)

theorem isBoring_eq_false (h : Telling source) : defaultPattern.occursIn source = false := by
  obtain ⟨c, hc, hblank, hne⟩ := h.visible
  by_contra hboring
  rcases of_isBoring (Bool.eq_true_of_not_eq_false hboring) with hempty | hglobal | hnonlocal
  · rcases hempty c hc with hc | hc
    · rw [hblank] at hc
      cases hc
    · exact hne hc
  · exact h.mild.notInfix.1 hglobal
  · exact h.mild.notInfix.2 hnonlocal

end BoringFilter

namespace Generator

variable {γ σ : Type}

theorem generate_drawing {about : String} {draw : Nat → Draw σ (Except GenerateError String)}
    {P : String → Prop} (h : ∀ depth random, ∃ text, ((draw depth).run random).1 = .ok text ∧ P text)
    {maxDepth : Int} (hdepth : 1 ≤ maxDepth) (own : γ) (random : σ) :
    ∃ text, ((drawing about draw).generate maxDepth own random).1 = .ok text ∧ P text := by
  have hpositive : ¬ maxDepth ≤ 0 := by omega
  simp only [drawing, if_neg hpositive]
  exact h maxDepth.toNat random

variable [Source σ]

/-- Every built-in generator makes a telling program of every positive depth. -/
theorem builtin_telling {name : String} {g : Generator γ σ} (h : (name, g) ∈ builtin.entries)
    {maxDepth : Int} (hdepth : 1 ≤ maxDepth) (own : γ) (random : σ) :
    ∃ text, (g.generate maxDepth own random).1 = .ok text ∧ Telling text := by
  simp only [builtin, List.mem_cons, Prod.mk.injEq, List.not_mem_nil, or_false] at h
  rcases h with ⟨rfl, rfl⟩ | ⟨rfl, rfl⟩
  · exact generate_drawing (fun depth random => ⟨_, rfl, (telling_generated depth random).1⟩) hdepth own
      random
  · refine generate_drawing (fun depth random => ?_) hdepth own random
    obtain ⟨spaced, hspaced, htelling⟩ := (telling_generated depth random).2
    refine ⟨spaced, ?_, htelling⟩
    rw [Draw.run_bind, hspaced]
    rfl

/-- No program of a built-in generator is boring to the default filter: it has a character that is neither
blank nor a semicolon, and neither word that declares a name of an outer scope stands anywhere in it. -/
theorem builtin_neverBoring {name : String} {g : Generator γ σ} (h : (name, g) ∈ builtin.entries)
    {maxDepth : Int} (hdepth : 1 ≤ maxDepth) (own : γ) (random : σ) :
    ∃ filter text, BoringFilter.ofText defaultBoringPattern = .ok filter ∧
      (g.generate maxDepth own random).1 = .ok text ∧ filter.isBoring text = false ∧
      (∃ c ∈ text.toList, Text.isBlank c = false ∧ c ≠ ';') ∧
      ¬ "global".toList <:+: text.toList ∧ ¬ "nonlocal".toList <:+: text.toList := by
  obtain ⟨text, hmade, htelling⟩ := builtin_telling h hdepth own random
  exact ⟨_, text, BoringFilter.ofText_defaultBoringPattern, hmade,
    BoringFilter.isBoring_eq_false htelling, htelling.visible, htelling.mild.notInfix⟩

/-- Where all words are zero, the program that is spaced at random is an assignment with a comment. -/
theorem builtin_neverBoring_zeroWords :
    ("tokens", (spaced : Generator Unit Words)) ∈ builtin.entries ∧ (1 : Int) ≤ 1 ∧
      ∃ filter, BoringFilter.ofText defaultBoringPattern = .ok filter ∧
        ((spaced : Generator Unit Words).generate 1 () ⟨[]⟩).1.toOption = some "a ,a =a # noqa" ∧
        filter.isBoring "a ,a =a # noqa" = false := by
  have hmem : ("tokens", (spaced : Generator Unit Words)) ∈ builtin.entries :=
    List.mem_cons_of_mem _ List.mem_cons_self
  have htext : ((spaced : Generator Unit Words).generate 1 () ⟨[]⟩).1.toOption =
      some "a ,a =a # noqa" := by
    decide +kernel
  obtain ⟨filter, text, hfilter, hmade, hboring, -⟩ :=
    builtin_neverBoring hmem (by decide : (1 : Int) ≤ 1) () ⟨[]⟩
  refine ⟨hmem, by decide, filter, hfilter, htext, ?_⟩
  rw [hmade] at htext
  rw [← Option.some.inj htext]
  exact hboring

end Generator

end FormatFuzz
