import FormatFuzz.Fuzz.Loop
import Mathlib.Tactic.Common

namespace FormatFuzz

open FormatFuzz.Random

variable {γ φ σ : Type}

namespace Loop

section

variable [Source σ] {l : Loop γ φ σ} {s t : LoopState γ φ σ}

omit [Source σ] in
theorem tries_nextProgram {program : Except StepError GeneratedProgram}
    (h : l.nextProgram s = (program, t)) : t.tries = s.tries := by
  unfold nextProgram at h
  split at h
  · cases h
    rfl
  · simp only at h
    split at h
    · cases h
      rfl
    · cases h
      rfl

theorem tries_nextOptions {options : Except StepError Options}
    (h : l.nextOptions s = (options, t)) : t.tries = s.tries := by
  unfold nextOptions at h
  split at h
  · cases h
    rfl
  · cases h
    rfl

end

def judged (l : Loop γ φ σ) (p : GeneratedProgram) (o : Options) (s : LoopState γ φ σ)
    (made : Except Fault (Option Passes) × φ) : Except StepError Step × LoopState γ φ σ :=
  match made with
  | (.error fault, formatter) => (.error (.interrupted fault), { s with formatter })
  | (.ok passes, formatter) => (l.judge s.tries p o passes, { s with formatter })

variable [Source σ]

/-- The program of the next try is not passed over and gets options. -/
structure Chosen (l : Loop γ φ σ) (s : LoopState γ φ σ) (p : GeneratedProgram) (o : Options)
    (u : LoopState γ φ σ) : Prop where
  program : ∃ t, l.nextProgram { s with tries := s.tries + 1 } = (.ok p, t) ∧
    l.nextOptions t = (.ok o, u)
  kept : l.filter.discards l.replay.isSome p.source = false

/-- What a try comes to before it is logged, and the state that it leaves. -/
inductive Attempts (l : Loop γ φ σ) (s : LoopState γ φ σ) :
    Except StepError Step → LoopState γ φ σ → Prop
  | noProgram {e : StepError} {t : LoopState γ φ σ} :
      l.nextProgram { s with tries := s.tries + 1 } = (.error e, t) → Attempts l s (.error e) t
  | passedOver {p : GeneratedProgram} {t : LoopState γ φ σ} :
      l.nextProgram { s with tries := s.tries + 1 } = (.ok p, t) →
      l.filter.discards l.replay.isSome p.source = true → Attempts l s (.ok (.again .boring)) t
  | noOptions {p : GeneratedProgram} {e : StepError} {t u : LoopState γ φ σ} :
      l.nextProgram { s with tries := s.tries + 1 } = (.ok p, t) →
      l.filter.discards l.replay.isSome p.source = false →
      l.nextOptions t = (.error e, u) → Attempts l s (.error e) u
  | interrupted {p : GeneratedProgram} {o : Options} {u : LoopState γ φ σ} {fault : Fault} {f : φ} :
      l.Chosen s p o u →
      l.checker.check l.discardsRejected p.source o u.formatter = (.error fault, f) →
      Attempts l s (.error (.interrupted fault)) { u with formatter := f }
  | judged {p : GeneratedProgram} {o : Options} {u : LoopState γ φ σ} {passes : Option Passes}
      {f : φ} {made : Except StepError Step} : l.Chosen s p o u →
      l.checker.check l.discardsRejected p.source o u.formatter = (.ok passes, f) →
      l.judge u.tries p o passes = made → Attempts l s made { u with formatter := f }

variable {l : Loop γ φ σ} {s t u : LoopState γ φ σ} {p : GeneratedProgram} {o : Options}
  {made : Except StepError Step}

theorem Chosen.tries_eq (h : l.Chosen s p o u) : u.tries = s.tries + 1 := by
  obtain ⟨t, hprogram, hoptions⟩ := h.program
  rw [tries_nextOptions hoptions, tries_nextProgram hprogram]

/-- A try on a program judges its check under the options that are given or drawn. -/
theorem Chosen.attempt_eq (h : l.Chosen s p o u) : l.attempt s =
    l.judged p o u (l.checker.check l.discardsRejected p.source o u.formatter) := by
  obtain ⟨t, hprogram, hoptions⟩ := h.program
  unfold attempt
  simp only [hprogram, h.kept, Bool.false_eq_true, if_false]
  unfold tryProgram
  simp only [hoptions]
  cases l.checker.check l.discardsRejected p.source o u.formatter with
  | mk passes f =>
    cases passes with
    | error fault => rfl
    | ok passes => rfl

/-- A try comes about in one of the five ways. -/
theorem attempt_eq_iff : l.attempt s = (made, t) ↔ l.Attempts s made t := by
  constructor
  · intro h
    cases hprogram : l.nextProgram { s with tries := s.tries + 1 } with
    | mk program u =>
      cases program with
      | error e =>
        simp only [attempt, hprogram] at h
        cases h
        exact .noProgram hprogram
      | ok p =>
        cases hkept : l.filter.discards l.replay.isSome p.source with
        | true =>
          simp only [attempt, hprogram, hkept, if_true] at h
          cases h
          exact .passedOver hprogram hkept
        | false =>
          cases hoptions : l.nextOptions u with
          | mk options v =>
            cases options with
            | error e =>
              simp only [attempt, hprogram, hkept, tryProgram, hoptions] at h
              cases h
              exact .noOptions hprogram hkept hoptions
            | ok o =>
              have hchosen : l.Chosen s p o v := ⟨⟨u, hprogram, hoptions⟩, hkept⟩
              rw [hchosen.attempt_eq] at h
              unfold judged at h
              split at h
              · next hcheck =>
                cases h
                exact .interrupted hchosen hcheck
              · next hcheck =>
                cases h
                exact .judged hchosen hcheck rfl
  · intro h
    cases h with
    | noProgram hprogram => simp only [attempt, hprogram]
    | passedOver hprogram hboring => simp only [attempt, hprogram, hboring, if_true]
    | noOptions hprogram hkept hoptions =>
      simp only [attempt, hprogram, hkept, tryProgram, hoptions]
      rfl
    | interrupted hchosen hcheck =>
      rw [hchosen.attempt_eq, hcheck]
      rfl
    | judged hchosen hcheck hjudge =>
      rw [hchosen.attempt_eq, hcheck, ← hjudge]
      rfl

theorem Attempts.tries_eq (h : l.Attempts s made t) : t.tries = s.tries + 1 := by
  cases h with
  | noProgram hprogram => rw [tries_nextProgram hprogram]
  | passedOver hprogram => rw [tries_nextProgram hprogram]
  | noOptions hprogram _ hoptions => rw [tries_nextOptions hoptions, tries_nextProgram hprogram]
  | interrupted hchosen => exact hchosen.tries_eq
  | judged hchosen => exact hchosen.tries_eq

variable {step : Step} {e : StepError}

theorem step_eq_error_iff : l.step s = (.error e, t) ↔ l.Attempts s (.error e) t := by
  rw [← attempt_eq_iff]
  unfold Loop.step
  obtain ⟨e' | step, u⟩ := l.attempt s
  · rfl
  · simp

theorem step_eq_ok_iff_attempts : l.step s = (.ok step, t) ↔ ∃ u, l.Attempts s (.ok step) u ∧
    t = { u with log := (step.logLine? u.tries).toList ++ u.log } := by
  simp only [← attempt_eq_iff]
  unfold Loop.step
  obtain ⟨e | step', u⟩ := l.attempt s
  · simp
  · constructor
    · intro h
      cases h
      exact ⟨u, rfl, rfl⟩
    · rintro ⟨v, h, rfl⟩
      cases h
      rfl

theorem tries_eq_of_step (h : l.step s = (made, t)) : t.tries = s.tries + 1 := by
  cases made with
  | error e => exact (step_eq_error_iff.1 h).tries_eq
  | ok step =>
    obtain ⟨u, hattempt, rfl⟩ := step_eq_ok_iff_attempts.1 h
    exact hattempt.tries_eq

end Loop

end FormatFuzz
