import FormatFuzz.Proofs.Fuzz.Try
import FormatFuzz.Proofs.Space

/-!
# The trace of the loop

Without an entry to replay, a try ends in one of five ways: its program is boring, or rejected, or its
first pass fails, or its two outputs are the same and are not to be shown, or there is something to
report after the second pass. The rules say when each of them applies, with what the formatter is called
and which state is left. The tries of a run are told by the rules one after another, and what a
formatter writes down that keeps its calls is the calls of the tries in a row.
-/

namespace FormatFuzz

open FormatFuzz.Random

variable {γ φ σ : Type}

/-! ## Answers of a formatter -/

namespace Checker

/-- A formatter answers a program under options with an outcome and goes on to a state: it makes an
output, or raises a fault that is a failure and can say what it is. -/
inductive Answers (c : Checker φ) (source : String) (options : Options) (s : φ) :
    Outcome → φ → Prop
  | output {output : String} {t : φ} : c.formatter.format source options s = (.ok output, t) →
      Answers c source options s (.success output) t
  | failure {fault : Fault} {failure : Failure} {t : φ} :
      c.formatter.format source options s = (.error fault, t) → fault.errorClass.isFailure = true →
      Failure.ofFault c.formatter.rejections (some c.rejected) fault = .ok failure →
      Answers c source options s (.failed failure) t

variable {c : Checker φ} {source : String} {options : Options} {s t : φ}

theorem pass_eq_ok_iff {outcome : Outcome} :
    c.pass source options s = (.ok outcome, t) ↔ c.Answers source options s outcome t := by
  constructor
  · intro h
    unfold pass at h
    cases hformat : c.formatter.format source options s with
    | mk answer u =>
      rw [hformat] at h
      cases answer with
      | ok output =>
        cases h
        exact .output hformat
      | error fault =>
        simp only at h
        split at h
        · next hfailure =>
          cases hsaid : Failure.ofFault c.formatter.rejections (some c.rejected) fault with
          | error other =>
            rw [hsaid] at h
            cases h
          | ok failure =>
            rw [hsaid] at h
            cases h
            exact .failure hformat hfailure hsaid
        · cases h
  · intro h
    cases h with
    | output hformat => simp only [pass, hformat]
    | failure hformat hfailure hsaid =>
      simp only [pass, hformat, hfailure, if_true, hsaid]
      rfl

/-- A check comes to one failed pass, which is dropped if it rejects the program and that is asked for, or
to two passes, the second one on the output of the first. -/
theorem check_eq_ok_iff {discard : Bool} {passes : Option Passes} :
    c.check discard source options s = (.ok passes, t) ↔
      (∃ failure, c.Answers source options s (.failed failure) t ∧
        passes = if discard && failure.kind == .inputSyntax then none
          else some ⟨.failed failure, none⟩) ∨
      ∃ output second u, c.Answers source options s (.success output) u ∧
        c.Answers output options u second t ∧ passes = some ⟨.success output, some second⟩ := by
  constructor
  · intro h
    unfold check at h
    cases hfirst : c.pass source options s with
    | mk first u =>
      rw [hfirst] at h
      cases first with
      | error fault => cases h
      | ok first =>
        cases first with
        | failed failure =>
          have hanswers := pass_eq_ok_iff.1 hfirst
          simp only at h
          split at h
          · next hdropped =>
            cases h
            exact .inl ⟨failure, hanswers, by rw [if_pos hdropped]⟩
          · next hkept =>
            cases h
            exact .inl ⟨failure, hanswers, by rw [if_neg hkept]⟩
        | success output =>
          simp only at h
          cases hsecond : c.pass output options u with
          | mk second v =>
            rw [hsecond] at h
            cases second with
            | error fault => cases h
            | ok second =>
              cases h
              exact .inr ⟨output, second, u, pass_eq_ok_iff.1 hfirst, pass_eq_ok_iff.1 hsecond, rfl⟩
  · rintro (⟨failure, hfirst, rfl⟩ | ⟨output, second, u, hfirst, hsecond, rfl⟩)
    · unfold check
      rw [pass_eq_ok_iff.2 hfirst]
      simp only
      split
      · rfl
      · rfl
    · unfold check
      rw [pass_eq_ok_iff.2 hfirst]
      simp only [pass_eq_ok_iff.2 hsecond]

end Checker

structure Call where
  source : String
  options : Options
deriving DecidableEq, Repr

namespace Loop

/-! ## The rules of a try -/

variable [Source σ]

/-- A program that is not passed over gets options, and the randomness goes on. -/
def Draws (l : Loop γ φ σ) (p : GeneratedProgram) (s : LoopState γ φ σ) (options : Options)
    (random : σ) : Prop :=
  l.filter.isBoring p.source = false ∧ l.sampler.sample.run s.random = (.ok options, random)

/-- How a try ends on a program: the calls of the formatter, the step and the state that is left. -/
inductive Ends (l : Loop γ φ σ) (p : GeneratedProgram) (s : LoopState γ φ σ) :
    List Call → Step → LoopState γ φ σ → Prop
  /-- Nothing is drawn for a boring program, and the formatter is not called. -/
  | boring : l.filter.isBoring p.source = true → Ends l p s [] (.again .boring) s
  | rejected {o : Options} {random : σ} {failure : Failure} {f : φ} : l.Draws p s o random →
      l.checker.Answers p.source o s.formatter (.failed failure) f →
      failure.kind = .inputSyntax → l.settings.showParseErrors = false →
      Ends l p s [⟨p.source, o⟩] (.again .syntaxRejected) { s with random, formatter := f }
  | failed {o : Options} {random : σ} {failure : Failure} {f : φ} : l.Draws p s o random →
      l.checker.Answers p.source o s.formatter (.failed failure) f →
      ¬ (failure.kind = .inputSyntax ∧ l.settings.showParseErrors = false) →
      Ends l p s [⟨p.source, o⟩] (.report ⟨s.tries, p, o, .failed failure, none, .error, none⟩)
        { s with random, formatter := f }
  | same {o : Options} {random : σ} {output : String} {f g : φ} : l.Draws p s o random →
      l.checker.Answers p.source o s.formatter (.success output) f →
      l.checker.Answers output o f (.success output) g → l.settings.showSuccesses = false →
      Ends l p s [⟨p.source, o⟩, ⟨output, o⟩] (.again .success) { s with random, formatter := g }
  | reported {o : Options} {random : σ} {output : String} {second : Outcome} {verdict : Verdict}
      {f g : φ} : l.Draws p s o random →
      l.checker.Answers p.source o s.formatter (.success output) f →
      l.checker.Answers output o f second g →
      ¬ (second = .success output ∧ l.settings.showSuccesses = false) →
      Verdict.ofPasses (.success output) (some second) = .ok verdict →
      Ends l p s [⟨p.source, o⟩, ⟨output, o⟩]
        (.report ⟨s.tries, p, o, .success output, some second, verdict,
          diffFor verdict (.success output) (some second)⟩) { s with random, formatter := g }

/-- One try: a program is made, the number of tries grows by one, the try ends on the program, and is
logged. -/
def Tries (l : Loop γ φ σ) (s : LoopState γ φ σ) (calls : List Call) (step : Step)
    (s' : LoopState γ φ σ) : Prop :=
  ∃ source generator random t,
    l.generator.generate l.settings.maxDepth s.generator s.random = (.ok source, generator, random) ∧
      l.Ends ⟨source, l.settings.maxDepth, l.settings.generator⟩
        { s with generator, random, tries := s.tries + 1 } calls step t ∧
      s' = { t with log := (step.logLine? t.tries).toList ++ t.log }

inductive Trace (l : Loop γ φ σ) :
    LoopState γ φ σ → List (List Call × Step) → LoopState γ φ σ → Prop
  | nil {s : LoopState γ φ σ} : Trace l s [] s
  | cons {s t u : LoopState γ φ σ} {calls : List Call} {step : Step}
      {trace : List (List Call × Step)} :
      l.Tries s calls step t → Trace l t trace u → Trace l s ((calls, step) :: trace) u

/-- Steps one after another, none of which breaks off. -/
inductive Runs (l : Loop γ φ σ) : LoopState γ φ σ → List Step → LoopState γ φ σ → Prop
  | nil {s : LoopState γ φ σ} : Runs l s [] s
  | cons {s t u : LoopState γ φ σ} {step : Step} {steps : List Step} :
      l.step s = (.ok step, t) → Runs l t steps u → Runs l s (step :: steps) u

variable {l : Loop γ φ σ} {s s' t : LoopState γ φ σ} {p : GeneratedProgram} {calls : List Call}
  {step : Step}

/-! ## Steps follow the rules -/

omit [Source σ] in
/-- Two passes have a verdict, and it is a success exactly when the outputs are the same. -/
theorem exists_verdict (output : String) (second : Outcome) :
    ∃ verdict, Verdict.ofPasses (.success output) (some second) = .ok verdict ∧
      (verdict = .success ↔ second = .success output) := by
  cases second with
  | failed failure => exact ⟨.error, rfl, by simp⟩
  | success output' =>
    refine ⟨if output = output' then .success else .diff, rfl, ?_⟩
    split
    · next heq => simp [heq]
    · next hne => simpa using fun h => hne h.symm

omit [Source σ] in
theorem reports_eq_false_iff (hnormal : l.replay = none) {verdict : Verdict} :
    l.reports verdict = false ↔ verdict = .success ∧ l.settings.showSuccesses = false := by
  rw [reports, hnormal]
  cases verdict with
  | _ => simp

omit [Source σ] in
theorem judge_passed_iff (hnormal : l.replay = none) {tries : Nat} {o : Options} {output : String}
    {second : Outcome} {verdict : Verdict}
    (hverdict : Verdict.ofPasses (.success output) (some second) = .ok verdict) :
    l.judge tries p o (some ⟨.success output, some second⟩) = .ok step ↔
      step = if second = .success output ∧ l.settings.showSuccesses = false then .again .success
        else .report ⟨tries, p, o, .success output, some second, verdict,
          diffFor verdict (.success output) (some second)⟩ := by
  obtain ⟨verdict', hverdict', hsuccess⟩ := exists_verdict output second
  obtain rfl : verdict = verdict' := Except.ok.inj (hverdict.symm.trans hverdict')
  have hreports : l.reports verdict = false ↔ _ := reports_eq_false_iff hnormal
  rw [hsuccess] at hreports
  simp only [judge, Passes.verdict, hverdict]
  by_cases hsame : second = .success output ∧ l.settings.showSuccesses = false
  · rw [if_pos hsame, hreports.2 hsame, if_neg (by decide), Except.ok.injEq, eq_comm]
  · rw [if_neg hsame, if_pos (by simpa using mt hreports.1 hsame), Except.ok.injEq, eq_comm]

theorem judged_iff_ends (hnormal : l.replay = none) (hboring : l.filter.isBoring p.source = false) :
    (∃ o random passes f, l.sampler.sample.run s.random = (.ok o, random) ∧
        l.checker.check (!l.settings.showParseErrors) p.source o s.formatter = (.ok passes, f) ∧
        l.judge s.tries p o passes = .ok step ∧ t = { s with random, formatter := f }) ↔
      ∃ calls, l.Ends p s calls step t := by
  constructor
  · rintro ⟨o, random, passes, f, hsample, hcheck, hjudge, rfl⟩
    rcases Checker.check_eq_ok_iff.1 hcheck with
      ⟨failure, hfirst, rfl⟩ | ⟨output, second, u, hfirst, hsecond, rfl⟩
    · -- the first pass failed: a rejection is dropped, all else is reported without a second pass
      by_cases hdropped : failure.kind = .inputSyntax ∧ l.settings.showParseErrors = false
      · simp only [hdropped.1, hdropped.2] at hjudge
        cases hjudge
        exact ⟨_, .rejected ⟨hboring, hsample⟩ hfirst hdropped.1 hdropped.2⟩
      · have hkept : ¬ ((!l.settings.showParseErrors && failure.kind == .inputSyntax) = true) := by
          simpa [and_comm] using hdropped
        rw [if_neg hkept] at hjudge
        cases hjudge
        exact ⟨_, .failed ⟨hboring, hsample⟩ hfirst hdropped⟩
    · -- both passes were made, and only the outputs decide
      obtain ⟨verdict, hverdict, -⟩ := exists_verdict output second
      rw [judge_passed_iff hnormal hverdict] at hjudge
      by_cases hsame : second = .success output ∧ l.settings.showSuccesses = false
      · rw [if_pos hsame] at hjudge
        obtain ⟨rfl, hshow⟩ := hsame
        rw [hjudge]
        exact ⟨_, .same ⟨hboring, hsample⟩ hfirst hsecond hshow⟩
      · rw [if_neg hsame] at hjudge
        rw [hjudge]
        exact ⟨_, .reported ⟨hboring, hsample⟩ hfirst hsecond hsame hverdict⟩
  · rintro ⟨calls, h⟩
    cases h with
    | boring h => simp [hboring] at h
    | @rejected o random failure f hdraws hfirst hkind hshow =>
      refine ⟨o, random, none, f, hdraws.2,
        Checker.check_eq_ok_iff.2 (.inl ⟨failure, hfirst, ?_⟩), rfl, rfl⟩
      rw [hkind, hshow]
      rfl
    | @failed o random failure f hdraws hfirst hkept =>
      refine ⟨o, random, some ⟨.failed failure, none⟩, f, hdraws.2,
        Checker.check_eq_ok_iff.2 (.inl ⟨failure, hfirst, ?_⟩), rfl, rfl⟩
      rw [if_neg]
      simpa [and_comm] using hkept
    | @same o random output f g hdraws hfirst hsecond hshow =>
      obtain ⟨verdict, hverdict, -⟩ := exists_verdict output (.success output)
      refine ⟨o, random, _, g, hdraws.2,
        Checker.check_eq_ok_iff.2 (.inr ⟨output, _, f, hfirst, hsecond, rfl⟩), ?_, rfl⟩
      rw [judge_passed_iff hnormal hverdict, if_pos ⟨rfl, hshow⟩]
    | @reported o random output second verdict f g hdraws hfirst hsecond hdifferent hverdict =>
      refine ⟨o, random, _, g, hdraws.2,
        Checker.check_eq_ok_iff.2 (.inr ⟨output, second, f, hfirst, hsecond, rfl⟩), ?_, rfl⟩
      rw [judge_passed_iff hnormal hverdict, if_neg hdifferent]

theorem ends_iff_of_isBoring (hboring : l.filter.isBoring p.source = true) :
    l.Ends p s calls step t ↔ calls = [] ∧ step = .again .boring ∧ t = s := by
  constructor
  · intro h
    cases h with
    | boring => exact ⟨rfl, rfl, rfl⟩
    | rejected hdraws => simp [Draws, hboring] at hdraws
    | failed hdraws => simp [Draws, hboring] at hdraws
    | same hdraws => simp [Draws, hboring] at hdraws
    | reported hdraws => simp [Draws, hboring] at hdraws
  · rintro ⟨rfl, rfl, rfl⟩
    exact .boring hboring

omit [Source σ] in
theorem nextProgram_eq_ok_iff (hnormal : l.replay = none) :
    l.nextProgram s = (.ok p, t) ↔ ∃ source generator random,
      l.generator.generate l.settings.maxDepth s.generator s.random = (.ok source, generator, random) ∧
        p = ⟨source, l.settings.maxDepth, l.settings.generator⟩ ∧
        t = { s with generator, random } := by
  unfold nextProgram
  rw [hnormal]
  constructor
  · intro h
    cases hmade : l.generator.generate l.settings.maxDepth s.generator s.random with
    | mk made state =>
      simp only [hmade] at h
      cases made with
      | error e => cases h
      | ok source =>
        cases h
        exact ⟨source, state.1, state.2, rfl, rfl, rfl⟩
  · rintro ⟨source, generator, random, hmade, rfl, rfl⟩
    simp only [hmade]

theorem nextOptions_eq_ok_iff (hnormal : l.replay = none) {o : Options} :
    l.nextOptions s = (.ok o, t) ↔
      ∃ random, l.sampler.sample.run s.random = (.ok o, random) ∧ t = { s with random } := by
  unfold nextOptions
  rw [hnormal]
  constructor
  · intro h
    cases hsample : l.sampler.sample.run s.random with
    | mk drawn random =>
      simp only [hsample] at h
      cases drawn with
      | error e => cases h
      | ok o' =>
        cases h
        exact ⟨random, rfl, rfl⟩
  · rintro ⟨random, hsample, rfl⟩
    simp only [hsample]
    rfl

theorem attempts_iff_ends (hnormal : l.replay = none) :
    l.Attempts s (.ok step) t ↔ ∃ p u calls,
      l.nextProgram { s with tries := s.tries + 1 } = (.ok p, u) ∧ l.Ends p u calls step t := by
  have hfilter : ∀ source, l.filter.discards l.replay.isSome source = l.filter.isBoring source := by
    intro source
    rw [BoringFilter.discards, hnormal]
    rfl
  have hdiscards : l.discardsRejected = !l.settings.showParseErrors := by
    rw [discardsRejected, hnormal]
    rfl
  constructor
  · intro h
    cases h with
    | passedOver hprogram hboring =>
      rw [hfilter] at hboring
      exact ⟨_, _, _, hprogram, .boring hboring⟩
    | judged hchosen hcheck hjudge =>
      obtain ⟨⟨u, hprogram, hoptions⟩, hkept⟩ := hchosen
      obtain ⟨random, hsample, rfl⟩ := (nextOptions_eq_ok_iff hnormal).1 hoptions
      rw [hfilter] at hkept
      rw [hdiscards] at hcheck
      obtain ⟨calls, hends⟩ := (judged_iff_ends hnormal hkept).1
        ⟨_, _, _, _, hsample, hcheck, hjudge, rfl⟩
      exact ⟨_, u, calls, hprogram, hends⟩
  · rintro ⟨p, u, calls, hprogram, hends⟩
    cases hboring : l.filter.isBoring p.source with
    | true =>
      obtain ⟨rfl, rfl, rfl⟩ := (ends_iff_of_isBoring hboring).1 hends
      exact .passedOver hprogram ((hfilter _).trans hboring)
    | false =>
      obtain ⟨o, random, passes, f, hsample, hcheck, hjudge, rfl⟩ :=
        (judged_iff_ends hnormal hboring).2 ⟨calls, hends⟩
      rw [← hdiscards] at hcheck
      have hoptions := (nextOptions_eq_ok_iff hnormal).2 ⟨random, hsample, rfl⟩
      exact .judged ⟨⟨u, hprogram, hoptions⟩, (hfilter _).trans hboring⟩ hcheck hjudge

/-- The steps that do not break off are the tries by the rules. -/
theorem step_eq_ok_iff (hnormal : l.replay = none) :
    l.step s = (.ok step, s') ↔ ∃ calls, l.Tries s calls step s' := by
  rw [step_eq_ok_iff_attempts]
  constructor
  · rintro ⟨t, hattempts, rfl⟩
    obtain ⟨p, u, calls, hprogram, hends⟩ := (attempts_iff_ends hnormal).1 hattempts
    obtain ⟨source, generator, random, hgenerate, rfl, rfl⟩ :=
      (nextProgram_eq_ok_iff hnormal).1 hprogram
    exact ⟨calls, source, generator, random, t, hgenerate, hends, rfl⟩
  · rintro ⟨calls, source, generator, random, t, hgenerate, hends, rfl⟩
    have hprogram := (nextProgram_eq_ok_iff (s := { s with tries := s.tries + 1 }) hnormal).2
      ⟨source, generator, random, hgenerate, rfl, rfl⟩
    exact ⟨t, (attempts_iff_ends hnormal).2 ⟨_, _, calls, hprogram, hends⟩, rfl⟩

/-! ## Formatters that keep their calls -/

end Loop

def Formatter.observed (f : Formatter φ) : Formatter (φ × List Call) where
  name := f.name
  rejections := f.rejections
  space := f.space
  format source options s :=
    let (answer, t) := f.format source options s.1
    (answer, t, s.2 ++ [⟨source, options⟩])
  command := f.command

def Checker.observed (c : Checker φ) : Checker (φ × List Call) := ⟨c.formatter.observed, c.rejected⟩

theorem Checker.answers_observed_iff {c : Checker φ} {source : String} {options : Options}
    {s t : φ × List Call} {outcome : Outcome} :
    c.observed.Answers source options s outcome t ↔
      c.Answers source options s.1 outcome t.1 ∧ t.2 = s.2 ++ [⟨source, options⟩] := by
  have hformat : c.observed.formatter.format source options s =
      ((c.formatter.format source options s.1).1, (c.formatter.format source options s.1).2,
        s.2 ++ [⟨source, options⟩]) := rfl
  cases hanswer : c.formatter.format source options s.1 with
  | mk answer u =>
    rw [hanswer] at hformat
    constructor
    · intro h
      cases h with
      | output h =>
        rw [hformat] at h
        cases h
        exact ⟨.output hanswer, rfl⟩
      | failure h hfailure hsaid =>
        rw [hformat] at h
        cases h
        exact ⟨.failure hanswer hfailure hsaid, rfl⟩
    · obtain ⟨t, log⟩ := t
      rintro ⟨h, rfl⟩
      cases h with
      | output h =>
        rw [hanswer] at h
        cases h
        exact .output hformat
      | failure h hfailure hsaid =>
        rw [hanswer] at h
        cases h
        exact .failure hformat hfailure hsaid

def LoopState.unobserved (s : LoopState γ (φ × List Call) σ) : LoopState γ φ σ where
  generator := s.generator
  formatter := s.formatter.1
  random := s.random
  tries := s.tries
  log := s.log

def LoopState.observing (s : LoopState γ φ σ) (calls : List Call) :
    LoopState γ (φ × List Call) σ where
  generator := s.generator
  formatter := (s.formatter, calls)
  random := s.random
  tries := s.tries
  log := s.log

namespace Loop

def observed (l : Loop γ φ σ) : Loop γ (φ × List Call) σ where
  generator := l.generator
  sampler := l.sampler
  checker := l.checker.observed
  filter := l.filter
  settings := l.settings
  replay := l.replay

variable [Source σ] {l : Loop γ φ σ} {s s' t : LoopState γ (φ × List Call) σ}
  {p : GeneratedProgram} {calls : List Call} {step : Step}

theorem Ends.observing {t : LoopState γ φ σ} (h : l.Ends p s.unobserved calls step t) :
    l.observed.Ends p s calls step (t.observing (s.formatter.2 ++ calls)) := by
  cases h with
  | boring h =>
    rw [List.append_nil]
    exact .boring h
  | rejected hdraws hfirst hkind hshow =>
    exact .rejected hdraws (Checker.answers_observed_iff.2 ⟨hfirst, rfl⟩) hkind hshow
  | failed hdraws hfirst hkept =>
    exact .failed hdraws (Checker.answers_observed_iff.2 ⟨hfirst, rfl⟩) hkept
  | @same o _ output f _ hdraws hfirst hsecond hshow =>
    have hlog : s.formatter.2 ++ [⟨p.source, o⟩, ⟨output, o⟩] =
        s.formatter.2 ++ [⟨p.source, o⟩] ++ [⟨output, o⟩] := by simp
    refine .same hdraws (f := (f, s.formatter.2 ++ [⟨p.source, o⟩]))
      (Checker.answers_observed_iff.2 ⟨hfirst, rfl⟩)
      (Checker.answers_observed_iff.2 ⟨hsecond, hlog⟩) hshow
  | @reported o _ output _ _ f _ hdraws hfirst hsecond hdifferent hverdict =>
    have hlog : s.formatter.2 ++ [⟨p.source, o⟩, ⟨output, o⟩] =
        s.formatter.2 ++ [⟨p.source, o⟩] ++ [⟨output, o⟩] := by simp
    refine .reported hdraws (f := (f, s.formatter.2 ++ [⟨p.source, o⟩]))
      (Checker.answers_observed_iff.2 ⟨hfirst, rfl⟩)
      (Checker.answers_observed_iff.2 ⟨hsecond, hlog⟩) hdifferent hverdict

theorem ends_observed_iff : l.observed.Ends p s calls step t ↔
    l.Ends p s.unobserved calls step t.unobserved ∧ t.formatter.2 = s.formatter.2 ++ calls := by
  constructor
  · intro h
    cases h with
    | boring h => exact ⟨.boring h, (List.append_nil _).symm⟩
    | rejected hdraws hfirst hkind hshow =>
      obtain ⟨hfirst, hcalls⟩ := Checker.answers_observed_iff.1 hfirst
      exact ⟨.rejected hdraws hfirst hkind hshow, hcalls⟩
    | failed hdraws hfirst hkept =>
      obtain ⟨hfirst, hcalls⟩ := Checker.answers_observed_iff.1 hfirst
      exact ⟨.failed hdraws hfirst hkept, hcalls⟩
    | same hdraws hfirst hsecond hshow =>
      obtain ⟨hfirst, hcalls⟩ := Checker.answers_observed_iff.1 hfirst
      obtain ⟨hsecond, hcalls'⟩ := Checker.answers_observed_iff.1 hsecond
      -- the second call is written down behind the first one
      rw [hcalls, List.append_assoc] at hcalls'
      exact ⟨.same hdraws hfirst hsecond hshow, hcalls'⟩
    | reported hdraws hfirst hsecond hdifferent hverdict =>
      obtain ⟨hfirst, hcalls⟩ := Checker.answers_observed_iff.1 hfirst
      obtain ⟨hsecond, hcalls'⟩ := Checker.answers_observed_iff.1 hsecond
      rw [hcalls, List.append_assoc] at hcalls'
      exact ⟨.reported hdraws hfirst hsecond hdifferent hverdict, hcalls'⟩
  · rintro ⟨h, hcalls⟩
    have hobserving := h.observing
    rw [← hcalls] at hobserving
    exact hobserving

theorem tries_observed_iff : l.observed.Tries s calls step t ↔
    l.Tries s.unobserved calls step t.unobserved ∧ t.formatter.2 = s.formatter.2 ++ calls := by
  constructor
  · rintro ⟨source, generator, random, u, hgenerate, hends, rfl⟩
    obtain ⟨hends, hcalls⟩ := ends_observed_iff.1 hends
    exact ⟨⟨source, generator, random, u.unobserved, hgenerate, hends, rfl⟩, hcalls⟩
  · rintro ⟨⟨source, generator, random, u, hgenerate, hends, hu⟩, hcalls⟩
    refine ⟨source, generator, random, u.observing t.formatter.2, hgenerate, ?_, ?_⟩
    · rw [ends_observed_iff]
      exact ⟨hends, hcalls⟩
    · exact congrArg (LoopState.observing · t.formatter.2) hu

/-- A try ends in one way only. -/
theorem Tries.unique {s t t' : LoopState γ φ σ} {calls' : List Call} {step' : Step}
    (hnormal : l.replay = none) (h : l.Tries s calls step t) (h' : l.Tries s calls' step' t') :
    calls = calls' ∧ step = step' ∧ t = t' := by
  -- with its calls kept a try is a step, and a step is determined by the state
  have hobserved : ∀ {calls step t}, l.Tries s calls step t →
      l.observed.step (s.observing []) = (.ok step, t.observing calls) :=
    fun h => (step_eq_ok_iff (l := l.observed) hnormal).2 ⟨_, tries_observed_iff.2 ⟨h, rfl⟩⟩
  have heq := (hobserved h).symm.trans (hobserved h')
  obtain ⟨hstep, hstate⟩ := Prod.mk.inj heq
  exact ⟨congrArg (·.formatter.2) hstate, Except.ok.inj hstep, congrArg LoopState.unobserved hstate⟩

/-! ## Runs -/

theorem runs_iff_trace {s t : LoopState γ φ σ} {steps : List Step} (hnormal : l.replay = none) :
    l.Runs s steps t ↔ ∃ trace, l.Trace s trace t ∧ trace.map Prod.snd = steps := by
  constructor
  · intro h
    induction h with
    | nil => exact ⟨[], .nil, rfl⟩
    | cons hstep _ ih =>
      obtain ⟨calls, htry⟩ := (step_eq_ok_iff hnormal).1 hstep
      obtain ⟨trace, htrace, rfl⟩ := ih
      exact ⟨(calls, _) :: trace, .cons htry htrace, rfl⟩
  · rintro ⟨trace, htrace, rfl⟩
    induction htrace with
    | nil => exact .nil
    | cons htry _ ih => exact .cons ((step_eq_ok_iff hnormal).2 ⟨_, htry⟩) ih

variable {trace trace' : List (List Call × Step)}

theorem trace_observed_iff : l.observed.Trace s trace t ↔
    l.Trace s.unobserved trace t.unobserved ∧
      t.formatter.2 = s.formatter.2 ++ (trace.map Prod.fst).flatten := by
  -- for all states at the start, since what is kept grows from try to try
  induction trace generalizing s with
  | nil =>
    constructor
    · rintro ⟨⟩
      exact ⟨.nil, (List.append_nil _).symm⟩
    · rintro ⟨h, hcalls⟩
      have hstate : s.unobserved = t.unobserved := by
        generalize t.unobserved = u at h
        cases h
        rfl
      -- a state is given by what is left without the calls, and by the calls
      have hsame : s = t := by
        have hlog : s.formatter.2 = t.formatter.2 := by simpa using hcalls.symm
        change s.unobserved.observing s.formatter.2 = t.unobserved.observing t.formatter.2
        rw [hstate, hlog]
      exact hsame ▸ .nil
  | cons entry trace ih =>
    obtain ⟨calls, step⟩ := entry
    constructor
    · intro h
      cases h with
      | cons htry htrace =>
        obtain ⟨htry, hcalls⟩ := tries_observed_iff.1 htry
        obtain ⟨htrace, hrest⟩ := ih.1 htrace
        refine ⟨.cons htry htrace, ?_⟩
        rw [hrest, hcalls, List.map_cons, List.flatten_cons, List.append_assoc]
    · rintro ⟨h, hcalls⟩
      cases h with
      | @cons _ u _ _ _ _ htry htrace =>
        have hmiddle : l.observed.Tries s calls step (u.observing (s.formatter.2 ++ calls)) :=
          tries_observed_iff.2 ⟨htry, rfl⟩
        refine .cons hmiddle (ih.2 ⟨htrace, ?_⟩)
        rw [hcalls, List.map_cons, List.flatten_cons, ← List.append_assoc]
        rfl

theorem Ends.tries_eq {s t : LoopState γ φ σ} (h : l.Ends p s calls step t) : t.tries = s.tries := by
  cases h with
  | _ => rfl

theorem Trace.tries_eq {s t : LoopState γ φ σ} (h : l.Trace s trace t) :
    t.tries = s.tries + trace.length := by
  induction h with
  | nil => rfl
  | cons htry _ ih =>
    obtain ⟨source, generator, random, u, -, hends, rfl⟩ := htry
    have hcount := hends.tries_eq
    simp only at hcount ih
    rw [ih, hcount, List.length_cons]
    omega

/-- The tries of a run are determined by the state it starts in. -/
theorem Trace.unique {s t t' : LoopState γ φ σ} (hnormal : l.replay = none) (h : l.Trace s trace t)
    (h' : l.Trace s trace' t') (hlength : trace.length = trace'.length) :
    trace = trace' ∧ t = t' := by
  induction h generalizing trace' with
  | nil =>
    obtain rfl := List.eq_nil_of_length_eq_zero hlength.symm
    cases h'
    exact ⟨rfl, rfl⟩
  | cons htry _ ih =>
    cases h' with
    | nil => cases hlength
    | cons htry' htrace' =>
      obtain ⟨rfl, rfl, rfl⟩ := htry.unique hnormal htry'
      obtain ⟨rfl, rfl⟩ := ih htrace' (Nat.succ.inj hlength)
      exact ⟨rfl, rfl⟩

/-- Without an entry to replay, the steps of the loop that do not break off are tries by the rules. There
is one trace of them only, the number of tries grows by one in each, and a formatter that keeps its calls
is called with the calls of the tries, one try after another. -/
theorem runs_observed (hnormal : l.replay = none) (s t : LoopState γ (φ × List Call) σ)
    (steps : List Step) :
    (l.observed.Runs s steps t ↔ ∃ trace, l.Trace s.unobserved trace t.unobserved ∧
        trace.map Prod.snd = steps ∧
        t.formatter.2 = s.formatter.2 ++ (trace.map Prod.fst).flatten) ∧
      (∀ trace t', l.Trace s.unobserved trace t' → t'.tries = s.tries + trace.length) ∧
      ∀ trace trace' t' t'', l.Trace s.unobserved trace t' → l.Trace s.unobserved trace' t'' →
        trace.length = trace'.length → trace = trace' ∧ t' = t'' := by
  refine ⟨?_, fun _ _ h => h.tries_eq, fun _ _ _ _ h h' => h.unique hnormal h'⟩
  rw [runs_iff_trace (l := l.observed) hnormal]
  constructor
  · rintro ⟨trace, htrace, rfl⟩
    obtain ⟨htrace, hcalls⟩ := trace_observed_iff.1 htrace
    exact ⟨trace, htrace, rfl, hcalls⟩
  · rintro ⟨trace, htrace, rfl, hcalls⟩
    exact ⟨trace, trace_observed_iff.2 ⟨htrace, hcalls⟩, rfl⟩

/-! ## A run with four tries

The first program is boring. The formatter rejects the second, keeps the third as it is, and puts a mark
behind the fourth each time. -/

/-- Rejects its first program and marks programs from its fourth call on. -/
def lateFormatter : Formatter Nat :=
  .scripted "late" ["SyntaxError"] []
    [.fail (.make "SyntaxError" []), .edit [] "" "", .edit [] "" "", .edit [] "" "#"]

def lateLoop : Loop Nat Nat Words where
  generator := .cycling [";\n", "(\n", "x\n", "y\n"]
  sampler := ⟨[("wide", ⟨[(.str "values", .list [.bool true])]⟩)]⟩
  checker := ⟨lateFormatter, fun _ => false⟩
  filter := ⟨(· == ";\n")⟩

def lateStart (words : List UInt32) : LoopState Nat Nat Words :=
  { generator := 0, formatter := 0, random := ⟨words⟩ }

def wide : Options := ⟨[("wide", .bool true)]⟩

def lateReport : RunResult :=
  ⟨4, ⟨"y\n", 7, "ast"⟩, wide, .success "y\n#", some (.success "y\n##"), .diff,
    some (diffChars "y\n#" "y\n##")⟩

theorem reaches_wide : Draw.Reaches lateLoop.sampler.sample (.ok wide) := by
  have htakes : Sampler.Takes lateLoop.sampler.space [("wide", .bool true)] :=
    .cons ⟨rfl, .candidate rfl List.mem_cons_self⟩ .nil
  exact Sampler.sample_reaches htakes

theorem exists_trace_cons {γ φ σ : Type} [Source σ] {l : Loop γ φ σ} {s t : LoopState γ φ σ}
    {calls : List Call} {step : Step} {trace : List (List Call × Step)} (htry : l.Tries s calls step t)
    (h : ∃ u, l.Trace t trace u) : ∃ u, l.Trace s ((calls, step) :: trace) u := by
  obtain ⟨u, h⟩ := h
  exact ⟨u, .cons htry h⟩

theorem draws_wide {words rest : List UInt32} {p : GeneratedProgram} {s : LoopState Nat Nat Words}
    (hwords : ∀ rest, (lateLoop.sampler.sample : Draw Words (Except SampleError Options)).run
      ⟨words ++ rest⟩ = (.ok wide, ⟨rest⟩))
    (hp : lateLoop.filter.isBoring p.source = false) (hs : s.random = ⟨words ++ rest⟩) :
    lateLoop.Draws p s wide ⟨rest⟩ := by
  refine ⟨hp, ?_⟩
  rw [hs]
  exact hwords rest

theorem exists_rejection : ∃ failure, Failure.ofFault lateLoop.checker.formatter.rejections
    (some lateLoop.checker.rejected) (.make "SyntaxError" []) = .ok failure ∧
      failure.kind = .inputSyntax := by
  refine ⟨_, rfl, ?_⟩
  decide

/-- Only the three programs that are not boring take words. -/
theorem exists_trace_lateLoop : ∃ words t, lateLoop.Trace (lateStart words)
    [([], .again .boring), ([⟨"(\n", wide⟩], .again .syntaxRejected),
      ([⟨"x\n", wide⟩, ⟨"x\n", wide⟩], .again .success),
      ([⟨"y\n", wide⟩, ⟨"y\n#", wide⟩], .report lateReport)] t := by
  obtain ⟨words, hwords⟩ := reaches_wide
  obtain ⟨failure, hsaid, hsyntax⟩ := exists_rejection
  have hreject : lateLoop.checker.Answers "(\n" wide 0 (.failed failure) 1 :=
    .failure rfl (by decide : (Fault.make "SyntaxError" []).errorClass.isFailure = true) hsaid
  have hkeep : ∀ n, n = 1 ∨ n = 2 →
      lateLoop.checker.Answers "x\n" wide n (.success "x\n") (n + 1) := by
    rintro n (rfl | rfl)
    · exact .output rfl
    · exact .output rfl
  have hmark : lateLoop.checker.Answers "y\n" wide 3 (.success "y\n#") 4 := .output rfl
  have hmark' : lateLoop.checker.Answers "y\n#" wide 4 (.success "y\n##") 5 := .output rfl
  -- the same words make the same options three times
  refine ⟨words ++ (words ++ (words ++ [])), ?_⟩
  refine exists_trace_cons ⟨_, _, _, _, rfl,
    .boring (by decide : lateLoop.filter.isBoring ";\n" = true), rfl⟩ ?_
  refine exists_trace_cons ⟨_, _, _, _, rfl, .rejected (draws_wide hwords
    (by decide : lateLoop.filter.isBoring "(\n" = false) rfl) hreject hsyntax rfl, rfl⟩ ?_
  refine exists_trace_cons ⟨_, _, _, _, rfl, .same (draws_wide hwords
    (by decide : lateLoop.filter.isBoring "x\n" = false) rfl) (hkeep 1 (.inl rfl))
    (hkeep 2 (.inr rfl)) rfl, rfl⟩ ?_
  refine exists_trace_cons ⟨_, _, _, _, rfl, .reported (draws_wide hwords
    (by decide : lateLoop.filter.isBoring "y\n" = false) rfl) hmark hmark' (by decide) rfl, rfl⟩ ?_
  exact ⟨_, .nil⟩

/-- The four steps, and what the formatter was called with. -/
theorem runs_observed_lateLoop : lateLoop.replay = none ∧ ∃ words t,
    lateLoop.observed.Runs ((lateStart words).observing [])
        [.again .boring, .again .syntaxRejected, .again .success, .report lateReport] t ∧
      t.formatter.2.map Call.source = ["(\n", "x\n", "x\n", "y\n", "y\n#"] ∧ t.tries = 4 := by
  obtain ⟨words, t, htrace⟩ := exists_trace_lateLoop
  obtain ⟨hruns, htries, -⟩ := runs_observed (l := lateLoop) rfl ((lateStart words).observing [])
    (t.observing [⟨"(\n", wide⟩, ⟨"x\n", wide⟩, ⟨"x\n", wide⟩, ⟨"y\n", wide⟩, ⟨"y\n#", wide⟩])
    [.again .boring, .again .syntaxRejected, .again .success, .report lateReport]
  exact ⟨rfl, words, _, hruns.2 ⟨_, htrace, rfl, rfl⟩, rfl, htries _ _ htrace⟩

end Loop

end FormatFuzz
