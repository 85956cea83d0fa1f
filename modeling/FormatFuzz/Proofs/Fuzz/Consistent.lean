import FormatFuzz.Proofs.Diff.Script
import FormatFuzz.Proofs.Fuzz.Replay

namespace FormatFuzz

open FormatFuzz.Random

variable {γ φ σ : Type}

/-- The parts of a result say the same of its passes. -/
structure RunResult.Consistent (r : RunResult) : Prop where
  second : r.second = none ↔ ∃ f, r.first = .failed f
  error : r.verdict = .error ↔ (∃ f, r.first = .failed f) ∨ ∃ f, r.second = some (.failed f)
  differs : r.verdict = .diff ↔
    ∃ a b, r.first = .success a ∧ r.second = some (.success b) ∧ a ≠ b
  succeeds : r.verdict = .success ↔ ∃ a, r.first = .success a ∧ r.second = some (.success a)
  failure : r.verdict = .error → ∃ n f, r.failures = [(n, f)] ∧
    (n = 1 ∧ r.first = .failed f ∨ n = 2 ∧ r.second = some (.failed f))
  noFailure : r.verdict ≠ .error → r.failures = []
  diff_isSome : r.diff.isSome ↔ r.verdict = .diff
  diff : ∀ ss, r.diff = some ss → ∃ a b, r.first = .success a ∧ r.second = some (.success b) ∧
    Segment.textWithout .insert ss = a ∧ Segment.textWithout .delete ss = b

namespace Passes

/-- There is a second pass exactly if the first one has an output. -/
inductive Complete : Passes → Prop
  | failed (failure : Failure) : Complete ⟨.failed failure, none⟩
  | passed (output : String) (second : Outcome) : Complete ⟨.success output, some second⟩

variable {p : Passes}

theorem Complete.verdict_ne_error (h : p.Complete) (e : OutcomeError) : p.verdict ≠ .error e := by
  cases h with
  | failed failure => simp [verdict, Verdict.ofPasses]
  | passed output second =>
    obtain ⟨v, hv, -⟩ := Loop.exists_verdict output second
    simp [verdict, hv]

theorem Complete.consistent (h : p.Complete) {r : RunResult} (hfirst : r.first = p.first)
    (hsecond : r.second = p.second) (hverdict : p.verdict = .ok r.verdict)
    (hdiff : r.diff = diffFor r.verdict p.first p.second) : r.Consistent := by
  obtain ⟨tries, program, options, first, second, v, diff⟩ := r
  obtain rfl : first = p.first := hfirst
  obtain rfl : second = p.second := hsecond
  obtain rfl : diff = diffFor v p.first p.second := hdiff
  cases h with
  | failed failure =>
    obtain rfl : .error = v := Except.ok.inj hverdict
    constructor <;> simp [RunResult.failures, diffFor, Outcome.failure?]
  | passed output second =>
    cases second with
    | failed failure =>
      obtain rfl : .error = v := Except.ok.inj hverdict
      constructor <;> simp [RunResult.failures, diffFor, Outcome.failure?]
    | success output' =>
      -- only here do the outputs matter, and with them the segments of the difference
      obtain rfl : (if output = output' then .success else .diff) = v := Except.ok.inj hverdict
      have hscript := (diffChars_isScript output output').1
      by_cases heq : output = output'
      · constructor <;> simp [RunResult.failures, diffFor, Outcome.failure?, heq]
      · constructor <;> simp [RunResult.failures, diffFor, Outcome.failure?, heq, Ne.symm heq,
          hscript.before_eq, hscript.after_eq]

end Passes

theorem Checker.check_complete {c : Checker φ} {discard : Bool} {source : String} {options : Options}
    {s : φ} {p : Passes} (h : (c.check discard source options s).1 = .ok (some p)) : p.Complete := by
  rcases check_eq_ok_iff.1 (Prod.ext h rfl) with ⟨failure, -, hp⟩ | ⟨output, second, -, -, -, hp⟩
  · split at hp
    · cases hp
    · cases hp
      exact .failed failure
  · cases hp
    exact .passed output second

namespace Loop

variable [Source σ] {l : Loop γ φ σ} {s s' : LoopState γ φ σ} {r : RunResult} {e : OutcomeError}

inductive Reports (l : Loop γ φ σ) (s : LoopState γ φ σ) (r : RunResult) : Prop
  | step {s' : LoopState γ φ σ} : l.step s = (.ok (.report r), s') → Reports l s r
  | tries {n : Nat} {s' : LoopState γ φ σ} : l.runFor n s = (.ok (some r), s') → Reports l s r
  | run {maxTries : Int} {s' : LoopState γ φ σ} : l.run maxTries s = (.ok r, s') → Reports l s r

inductive BreaksOff (l : Loop γ φ σ) (s : LoopState γ φ σ) (e : StepError) : Prop
  | step {s' : LoopState γ φ σ} : l.step s = (.error e, s') → BreaksOff l s e
  | tries {n : Nat} {s' : LoopState γ φ σ} : l.runFor n s = (.error e, s') → BreaksOff l s e
  | run {maxTries : Int} {s' : LoopState γ φ σ} : l.run maxTries s = (.error (.step e), s') →
      BreaksOff l s e

theorem run_eq_ok_iff {maxTries : Int} :
    l.run maxTries s = (.ok r, s') ↔ l.runFor (maxTries - s.tries).toNat s = (.ok (some r), s') := by
  unfold run
  generalize l.runFor (maxTries - s.tries).toNat s = made
  obtain ⟨e' | (- | r'), t⟩ := made
  · simp
  · simp
  · simp

theorem run_eq_error_iff {maxTries : Int} {e : StepError} : l.run maxTries s = (.error (.step e), s') ↔
    l.runFor (maxTries - s.tries).toNat s = (.error e, s') := by
  unfold run
  generalize l.runFor (maxTries - s.tries).toNat s = made
  obtain ⟨e' | (- | r'), t⟩ := made
  · simp
  · simp
  · simp

omit [Source σ] in
theorem judge_ne_verdict {tries : Nat} {program : GeneratedProgram} {options : Options}
    {passes : Option Passes} (h : ∀ p, passes = some p → p.Complete) (e : OutcomeError) :
    l.judge tries program options passes ≠ .error (.verdict e) := by
  unfold judge
  cases passes with
  | none => simp
  | some p =>
    cases hverdict : p.verdict with
    | error e' => exact absurd hverdict ((h p rfl).verdict_ne_error e')
    | ok v =>
      simp only [hverdict]
      split
      · simp
      · simp

theorem nextOptions_ne_verdict : l.nextOptions s ≠ (.error (.verdict e), s') := by
  unfold nextOptions
  cases l.replay with
  | some entry => simp
  | none =>
    cases l.sampler.sample.run s.random with
    | mk drawn random =>
      simp only
      cases drawn with
      | error e' => simp [Except.mapError]
      | ok options => simp [Except.mapError]

omit [Source σ] in
theorem nextProgram_ne_verdict : l.nextProgram s ≠ (.error (.verdict e), s') := by
  unfold nextProgram
  cases l.replay with
  | some entry => simp
  | none =>
    simp only
    split
    · simp
    · simp

theorem Attempts.ne_verdict : ¬ l.Attempts s (.error (.verdict e)) s' := by
  intro h
  cases h with
  | noProgram hprogram => exact nextProgram_ne_verdict hprogram
  | noOptions _ _ hoptions => exact nextOptions_ne_verdict hoptions
  | judged _ hcheck hjudge =>
    -- the passes that are judged are those of a check
    refine judge_ne_verdict (fun p hp => ?_) e hjudge
    rw [hp] at hcheck
    exact Checker.check_complete (congrArg Prod.fst hcheck)

theorem step_ne_verdict : l.step s ≠ (.error (.verdict e), s') :=
  fun h => Attempts.ne_verdict (step_eq_error_iff.1 h)

theorem runFor_ne_verdict {n : Nat} : l.runFor n s ≠ (.error (.verdict e), s') := by
  induction n generalizing s with
  | zero => simp [runFor]
  | succ n ih =>
    intro h
    unfold runFor at h
    split at h
    · next hstep =>
      cases h
      exact step_ne_verdict hstep
    · cases h
    · exact ih h

theorem Reports.reported (h : l.Reports s r) : l.Reported r := by
  cases h with
  | step h => exact step_report h
  | tries h => exact (runFor_report h).1
  | run h => exact (runFor_report (run_eq_ok_iff.1 h)).1

theorem Reported.consistent (h : l.Reported r) : r.Consistent := by
  obtain ⟨t, hcheck⟩ := h.passes
  exact (Checker.check_complete hcheck).consistent rfl rfl h.verdict h.diff

/-- Every result that a loop reports is consistent, whatever it makes of programs and whether it replays
one, and no try breaks off because its passes have no verdict. -/
theorem reports_consistent (l : Loop γ φ σ) (s : LoopState γ φ σ) :
    (∀ r, l.Reports s r → r.Consistent) ∧ ∀ e, ¬ l.BreaksOff s (.verdict e) := by
  refine ⟨fun r h => h.reported.consistent, fun e h => ?_⟩
  cases h with
  | step h => exact step_ne_verdict h
  | tries h => exact runFor_ne_verdict h
  | run h => exact runFor_ne_verdict (run_eq_error_iff.1 h)

/-- A replay of the program that the formatter of `lateLoop` puts a mark behind. -/
def lateReplay : Loop Nat Nat Words := { lateLoop with replay := some ⟨"y\n", wide⟩ }

theorem reports_consistent_lateReplay : ∃ r,
    lateReplay.Reports { lateStart [] with formatter := 3 } r ∧ r.verdict = .diff ∧ r.Consistent := by
  have hreports : lateReplay.Reports { lateStart [] with formatter := 3 }
      { lateReport with tries := 1, program := ⟨"y\n", 7, replayBackend⟩ } := .step rfl
  exact ⟨_, hreports, rfl, (reports_consistent _ _).1 _ hreports⟩

end Loop

end FormatFuzz
