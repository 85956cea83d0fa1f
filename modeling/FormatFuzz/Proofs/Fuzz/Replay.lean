import FormatFuzz.Proofs.Fuzz.Trace

namespace FormatFuzz

variable {γ φ σ : Type}

/-- The answer of the formatter, a text or a fault, depends on the program and the options alone. -/
def Formatter.Stateless (f : Formatter φ) : Prop :=
  ∀ source options s s', (f.format source options s).1 = (f.format source options s').1

namespace Checker

variable {c : Checker φ} {discard : Bool} {source : String} {options : Options}

theorem Answers.of_stateless {s t : φ} {outcome : Outcome}
    (hanswers : c.Answers source options s outcome t) (h : c.formatter.Stateless) (s' : φ) :
    ∃ t', c.Answers source options s' outcome t' := by
  have hanswer := h source options s s'
  cases hformat' : c.formatter.format source options s' with
  | mk answer t' =>
    rw [hformat'] at hanswer
    cases hanswers with
    | output hformat =>
      rw [hformat] at hanswer
      cases hanswer
      exact ⟨t', .output hformat'⟩
    | failure hformat hfailure hsaid =>
      rw [hformat] at hanswer
      cases hanswer
      exact ⟨t', .failure hformat' hfailure hsaid⟩

theorem check_keeping (h : c.formatter.Stateless) {passes : Passes} {s : φ}
    (hpasses : (c.check discard source options s).1 = .ok (some passes)) (s' : φ) :
    (c.check false source options s').1 = .ok (some passes) := by
  rcases check_eq_ok_iff.1 (Prod.ext hpasses rfl) with
    ⟨failure, hfirst, hp⟩ | ⟨output, second, u, hfirst, hsecond, hp⟩
  · obtain ⟨t', hfirst'⟩ := hfirst.of_stateless h s'
    split at hp
    · cases hp
    · cases hp
      exact congrArg Prod.fst (check_eq_ok_iff.2 (.inl ⟨failure, hfirst', rfl⟩))
  · obtain ⟨u', hfirst'⟩ := hfirst.of_stateless h s'
    obtain ⟨t', hsecond'⟩ := hsecond.of_stateless h u'
    cases hp
    exact congrArg Prod.fst (check_eq_ok_iff.2 (.inr ⟨output, second, u', hfirst', hsecond', rfl⟩))

end Checker

namespace Loop

open FormatFuzz.Random

variable {l : Loop γ φ σ}

variable {entry : Replay}

theorem nextProgram_replay (hreplay : l.replay = some entry) (s : LoopState γ φ σ) :
    l.nextProgram s = (.ok ⟨entry.source, l.settings.maxDepth, replayBackend⟩, s) := by
  rw [nextProgram, hreplay]

theorem nextOptions_replay [Source σ] (hreplay : l.replay = some entry) (s : LoopState γ φ σ) :
    l.nextOptions s = (.ok entry.options, s) := by
  rw [nextOptions, hreplay]

theorem discards_replay (hreplay : l.replay = some entry) (source : String) :
    l.filter.discards l.replay.isSome source = false := by
  rw [hreplay]
  rfl

theorem discardsRejected_replay (hreplay : l.replay = some entry) : l.discardsRejected = false := by
  rw [discardsRejected, hreplay]
  rfl

theorem reports_replay (hreplay : l.replay = some entry) (verdict : Verdict) :
    l.reports verdict = true := by
  rw [reports, hreplay]
  exact Bool.or_true _

variable [Source σ] {s s' : LoopState γ φ σ} {r : RunResult}

/-- What is known of a report: its passes are those of a check of its program, and its options were
given or drawn. -/
structure Reported (l : Loop γ φ σ) (r : RunResult) : Prop where
  passes : ∃ t, (l.checker.check l.discardsRejected r.program.source r.options t).1 =
    .ok (some ⟨r.first, r.second⟩)
  verdict : Passes.verdict ⟨r.first, r.second⟩ = .ok r.verdict
  diff : r.diff = diffFor r.verdict r.first r.second
  options : ∃ s, (l.nextOptions s).1 = .ok r.options

omit [Source σ] in
theorem judge_eq_report {tries : Nat} {program : GeneratedProgram} {options : Options}
    {passes : Option Passes} (h : l.judge tries program options passes = .ok (.report r)) :
    passes = some ⟨r.first, r.second⟩ ∧ r.tries = tries ∧ r.program = program ∧
      r.options = options ∧
      Passes.verdict ⟨r.first, r.second⟩ = .ok r.verdict ∧
      r.diff = diffFor r.verdict r.first r.second := by
  unfold judge at h
  cases passes with
  | none => cases h
  | some passes =>
    simp only at h
    cases hverdict : passes.verdict with
    | error e =>
      rw [hverdict] at h
      cases h
    | ok verdict =>
      rw [hverdict] at h
      simp only at h
      split at h
      · cases h
        exact ⟨rfl, rfl, rfl, rfl, hverdict, rfl⟩
      · cases h

theorem Attempts.reported (h : l.Attempts s (.ok (.report r)) s') : l.Reported r := by
  cases h with
  | judged hchosen hcheck hjudge =>
    obtain ⟨t, -, hoptions⟩ := hchosen.program
    obtain ⟨rfl, -, rfl, rfl, hverdict, hdiff⟩ := judge_eq_report hjudge
    exact ⟨⟨_, congrArg Prod.fst hcheck⟩, hverdict, hdiff, t, congrArg Prod.fst hoptions⟩

theorem step_report (h : l.step s = (.ok (.report r), s')) : l.Reported r := by
  obtain ⟨t, hattempts, -⟩ := step_eq_ok_iff_attempts.1 h
  exact hattempts.reported

theorem runFor_report {n : Nat} (h : l.runFor n s = (.ok (some r), s')) : l.Reported r ∧ 0 < n := by
  induction n generalizing s with
  | zero => cases h
  | succ n ih =>
    refine ⟨?_, Nat.succ_pos n⟩
    unfold runFor at h
    split at h
    · cases h
    · next hstep =>
      cases h
      exact step_report hstep
    · exact (ih h).1

def replayResult (l : Loop γ φ σ) (tries : Nat) (entry : Replay) (passes : Passes)
    (verdict : Verdict) : RunResult where
  tries := tries
  program := ⟨entry.source, l.settings.maxDepth, replayBackend⟩
  options := entry.options
  first := passes.first
  second := passes.second
  verdict := verdict
  diff := diffFor verdict passes.first passes.second

variable {passes : Passes} {verdict : Verdict}

/-- A try reports if its program is not passed over, its check comes to passes, and their verdict is
one to be reported. -/
theorem attempt_eq_report {t u : LoopState γ φ σ} {program : GeneratedProgram} {options : Options}
    (hprogram : l.nextProgram { s with tries := s.tries + 1 } = (.ok program, t))
    (hboring : l.filter.discards l.replay.isSome program.source = false)
    (hoptions : l.nextOptions t = (.ok options, u))
    (hpasses : (l.checker.check l.discardsRejected program.source options u.formatter).1 =
      .ok (some passes))
    (hverdict : passes.verdict = .ok verdict) (hreports : l.reports verdict = true) :
    ∃ s', l.attempt s = (.ok (.report
        { tries := u.tries, program, options, first := passes.first, second := passes.second,
          verdict, diff := diffFor verdict passes.first passes.second }), s') ∧
      s'.tries = u.tries := by
  have hchosen : l.Chosen s program options u := ⟨⟨t, hprogram, hoptions⟩, hboring⟩
  rw [hchosen.attempt_eq]
  generalize l.checker.check l.discardsRejected program.source options u.formatter = x at hpasses ⊢
  obtain ⟨answer, state⟩ := x
  obtain rfl : answer = .ok (some passes) := hpasses
  refine ⟨{ u with formatter := state }, ?_, rfl⟩
  simp only [judged, judge, hverdict, hreports, if_true]

theorem attempt_replay (hreplay : l.replay = some entry)
    (hpasses : ∀ t, (l.checker.check false entry.source entry.options t).1 = .ok (some passes))
    (hverdict : passes.verdict = .ok verdict) (s : LoopState γ φ σ) :
    ∃ s', l.attempt s =
        (.ok (.report (l.replayResult (s.tries + 1) entry passes verdict)), s') ∧
      s'.tries = s.tries + 1 := by
  rw [← discardsRejected_replay hreplay] at hpasses
  exact attempt_eq_report (nextProgram_replay hreplay _) (discards_replay hreplay _)
    (nextOptions_replay hreplay _) (hpasses s.formatter) hverdict (reports_replay hreplay verdict)

theorem runFor_of_attempt (h : l.attempt s = (.ok (.report r), s')) (n : Nat) :
    ∃ s'', l.runFor (n + 1) s = (.ok (some r), s'') ∧ s''.tries = s'.tries := by
  unfold runFor step
  simp only [h]
  exact ⟨_, rfl, rfl⟩

/-- The first try of a replay reports what the check of the entry comes to. -/
theorem runFor_replay (hreplay : l.replay = some entry)
    (hpasses : ∀ t, (l.checker.check false entry.source entry.options t).1 = .ok (some passes))
    (hverdict : passes.verdict = .ok verdict) (s : LoopState γ φ σ) (n : Nat) :
    ∃ s', l.runFor (n + 1) s =
        (.ok (some (l.replayResult (s.tries + 1) entry passes verdict)), s') ∧
      s'.tries = s.tries + 1 := by
  obtain ⟨t, hattempt, htries⟩ := attempt_replay hreplay hpasses hverdict s
  rw [← htries]
  exact runFor_of_attempt (htries ▸ hattempt) n

end Loop

end FormatFuzz
