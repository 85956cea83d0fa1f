import FormatFuzz.Proofs.Fuzz.Trace

/-!
# What is shown decides only where a run stops

Two loops that differ in nothing but what they show make the same tries from the same state, as long as
neither of them reports. The check of a program makes the same calls whether rejected programs are
dropped or kept, and what is kept or dropped is the outcome alone. So the loop that shows more stops at
the same try as the other one with the same result, or earlier at a result that only it shows: a success,
or a program that the first pass rejects.
-/

namespace FormatFuzz

open FormatFuzz.Random

variable {γ φ σ : Type}

/-- A success, or an error of a first pass that rejects the program: what is reported only on request. -/
def RunResult.OnRequest (r : RunResult) : Prop :=
  r.verdict = .success ∨
    r.verdict = .error ∧ ∃ failure, r.first = .failed failure ∧ failure.kind = .inputSyntax

/-- To drop rejected programs changes neither the calls of a check nor any other outcome. -/
theorem Checker.check_dropping (c : Checker φ) (source : String) (options : Options) (s : φ) :
    c.check true source options s = c.check false source options s ∨
      ∃ failure t, failure.kind = .inputSyntax ∧ c.check true source options s = (.ok none, t) ∧
        c.check false source options s = (.ok (some ⟨.failed failure, none⟩), t) := by
  unfold check
  cases c.pass source options s with
  | mk first t =>
    cases first with
    | error fault => exact .inl rfl
    | ok first =>
      cases first with
      | success output => exact .inl rfl
      | failed failure =>
        by_cases hkind : failure.kind = .inputSyntax
        · exact .inr ⟨failure, t, hkind, by simp [hkind], rfl⟩
        · exact .inl (by simp [hkind])

namespace Loop

/-- The loop that shows more: rejected programs or successes, besides what it shows already. -/
def showing (l : Loop γ φ σ) (parseErrors successes : Bool) : Loop γ φ σ :=
  { l with settings := { l.settings with
      showParseErrors := l.settings.showParseErrors || parseErrors
      showSuccesses := l.settings.showSuccesses || successes } }

variable (l : Loop γ φ σ) (parseErrors successes : Bool)

/-- One loop goes on where the other one reports what is reported only on request. -/
structure Uncovers (step shown : Except StepError Step) : Prop where
  passed : ∃ reason, step = .ok (.again reason)
  reported : ∃ r, shown = .ok (.report r) ∧ r.OnRequest

theorem judge_showing (tries : Nat) (p : GeneratedProgram) (o : Options) (passes : Option Passes) :
    (l.showing parseErrors successes).judge tries p o passes = l.judge tries p o passes ∨
      Uncovers (l.judge tries p o passes)
        ((l.showing parseErrors successes).judge tries p o passes) := by
  cases passes with
  | none => exact .inl rfl
  | some passes =>
    cases hverdict : passes.verdict with
    | error e => exact .inl (by simp only [judge, hverdict])
    | ok verdict =>
      simp only [judge, hverdict]
      cases hreports : l.reports verdict with
      | true =>
        have hshown : (l.showing parseErrors successes).reports verdict = true := by
          simp only [reports, showing, Bool.or_eq_true] at hreports ⊢
          tauto
        rw [hshown]
        exact .inl rfl
      | false =>
        cases (l.showing parseErrors successes).reports verdict with
        | false => exact .inl rfl
        | true =>
          have hsuccess : verdict = .success := by
            simp only [reports, Bool.or_eq_false_iff, bne_eq_false_iff_eq] at hreports
            exact hreports.1.1
          subst hsuccess
          exact .inr ⟨⟨.success, rfl⟩, _, rfl, .inl rfl⟩

theorem judge_rejected {failure : Failure} (hkind : failure.kind = .inputSyntax) (tries : Nat)
    (p : GeneratedProgram) (o : Options) :
    Uncovers (l.judge tries p o none)
      ((l.showing parseErrors successes).judge tries p o (some ⟨.failed failure, none⟩)) :=
  ⟨⟨.syntaxRejected, rfl⟩, _, rfl, .inr ⟨rfl, failure, rfl, hkind⟩⟩

theorem discardsRejected_showing :
    (l.showing parseErrors successes).discardsRejected = l.discardsRejected ∨
      l.discardsRejected = true ∧ (l.showing parseErrors successes).discardsRejected = false := by
  simp only [discardsRejected, showing]
  cases l.replay.isNone with
  | false => exact .inl rfl
  | true =>
    cases l.settings.showParseErrors with
    | true => exact .inl rfl
    | false =>
      cases parseErrors with
      | true => exact .inr ⟨rfl, rfl⟩
      | false => exact .inl rfl

/-- A try of a loop and one of the loop that shows more: they are the same, or leave the same number of
tries while one of them goes on and the other one reports. -/
def Alike (x shown : Except StepError Step × LoopState γ φ σ) : Prop :=
  shown = x ∨ Uncovers x.1 shown.1 ∧ shown.2.tries = x.2.tries

theorem judged_showing (p : GeneratedProgram) (o : Options) (s : LoopState γ φ σ)
    (made : Except Fault (Option Passes) × φ) :
    Alike (l.judged p o s made) ((l.showing parseErrors successes).judged p o s made) := by
  obtain ⟨fault | passes, f⟩ := made
  · exact .inl rfl
  · rcases l.judge_showing parseErrors successes s.tries p o passes with hsame | huncovers
    · exact .inl (by simp only [judged, hsame])
    · exact .inr ⟨huncovers, rfl⟩

variable [Source σ] (s : LoopState γ φ σ)

variable {s} in
theorem Chosen.attempt_showing {p : GeneratedProgram} {o : Options} {u : LoopState γ φ σ}
    (h : l.Chosen s p o u) :
    Alike (l.attempt s) ((l.showing parseErrors successes).attempt s) := by
  have hshown : (l.showing parseErrors successes).Chosen s p o u := ⟨h.program, h.kept⟩
  rw [h.attempt_eq, hshown.attempt_eq]
  change Alike _ (judged _ p o u (l.checker.check _ p.source o u.formatter))
  -- the same check, or one that keeps what the other one drops
  rcases l.discardsRejected_showing parseErrors successes with hkeeps | ⟨hdrops, hkeeps⟩
  · rw [hkeeps]
    exact l.judged_showing parseErrors successes p o u _
  · rw [hdrops, hkeeps]
    rcases l.checker.check_dropping p.source o u.formatter with
      hcheck | ⟨failure, f, hkind, hdropped, hkept⟩
    · rw [hcheck]
      exact l.judged_showing parseErrors successes p o u _
    · rw [hdropped, hkept]
      exact .inr ⟨l.judge_rejected parseErrors successes hkind u.tries p o, rfl⟩

theorem attempt_showing : Alike (l.attempt s) ((l.showing parseErrors successes).attempt s) := by
  cases hattempt : l.attempt s with
  | mk made t =>
    cases attempt_eq_iff.1 hattempt with
    | noProgram hprogram => exact .inl (attempt_eq_iff.2 (.noProgram hprogram))
    | passedOver hprogram hboring => exact .inl (attempt_eq_iff.2 (.passedOver hprogram hboring))
    | noOptions hprogram hkept hoptions =>
      exact .inl (attempt_eq_iff.2 (.noOptions hprogram hkept hoptions))
    | interrupted hchosen =>
      rw [← hattempt]
      exact hchosen.attempt_showing l parseErrors successes
    | judged hchosen =>
      rw [← hattempt]
      exact hchosen.attempt_showing l parseErrors successes

/-- What is logged of a try is not in its way. -/
theorem step_showing : Alike (l.step s) ((l.showing parseErrors successes).step s) := by
  unfold step
  rcases l.attempt_showing parseErrors successes s with
    hsame | ⟨⟨⟨reason, hagain⟩, r, hreport, hrequest⟩, htries⟩
  · exact .inl (by rw [hsame])
  · generalize l.attempt s = x at hagain htries
    generalize (l.showing parseErrors successes).attempt s = shown at hreport htries
    obtain ⟨_, t⟩ := x
    obtain ⟨_, t'⟩ := shown
    subst hagain hreport
    exact .inr ⟨⟨⟨reason, rfl⟩, r, rfl, hrequest⟩, htries⟩

theorem tries_lt_of_report {l : Loop γ φ σ} {s t : LoopState γ φ σ} {r : RunResult} {n : Nat}
    (h : l.runFor n s = (.ok (some r), t)) : s.tries < t.tries := by
  induction n generalizing s with
  | zero => cases h
  | succ n ih =>
    unfold runFor at h
    split at h
    · cases h
    · next hstep =>
      cases h
      have htries := tries_eq_of_step hstep
      omega
    · next hstep =>
      have htries := tries_eq_of_step hstep
      have hrest := ih h
      omega

/-- The runs are the same up to the first try that shows more, which ends one of them. -/
theorem runFor_showing (n : Nat) :
    (l.showing parseErrors successes).runFor n s = l.runFor n s ∨
      ∃ r' t', (l.showing parseErrors successes).runFor n s = (.ok (some r'), t') ∧ r'.OnRequest ∧
        ∀ r t, l.runFor n s = (.ok (some r), t) → t'.tries < t.tries := by
  induction n generalizing s with
  | zero => exact .inl rfl
  | succ n ih =>
    unfold runFor
    rcases l.step_showing parseErrors successes s with
      hsame | ⟨⟨⟨reason, hagain⟩, r', hreport, hrequest⟩, htries⟩
    · rw [hsame]
      obtain ⟨e | reason | r, t⟩ := l.step s
      · exact .inl rfl
      · exact ih t
      · exact .inl rfl
    · generalize l.step s = x at hagain htries
      generalize (l.showing parseErrors successes).step s = shown at hreport htries
      obtain ⟨_, t⟩ := x
      obtain ⟨_, t'⟩ := shown
      subst hagain hreport
      refine .inr ⟨r', t', rfl, hrequest, fun r u h => ?_⟩
      rw [htries]
      exact tries_lt_of_report h

/-- A loop and the one that shows more, both with formatters that keep their calls, leave the same state
as long as neither of them reports: the same number of tries, randomness and calls. If the first one
reports, the other one reports no later, the same if in the same try, and else what is reported on request
only. -/
theorem runFor_showing_stops (s : LoopState γ (φ × List Call) σ) (n : Nat) :
    (∀ t, (l.showing parseErrors successes).observed.runFor n s = (.ok none, t) →
        l.observed.runFor n s = (.ok none, t)) ∧
      (∀ e t, (l.showing parseErrors successes).observed.runFor n s = (.error e, t) →
        l.observed.runFor n s = (.error e, t)) ∧
      ∀ r t, l.observed.runFor n s = (.ok (some r), t) →
        ∃ r' t', (l.showing parseErrors successes).observed.runFor n s = (.ok (some r'), t') ∧
          t'.tries ≤ t.tries ∧ (t'.tries = t.tries → r' = r ∧ t' = t) ∧
          (t'.tries < t.tries → r'.OnRequest) := by
  have hshowing : (l.showing parseErrors successes).observed =
      l.observed.showing parseErrors successes := rfl
  rw [hshowing]
  rcases l.observed.runFor_showing parseErrors successes s n with
    hsame | ⟨r', t', hreport, hrequest, hearlier⟩
  · rw [hsame]
    exact ⟨fun _ h => h, fun _ _ h => h, fun r t h =>
      ⟨r, t, h, le_rfl, fun _ => ⟨rfl, rfl⟩, fun hlt => absurd hlt (lt_irrefl _)⟩⟩
  · rw [hreport]
    refine ⟨fun t h => (by cases h), fun e t h => (by cases h), fun r t h => ?_⟩
    have hlt := hearlier r t h
    exact ⟨r', t', rfl, hlt.le, fun heq => absurd heq hlt.ne, fun _ => hrequest⟩

/-- A rejected program, and then one that a mark is put behind in each pass. -/
def rejectedFirst : Loop Nat Nat Words where
  generator := .cycling ["(\n", "y\n"]
  sampler := ⟨[]⟩
  checker := ⟨.scripted "mark" ["SyntaxError"] [] [.fail (.make "SyntaxError" []), .edit [] "" "#"],
    fun _ => false⟩
  filter := ⟨(· == ";\n")⟩

/-- Its difference is reported in the second try, unless the first try shows the rejection. -/
theorem runFor_showing_stops_rejectedFirst : ∃ t r' t',
    rejectedFirst.observed.runFor 2 ((lateStart []).observing []) =
        (.ok (some { lateReport with tries := 2, options := ⟨[]⟩ }), t) ∧ t.tries = 2 ∧
      (rejectedFirst.showing true false).observed.runFor 2 ((lateStart []).observing []) =
        (.ok (some r'), t') ∧ t'.tries = 1 ∧ r'.OnRequest := by
  obtain ⟨t, hreport, htries⟩ : ∃ t, rejectedFirst.observed.runFor 2 ((lateStart []).observing []) =
      (.ok (some { lateReport with tries := 2, options := ⟨[]⟩ }), t) ∧ t.tries = 2 := ⟨_, rfl, rfl⟩
  have hearlier : ((rejectedFirst.showing true false).observed.runFor 2
      ((lateStart []).observing [])).2.tries = 1 := rfl
  obtain ⟨r', t', hreport', -, -, hrequest⟩ :=
    (rejectedFirst.runFor_showing_stops true false _ 2).2.2 _ t hreport
  rw [hreport'] at hearlier
  refine ⟨t, r', t', hreport, htries, hreport', hearlier, hrequest ?_⟩
  rw [hearlier, htries]
  exact Nat.one_lt_two

end Loop

end FormatFuzz
