import FormatFuzz.Proofs.Fuzz.Consistent
import FormatFuzz.Proofs.Fuzz.Showing

namespace FormatFuzz

open FormatFuzz.Random

variable {γ φ σ : Type}

namespace Loop

variable {l : Loop γ φ σ} {s t u : LoopState γ φ σ} {r : RunResult}

variable [Source σ]

theorem tries_of_step (h : l.step s = (.ok (.report r), t)) : r.tries = t.tries := by
  obtain ⟨u, hattempts, rfl⟩ := step_eq_ok_iff_attempts.1 h
  cases hattempts with
  | judged _ _ hjudge =>
    obtain ⟨-, htries, -⟩ := judge_eq_report hjudge
    -- the line that is logged leaves the number as it is
    exact htries

/-- A number of steps that all go on, one after another. -/
def Passed (l : Loop γ φ σ) (s : LoopState γ φ σ) (k : Nat) (t : LoopState γ φ σ) : Prop :=
  ∃ skips : List Skip, skips.length = k ∧ l.Runs s (skips.map .again) t

/-- The step with a number, counted from one, is the first that reports. -/
def ReportsAt (l : Loop γ φ σ) (s : LoopState γ φ σ) (k : Nat) (r : RunResult)
    (t : LoopState γ φ σ) : Prop :=
  ∃ j u, k = j + 1 ∧ l.Passed s j u ∧ l.step u = (.ok (.report r), t)

variable {k n : Nat}

theorem passed_zero_iff : l.Passed s 0 t ↔ t = s := by
  constructor
  · rintro ⟨skips, hlength, hruns⟩
    rw [List.eq_nil_of_length_eq_zero hlength] at hruns
    cases hruns
    rfl
  · rintro rfl
    exact ⟨[], rfl, .nil⟩

theorem passed_succ_iff : l.Passed s (k + 1) t ↔
    ∃ reason u, l.step s = (.ok (.again reason), u) ∧ l.Passed u k t := by
  constructor
  · rintro ⟨skips, hlength, hruns⟩
    obtain ⟨reason, skips, rfl⟩ := List.exists_cons_of_length_eq_add_one hlength
    cases hruns with
    | cons hstep hruns => exact ⟨reason, _, hstep, skips, Nat.succ.inj hlength, hruns⟩
  · rintro ⟨reason, u, hstep, skips, rfl, hruns⟩
    exact ⟨reason :: skips, rfl, .cons hstep hruns⟩

theorem Passed.tries_eq (h : l.Passed s k t) : t.tries = s.tries + k := by
  induction k generalizing s with
  | zero => rw [passed_zero_iff.1 h, Nat.add_zero]
  | succ k ih =>
    obtain ⟨reason, u, hstep, hrest⟩ := passed_succ_iff.1 h
    rw [ih hrest, tries_eq_of_step hstep]
    omega

/-- Tries without a report come off the tries that are made at most. -/
theorem Passed.runFor_add (h : l.Passed s k t) (n : Nat) : l.runFor (k + n) s = l.runFor n t := by
  induction k generalizing s with
  | zero => rw [passed_zero_iff.1 h, Nat.zero_add]
  | succ k ih =>
    obtain ⟨reason, u, hstep, hrest⟩ := passed_succ_iff.1 h
    rw [Nat.add_right_comm, runFor, hstep]
    exact ih hrest

/-- No report is made in a number of tries exactly if all of them pass. -/
theorem runFor_eq_none_iff : l.runFor n s = (.ok none, t) ↔ l.Passed s n t := by
  constructor
  · intro h
    induction n generalizing s with
    | zero =>
      cases h
      exact passed_zero_iff.2 rfl
    | succ n ih =>
      unfold runFor at h
      split at h
      · cases h
      · cases h
      · next hstep => exact passed_succ_iff.2 ⟨_, _, hstep, ih h⟩
  · intro h
    rw [← Nat.add_zero n, h.runFor_add]
    rfl

theorem ReportsAt.pos (h : l.ReportsAt s k r t) : 0 < k := by
  obtain ⟨j, u, rfl, -⟩ := h
  exact Nat.succ_pos j

theorem ReportsAt.succ {reason : Skip} (hstep : l.step s = (.ok (.again reason), u))
    (h : l.ReportsAt u k r t) : l.ReportsAt s (k + 1) r t := by
  obtain ⟨j, v, rfl, hpassed, hreport⟩ := h
  exact ⟨j + 1, v, rfl, passed_succ_iff.2 ⟨reason, u, hstep, hpassed⟩, hreport⟩

theorem ReportsAt.tries_eq (h : l.ReportsAt s k r t) :
    r.tries = s.tries + k ∧ t.tries = s.tries + k := by
  obtain ⟨j, u, rfl, hpassed, hstep⟩ := h
  have hcount : t.tries = s.tries + (j + 1) := by
    rw [tries_eq_of_step hstep, hpassed.tries_eq, Nat.add_assoc]
  exact ⟨(tries_of_step hstep).trans hcount, hcount⟩

/-- The first try that reports ends the tries, if there are enough of them. -/
theorem ReportsAt.runFor_eq (h : l.ReportsAt s k r t) (hk : k ≤ n) :
    l.runFor n s = (.ok (some r), t) := by
  obtain ⟨j, u, rfl, hpassed, hstep⟩ := h
  obtain ⟨m, rfl⟩ := Nat.exists_eq_add_of_le hk
  rw [Nat.add_assoc, hpassed.runFor_add, Nat.add_comm 1 m, runFor, hstep]

theorem reportsAt_of_runFor (h : l.runFor n s = (.ok (some r), t)) :
    ∃ k, k ≤ n ∧ l.ReportsAt s k r t := by
  induction n generalizing s with
  | zero => cases h
  | succ n ih =>
    unfold runFor at h
    split at h
    · cases h
    · next hstep =>
      cases h
      exact ⟨1, Nat.le_add_left 1 n, 0, s, rfl, passed_zero_iff.2 rfl, hstep⟩
    · next hstep =>
      obtain ⟨k, hk, hreports⟩ := ih h
      exact ⟨k + 1, Nat.succ_le_succ hk, hreports.succ hstep⟩

theorem passed_of_runFor_error {e : StepError} (h : l.runFor n s = (.error e, t)) :
    ∃ k u, k < n ∧ l.Passed s k u ∧ l.step u = (.error e, t) := by
  induction n generalizing s with
  | zero => cases h
  | succ n ih =>
    unfold runFor at h
    split at h
    · next hstep =>
      cases h
      exact ⟨0, s, Nat.succ_pos n, passed_zero_iff.2 rfl, hstep⟩
    · cases h
    · next hstep =>
      obtain ⟨k, u, hk, hpassed, hbreaks⟩ := ih h
      exact ⟨k + 1, u, Nat.succ_lt_succ hk, passed_succ_iff.2 ⟨_, _, hstep, hpassed⟩, hbreaks⟩

variable {maxTries : Int}

theorem run_eq_exhausted_iff {tries : Nat} : l.run maxTries s = (.error (.exhausted tries), t) ↔
    l.Passed s (maxTries - s.tries).toNat t ∧ t.tries = tries := by
  rw [← runFor_eq_none_iff]
  unfold run
  generalize l.runFor (maxTries - s.tries).toNat s = made
  obtain ⟨e | (- | r), u⟩ := made
  · simp
  · simp only [Prod.mk.injEq, Except.error.injEq, RunError.exhausted.injEq, true_and]
    constructor
    · rintro ⟨rfl, rfl⟩
      exact ⟨rfl, rfl⟩
    · rintro ⟨rfl, rfl⟩
      exact ⟨rfl, rfl⟩
  · simp

/-- A run that is given up goes on as if it had been allowed more tries at once. -/
theorem run_of_exhausted {tries : Nat} {maxTries' : Int} (hle : maxTries ≤ maxTries')
    (h : l.run maxTries s = (.error (.exhausted tries), t)) : l.run maxTries' t = l.run maxTries' s := by
  have hpassed := (run_eq_exhausted_iff.1 h).1
  have hcount := hpassed.tries_eq
  have hsplit : (maxTries' - s.tries).toNat =
      (maxTries - s.tries).toNat + (maxTries' - t.tries).toNat := by omega
  unfold run
  rw [hsplit, hpassed.runFor_add]

/-- A run makes its tries up to the first that reports, and has its result with the number of that try, if
the limit allows it. If no try breaks off and none reports within the limit, all tries that it allows are
made, and the run tells how many there were. A run that is given up can be continued: with a higher limit
the rest of the run comes to what a single run comes to, with the same tries, randomness and calls. -/
theorem run_budget (l : Loop γ φ σ) (s : LoopState γ (φ × List Call) σ) (n : Int) :
    (∀ (k : Nat) r t, l.observed.ReportsAt s k r t → s.tries + k ≤ n →
        l.observed.run n s = (.ok r, t) ∧ r.tries = s.tries + k ∧ t.tries = s.tries + k) ∧
      ((∀ (k : Nat) u, s.tries + k < n → l.observed.Passed s k u →
          ∃ step t, l.observed.step u = (.ok step, t)) →
        (∀ (k : Nat) r t, l.observed.ReportsAt s k r t → n < s.tries + k) →
        ∃ t, l.observed.Passed s (n - s.tries).toNat t ∧
          l.observed.run n s = (.error (.exhausted (max (s.tries : Int) n).toNat), t)) ∧
      ∀ m tries t, n ≤ m → l.observed.run n s = (.error (.exhausted tries), t) →
        l.observed.run m t = l.observed.run m s := by
  refine ⟨fun k r t h hk => ?_, fun hsteps hlate => ?_, fun m tries t hle h => run_of_exhausted hle h⟩
  · have hallowed : k ≤ (n - s.tries).toNat := by omega
    exact ⟨run_eq_ok_iff.2 (h.runFor_eq hallowed), h.tries_eq⟩
  · -- the tries come to an error, to a report or to neither, and the first two are excluded
    cases hmade : l.observed.runFor (n - s.tries).toNat s with
    | mk made t =>
      obtain e | (- | r) := made
      · obtain ⟨k, u, hk, hpassed, hbreaks⟩ := passed_of_runFor_error hmade
        obtain ⟨step, t', hstep⟩ := hsteps k u (by omega) hpassed
        rw [hbreaks] at hstep
        cases hstep
      · have hpassed := runFor_eq_none_iff.1 hmade
        have hcount := hpassed.tries_eq
        exact ⟨t, hpassed, run_eq_exhausted_iff.2 ⟨hpassed, by omega⟩⟩
      · obtain ⟨k, hk, hreports⟩ := reportsAt_of_runFor hmade
        have hbeyond := hlate k r t hreports
        have hpos := hreports.pos
        omega

def rejectedStart : LoopState Nat (Nat × List Call) Words := (lateStart []).observing []

/-- The first program is rejected and the second one reported: one try is not enough, and a second run that
allows two comes to the report. -/
theorem run_budget_rejectedFirst : ∃ t u,
    rejectedFirst.observed.run 1 rejectedStart = (.error (.exhausted 1), t) ∧
      rejectedFirst.observed.run 2 t = (.ok { lateReport with tries := 2, options := ⟨[]⟩ }, u) ∧
      rejectedFirst.observed.run 2 rejectedStart =
        (.ok { lateReport with tries := 2, options := ⟨[]⟩ }, u) ∧
      u.formatter.2.map Call.source = ["(\n", "y\n", "y\n#"] := by
  have hfirst : rejectedFirst.observed.step rejectedStart = (.ok (.again .syntaxRejected), _) := rfl
  have hsecond : rejectedFirst.observed.step (rejectedFirst.observed.step rejectedStart).2 =
      (.ok (.report { lateReport with tries := 2, options := ⟨[]⟩ }), _) := rfl
  have hreports : rejectedFirst.observed.ReportsAt rejectedStart 2 _ _ :=
    ⟨1, _, rfl, passed_succ_iff.2 ⟨_, _, hfirst, passed_zero_iff.2 rfl⟩, hsecond⟩
  have hsteps : ∀ (k : Nat) t, ((0 : Nat) : Int) + k < 1 →
      rejectedFirst.observed.Passed rejectedStart k t →
        ∃ step u, rejectedFirst.observed.step t = (.ok step, u) := by
    intro k t hk hpassed
    obtain rfl : k = 0 := by omega
    rw [passed_zero_iff.1 hpassed]
    exact ⟨_, _, hfirst⟩
  have hlate : ∀ (k : Nat) r t, rejectedFirst.observed.ReportsAt rejectedStart k r t →
      (1 : Int) < ((0 : Nat) : Int) + k := by
    rintro k r t ⟨j, u, rfl, hpassed, hstep⟩
    cases j with
    | zero =>
      rw [passed_zero_iff.1 hpassed, hfirst] at hstep
      cases hstep
    | succ j => omega
  obtain ⟨t, -, hexhausted⟩ := (run_budget rejectedFirst rejectedStart 1).2.1 hsteps hlate
  have hrun := ((run_budget rejectedFirst rejectedStart 2).1 2 _ _ hreports le_rfl).1
  have hagain := (run_budget rejectedFirst rejectedStart 1).2.2 2 1 t (by decide) hexhausted
  exact ⟨t, _, hexhausted, hagain.trans hrun, hrun, rfl⟩

end Loop

end FormatFuzz
