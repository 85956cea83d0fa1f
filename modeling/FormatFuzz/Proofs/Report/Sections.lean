import FormatFuzz.Proofs.Fuzz.Consistent
import FormatFuzz.Report.Sections

namespace FormatFuzz

open FormatFuzz.Random

theorem isCursorControl_of_le {c : Char} (h : 32 ≤ c.toNat) : isCursorControl c = false := by
  have hne : ∀ d : Char, d.toNat < 32 → (c == d) = false := by
    intro d hd
    rw [beq_eq_false_iff_ne]
    rintro rfl
    omega
  simp [isCursorControl, hne]

theorem toNat_of_mem_toString {n : Nat} {c : Char} (h : c ∈ (toString n).toList) :
    48 ≤ c.toNat ∧ c.toNat ≤ 57 := by
  rw [Nat.toString_eq_ofList_toDigits, String.toList_ofList] at h
  exact Char.isDigit_iff_toNat.1 (Nat.isDigit_of_mem_toDigits (by decide) (by decide) h)

theorem withoutControls_toString (n : Nat) : withoutControls (toString n) = toString n :=
  withoutControls_eq_self fun _ hc =>
    isCursorControl_of_le (Nat.le_trans (by decide) (toNat_of_mem_toString hc).1)

theorem Options.withoutControls_toJson (o : Options) : withoutControls o.toJson = o.toJson := by
  refine withoutControls_eq_self fun c hc => ?_
  rcases o.le_toNat_toJson c hc with rfl | hle
  · rfl
  · exact isCursorControl_of_le hle

namespace Report

variable {r : RunResult}

theorem separator_eq (width : Nat) :
    separator width = .text ⟨String.ofList (List.replicate width '─'), "dim", []⟩ := by
  rw [separator, StyledText.plain, withoutControls_eq_self]
  intro c hc
  rw [String.toList_ofList] at hc
  rw [List.eq_of_mem_replicate hc]
  rfl

def statusEnd (tries : Nat) (reproduce : Bool) : String :=
  (if tries = 1 then " try. " else " tries. ") ++
    if reproduce then "Reproduced with `--reproduce`." else "Add `--reproduce` to reproduce, or play with:"

theorem status_eq (r : RunResult) (reproduce : Bool) : status r reproduce =
    ⟨r.verdict.name ++ " after " ++ toString r.tries ++ statusEnd r.tries reproduce, "",
      [⟨0, r.verdict.name.length, r.verdict.style⟩]⟩ := by
  have hname : withoutControls r.verdict.name = r.verdict.name := by cases r.verdict <;> rfl
  have hspan : (r.verdict.name.isEmpty || r.verdict.style.isEmpty) = false := by
    cases r.verdict <;> rfl
  have hafter : withoutControls " after " = " after " := rfl
  have hend : withoutControls (" " ++ (if r.tries = 1 then "try" else "tries") ++ ". " ++
      if reproduce then "Reproduced with `--reproduce`."
      else "Add `--reproduce` to reproduce, or play with:") = statusEnd r.tries reproduce := by
    unfold statusEnd
    cases reproduce <;> split <;> rfl
  simp only [String.append_assoc] at hend
  simp only [status, StyledText.append, StyledText.empty, hname, hspan, String.append_assoc]
  rw [withoutControls_append, withoutControls_append, hend, hafter, withoutControls_toString]
  simp

/-- The section that tells what came of a program, for each verdict. -/
inductive Tells (r : RunResult) : Section → Prop
  | difference {a b : String} : r.verdict = .diff → r.first = .success a →
      r.second = some (.success b) → a ≠ b → Tells r (.text (renderDiff (diffChars a b)))
  | stable {a : String} : r.verdict = .success → r.first = .success a →
      r.second = some (.success a) → Tells r (.code a)
  | failure {number : Nat} {f : Failure} : r.verdict = .error →
      number = 1 ∧ r.first = .failed f ∨ number = 2 ∧ r.second = some (.failed f) →
      Tells r (.text (.plain ("formatter pass " ++ toString number ++ " error:\n" ++ f.detail)))

/-- Of the difference, the stable output and the failures, exactly one is there. -/
theorem exists_tells (hcomplete : Passes.Complete ⟨r.first, r.second⟩)
    (hverdict : Passes.verdict ⟨r.first, r.second⟩ = .ok r.verdict)
    (hdiff : r.diff = diffFor r.verdict r.first r.second) :
    ∃ told, Tells r told ∧
      body r ++ (r.failures.map fun (number, f) => failed number f.detail) = [told] := by
  obtain ⟨tries, program, options, first, second, v, diff⟩ := r
  obtain rfl : diff = diffFor v first second := hdiff
  cases hcomplete with
  | failed f =>
    obtain rfl : .error = v := Except.ok.inj hverdict
    exact ⟨_, .failure rfl (.inl ⟨rfl, rfl⟩), rfl⟩
  | passed output second =>
    cases second with
    | failed f =>
      obtain rfl : .error = v := Except.ok.inj hverdict
      exact ⟨_, .failure rfl (.inr ⟨rfl, rfl⟩), rfl⟩
    | success output' =>
      obtain rfl : (if output = output' then .success else .diff) = v := Except.ok.inj hverdict
      by_cases heq : output = output'
      · subst heq
        simp only [if_true]
        exact ⟨_, .stable rfl rfl rfl, rfl⟩
      · simp only [if_neg heq]
        exact ⟨_, .difference rfl rfl rfl heq, rfl⟩

variable {γ φ σ : Type} [Source σ] {l : Loop γ φ σ} {s : LoopState γ φ σ}

/-- The report on every result of a loop, replayed or not, has the program, a separator, the one section
that belongs to the verdict, a separator, the options, a separator and the verdict with the number of
tries. The command comes last, if there is one and nothing is replayed. A separator is as long as the
terminal is wide, and no character of the options or of the last line is left out. -/
theorem sections_reported (h : l.Reports s r) (width : Nat) (reproduce : Bool)
    (command : Option String) :
    ∃ told line options state last,
      sections r width reproduce command =
        [.code r.program.source, .text line, told, .text line, .text options, .text line,
          .text state] ++ last ∧
      Tells r told ∧ line.text.toList = List.replicate width '─' ∧
      options.text = r.options.toJson ∧
      state.text = r.verdict.name ++ " after " ++ toString r.tries ++ statusEnd r.tries reproduce ∧
      (∀ c, reproduce = false → command = some c → last = [.text (.plain c)]) ∧
      (reproduce = true ∨ command = none → last = []) := by
  obtain ⟨⟨t, hcheck⟩, hverdict, hdiff, -⟩ := h.reported
  obtain ⟨told, htells, htold⟩ := exists_tells (Checker.check_complete hcheck) hverdict hdiff
  refine ⟨told, ⟨String.ofList (List.replicate width '─'), "dim", []⟩, .plain r.options.toJson,
    status r reproduce, if reproduce then [] else command.toList.map fun c => .text (.plain c),
    ?_, htells, String.toList_ofList, r.options.withoutControls_toJson,
    congrArg StyledText.text (status_eq r reproduce), ?_, ?_⟩
  · simp only [sections, List.append_assoc [_, _] (body r), htold, separator_eq]
    rfl
  · rintro c rfl rfl
    rfl
  · rintro (rfl | rfl)
    · rfl
    · exact ite_self _

def lateReplayReport : RunResult :=
  { Loop.lateReport with tries := 1, program := ⟨"y\n", 7, replayBackend⟩ }

/-- The report on a replay ends with the verdict, though there is a command. -/
theorem sections_reported_lateReplay :
    Loop.lateReplay.Reports { Loop.lateStart [] with formatter := 3 } lateReplayReport ∧
      ∃ told line options state, sections lateReplayReport 5 true (some "fmt x") =
          [.code "y\n", .text line, told, .text line, .text options, .text line, .text state] ∧
        Tells lateReplayReport told ∧ line.text = "─────" ∧
        state.text = "Diff after 1 try. Reproduced with `--reproduce`." := by
  have hreports : Loop.lateReplay.Reports { Loop.lateStart [] with formatter := 3 } lateReplayReport :=
    .step rfl
  obtain ⟨told, line, options, state, last, hsections, htells, hline, -, hstate, -, hlast⟩ :=
    sections_reported hreports 5 true (some "fmt x")
  rw [hlast (.inl rfl), List.append_nil] at hsections
  refine ⟨hreports, told, line, options, state, hsections, htells, ?_, hstate⟩
  rw [← String.ofList_toList (s := line.text), hline]
  rfl

end Report

end FormatFuzz
