import FormatFuzz.Fuzz.Check
import FormatFuzz.Fuzz.Filter
import FormatFuzz.Fuzz.Generator
import FormatFuzz.Fuzz.Result

namespace FormatFuzz

open FormatFuzz.Random

structure RunSettings where
  maxDepth : Int := 7
  generator : String := "ast"
  showParseErrors : Bool := false
  showSuccesses : Bool := false
deriving DecidableEq, Repr

structure Replay where
  source : String
  options : Options
deriving DecidableEq, Repr

/-- All that a run depends on. With an entry to replay it is replayed. -/
structure Loop (γ φ σ : Type) where
  generator : Generator γ σ
  sampler : Sampler
  checker : Checker φ
  filter : BoringFilter
  settings : RunSettings := {}
  replay : Option Replay := none

structure LoopState (γ φ σ : Type) where
  generator : γ
  formatter : φ
  random : σ
  tries : Nat := 0
  /-- What was logged, the latest line first. -/
  log : List String := []

inductive Skip
  | boring
  | syntaxRejected
  | success
deriving DecidableEq, Repr

def Skip.name : Skip → String
  | boring => "boring"
  | syntaxRejected => "syntax"
  | success => "success"

inductive Step
  | again (reason : Skip)
  | report (result : RunResult)

inductive StepError
  | generator (error : GenerateError)
  | sampling (error : SampleError)
  | interrupted (fault : Fault)
  | verdict (error : OutcomeError)

inductive RunError
  | step (error : StepError)
  | exhausted (tries : Nat)

def exhaustedMessage (tries : Nat) : String :=
  "Nothing to report after " ++ toString tries ++ " tries"

def noReplayMessage : String := "Reproduction mode needs a persisted program to replay"

/-- The generator named in the results of replays. -/
def replayBackend : String := "replay"

def Step.logLine? (tries : Nat) : Step → Option String
  | again .boring => some ("Try " ++ toString tries ++ ": discarded boring program")
  | again .syntaxRejected =>
    some ("Try " ++ toString tries ++ ": discarded input rejected as invalid syntax")
  | again .success => none
  | report r => some ("Try " ++ toString tries ++ ": " ++ r.verdict.name)

namespace Loop

variable {γ φ σ : Type} [Source σ]

def discardsRejected (l : Loop γ φ σ) : Bool := l.replay.isNone && !l.settings.showParseErrors

def reports (l : Loop γ φ σ) (verdict : Verdict) : Bool :=
  verdict != .success || l.settings.showSuccesses || l.replay.isSome

def nextProgram (l : Loop γ φ σ) (s : LoopState γ φ σ) :
    Except StepError GeneratedProgram × LoopState γ φ σ :=
  match l.replay with
  | some entry => (.ok ⟨entry.source, l.settings.maxDepth, replayBackend⟩, s)
  | none =>
    let (made, generator, random) :=
      l.generator.generate l.settings.maxDepth s.generator s.random
    let s := { s with generator, random }
    match made with
    | .error e => (.error (.generator e), s)
    | .ok source => (.ok ⟨source, l.settings.maxDepth, l.settings.generator⟩, s)

def nextOptions (l : Loop γ φ σ) (s : LoopState γ φ σ) :
    Except StepError Options × LoopState γ φ σ :=
  match l.replay with
  | some entry => (.ok entry.options, s)
  | none =>
    let (drawn, random) := l.sampler.sample.run s.random
    (drawn.mapError .sampling, { s with random })

def judge (l : Loop γ φ σ) (tries : Nat) (program : GeneratedProgram) (options : Options)
    (passes : Option Passes) : Except StepError Step :=
  match passes with
  | none => .ok (.again .syntaxRejected)
  | some passes =>
    match passes.verdict with
    | .error e => .error (.verdict e)
    | .ok verdict =>
      if l.reports verdict then
        .ok (.report ⟨tries, program, options, passes.first, passes.second, verdict,
          diffFor verdict passes.first passes.second⟩)
      else .ok (.again .success)

def tryProgram (l : Loop γ φ σ) (program : GeneratedProgram) (s : LoopState γ φ σ) :
    Except StepError Step × LoopState γ φ σ :=
  match l.nextOptions s with
  | (.error e, s) => (.error e, s)
  | (.ok options, s) =>
    let (passes, formatter) :=
      l.checker.check l.discardsRejected program.source options s.formatter
    let s := { s with formatter }
    match passes with
    | .error fault => (.error (.interrupted fault), s)
    | .ok passes => (l.judge s.tries program options passes, s)

def attempt (l : Loop γ φ σ) (s : LoopState γ φ σ) :
    Except StepError Step × LoopState γ φ σ :=
  match l.nextProgram { s with tries := s.tries + 1 } with
  | (.error e, s) => (.error e, s)
  | (.ok program, s) =>
    if l.filter.discards l.replay.isSome program.source then (.ok (.again .boring), s)
    else l.tryProgram program s

def step (l : Loop γ φ σ) (s : LoopState γ φ σ) : Except StepError Step × LoopState γ φ σ :=
  match l.attempt s with
  | (.error e, s) => (.error e, s)
  | (.ok step, s) => (.ok step, { s with log := (step.logLine? s.tries).toList ++ s.log })

def runFor (l : Loop γ φ σ) : Nat → LoopState γ φ σ →
    Except StepError (Option RunResult) × LoopState γ φ σ
  | 0, s => (.ok none, s)
  | n + 1, s =>
    match l.step s with
    | (.error e, s) => (.error e, s)
    | (.ok (.report r), s) => (.ok (some r), s)
    | (.ok (.again _), s) => l.runFor n s

/-- Tries up to the first report, as long as fewer than `maxTries` have been made. -/
def run (l : Loop γ φ σ) (maxTries : Int) (s : LoopState γ φ σ) :
    Except RunError RunResult × LoopState γ φ σ :=
  match l.runFor (maxTries - s.tries).toNat s with
  | (.error e, s) => (.error (.step e), s)
  | (.ok (some r), s) => (.ok r, s)
  | (.ok none, s) => (.error (.exhausted s.tries), s)

end Loop

end FormatFuzz
