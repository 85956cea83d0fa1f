import FormatFuzz.Fuzz.Outcome
import FormatFuzz.Options
import FormatFuzz.Diff.Segment

namespace FormatFuzz

structure GeneratedProgram where
  source : String
  maxDepth : Int
  backend : String
deriving DecidableEq, Repr

structure RunResult where
  tries : Nat
  program : GeneratedProgram
  options : Options
  first : Outcome
  second : Option Outcome
  verdict : Verdict
  diff : Option (List Segment)
deriving Repr

namespace RunResult

def failures (r : RunResult) : List (Nat × Failure) :=
  let failed (number : Nat) (pass : Option Outcome) : List (Nat × Failure) :=
    match pass.bind Outcome.failure? with
    | some f => [(number, f)]
    | none => []
  failed 1 r.first ++ failed 2 r.second

end RunResult

/-- The difference that belongs to a verdict: that of two outputs, if they differ. -/
def diffFor (verdict : Verdict) (first : Outcome) (second : Option Outcome) :
    Option (List Segment) :=
  match verdict, first, second with
  | .diff, .success a, some (.success b) => some (diffChars a b)
  | _, _, _ => none

end FormatFuzz
