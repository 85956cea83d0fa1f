import FormatFuzz.Fault.Failure

namespace FormatFuzz

inductive Outcome
  | success (output : String)
  | failed (failure : Failure)
deriving DecidableEq, Repr

inductive OutcomeError
  | notExactlyOne
  | unknownKind (name : String)
  | unknownVerdict (name : String)
  | noSecondPass
deriving DecidableEq, Repr

def OutcomeError.message : OutcomeError → String
  | notExactlyOne => "FormatOutcome needs exactly one of output or failure"
  | unknownKind name => Text.quoted name ++ " is not a valid ErrorKind"
  | unknownVerdict name => Text.quoted name ++ " is not a valid Classification"
  | noSecondPass => "A successful first pass must be followed by a second pass"

namespace Outcome

/-- The outcome with exactly one of an output and a failure. -/
def ofParts : Option String → Option Failure → Except OutcomeError Outcome
  | some output, none => .ok (success output)
  | none, some failure => .ok (failed failure)
  | _, _ => .error .notExactlyOne

def output? : Outcome → Option String
  | success output => some output
  | failed _ => none

def failure? : Outcome → Option Failure
  | success _ => none
  | failed failure => some failure

/-- What is saved in place of the output of a pass that failed or was not made. -/
def noOutput : String := "<error>"

end Outcome

inductive Verdict
  | success
  | error
  | diff
deriving DecidableEq, Repr

namespace Verdict

def name : Verdict → String
  | success => "Success"
  | error => "Error"
  | diff => "Diff"

def ofName? : String → Option Verdict
  | "Success" => some success
  | "Error" => some error
  | "Diff" => some diff
  | _ => none

/-- The verdict on two passes. A first pass that succeeds must be followed by a second one. -/
def ofPasses (first : Outcome) (second : Option Outcome) : Except OutcomeError Verdict :=
  match first, second with
  | .failed _, _ => .ok error
  | _, some (.failed _) => .ok error
  | .success _, none => .error .noSecondPass
  | .success a, some (.success b) => .ok (if a = b then success else diff)

end Verdict

end FormatFuzz
