import FormatFuzz.Fuzz.Formatter
import FormatFuzz.Fuzz.Outcome

namespace FormatFuzz

/-- A formatter with a test on the messages of faults that tells rejected programs. -/
structure Checker (φ : Type) where
  formatter : Formatter φ
  rejected : String → Bool

structure Passes where
  first : Outcome
  second : Option Outcome
deriving DecidableEq, Repr

namespace Passes

def verdict (p : Passes) : Except OutcomeError Verdict := Verdict.ofPasses p.first p.second

end Passes

namespace Checker

variable {φ : Type}

def pass (c : Checker φ) (source : String) (options : Options) (s : φ) :
    Except Fault Outcome × φ :=
  match c.formatter.format source options s with
  | (.ok output, s) => (.ok (.success output), s)
  | (.error fault, s) =>
    if fault.errorClass.isFailure then
      ((Failure.ofFault c.formatter.rejections (some c.rejected) fault).map .failed, s)
    else (.error fault, s)

/-- Both passes, or nothing if the first one rejects the program and `discard` is set. -/
def check (c : Checker φ) (discard : Bool) (source : String) (options : Options) (s : φ) :
    Except Fault (Option Passes) × φ :=
  match c.pass source options s with
  | (.error fault, s) => (.error fault, s)
  | (.ok (.failed failure), s) =>
    if discard && failure.kind == .inputSyntax then (.ok none, s)
    else (.ok (some ⟨.failed failure, none⟩), s)
  | (.ok (.success output), s) =>
    match c.pass output options s with
    | (.error fault, s) => (.error fault, s)
    | (.ok second, s) => (.ok (some ⟨.success output, some second⟩), s)

end Checker

end FormatFuzz
