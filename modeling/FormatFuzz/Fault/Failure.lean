import FormatFuzz.Fault.Basic

namespace FormatFuzz

structure Failure where
  kind : FailureKind
  message : String
  detail : String
deriving DecidableEq, Repr

/-- Faults whose class and message hold this were raised by an input that is no program. -/
def defaultSyntaxErrorPattern : String := "SyntaxError|Cannot parse"

def Fault.failureKind (rejections : List String) (rejected : Option (String → Bool)) (f : Fault)
    (message : String) : FailureKind :=
  match f.declared with
  | some kind => kind
  | none =>
    if rejections.any f.errorClass.isA ||
        rejected.any (fun test => test (f.errorClass.name ++ ": " ++ message))
      then .inputSyntax else .internal

/-- The failure that is kept of a fault. A fault that cannot say what it is leaves none; what came out
of its attempt comes out instead. -/
def Failure.ofFault (rejections : List String) (rejected : Option (String → Bool)) (f : Fault) :
    Except Fault Failure := do
  let message ← f.message
  return { kind := f.failureKind rejections rejected message, message, detail := ← f.detail }

end FormatFuzz
