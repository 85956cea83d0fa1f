import FormatFuzz.Command.Run
import FormatFuzz.Command.Init
import FormatFuzz.Command.Generators

namespace FormatFuzz

open FormatFuzz.Random

def helpRule : OptionRule := ⟨["--help"], false⟩

structure ProgramEnd where
  finish : CommandEnd
  /-- What is said about options that were left out of account. -/
  ignored : List String
  disk : Disk

def plainArguments (most : Nat) (args : List String) : Except Nat (List String) :=
  match Arguments.read [helpRule] false false args with
  | none => .error usageCode
  | some a =>
    if a.has "--help" then .error 0
    else if most < a.others.length then .error usageCode
    else .ok a.others

variable {γ φ : Type}

def runWith (backends : Backends γ φ Twister) (around : Surroundings) (patience : Nat)
    (args : List String) (d : Disk) : Option ProgramEnd :=
  match Arguments.read RunArguments.rules true false args with
  | none => some ⟨.usage usageCode, [], d⟩
  | some a =>
    if a.has "--help" then some ⟨.usage 0, [], d⟩
    else match RunArguments.ofArguments a with
      | none => some ⟨.usage usageCode, [], d⟩
      | some a => (runCommand backends around patience a d).map fun (e, d) =>
          ⟨e, a.ignoredMessages, d⟩

/-- The program with its arguments. There is no end if a run without a bound needs more tries than
`patience`. -/
def program (backends : Backends γ φ Twister) (around : Surroundings) (patience : Nat)
    (args : List String) (d : Disk) : Option ProgramEnd :=
  let usage (code : Nat) : Option ProgramEnd := some ⟨.usage code, [], d⟩
  match Arguments.read [helpRule] false true args with
  | none => usage usageCode
  | some a =>
    if a.has "--help" then usage 0
    else match a.others with
      | "run" :: rest => runWith backends around patience rest d
      | "init" :: rest =>
        match plainArguments 1 rest with
        | .error code => usage code
        | .ok paths =>
          let (e, d) := initCommand around.cwd (paths.headD ".") d
          some ⟨e, [], d⟩
      | "generators" :: rest =>
        match plainArguments 0 rest with
        | .error code => usage code
        | .ok _ =>
          some ⟨generatorsCommand ⟨backends.generators.entries.map fun (n, g) =>
            (n, g.1.about)⟩, [], d⟩
      | _ => usage usageCode

end FormatFuzz
