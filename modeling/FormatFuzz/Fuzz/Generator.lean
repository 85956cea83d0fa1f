import FormatFuzz.Fault.Basic
import FormatFuzz.Program.Respace
import FormatFuzz.Registry

namespace FormatFuzz

open FormatFuzz.Random

inductive GenerateError
  | depth (maxDepth : Int)
  | lex (error : Program.LexError)
  | fault (fault : Fault)

def GenerateError.message : GenerateError → String
  | depth d =>
    if (Primitive.int d).hasText then "max_depth must be positive, got " ++ toString d
    else Text.maxDigitsMessage none
  | lex e => e.message
  | fault f => f.lastLine

structure Generator (γ σ : Type) where
  /-- What a list of generators says about this one. -/
  about : String := ""
  generate : Int → γ → σ → Except GenerateError String × γ × σ

namespace Generator

variable {γ σ : Type}

def drawing (about : String) (draw : Nat → Draw σ (Except GenerateError String)) :
    Generator γ σ where
  about := about
  generate maxDepth own random :=
    if maxDepth ≤ 0 then (.error (.depth maxDepth), own, random)
    else
      let (program, random) := (draw maxDepth.toNat).run random
      (program, own, random)

def plain [Source σ] : Generator γ σ :=
  drawing "Random AST rendered by ast.unparse (canonical spacing)." fun depth => do
    return .ok (← Program.generatePlain depth)

def spaced [Source σ] : Generator γ σ :=
  drawing "Random AST with non-canonical spacing and comments." fun depth => do
    return (← Program.generateSpaced depth).mapError .lex

/-- A generator that goes round a list of programs. Its state is the number of calls. -/
def cycling (programs : List String) : Generator Nat σ where
  generate _ calls random := (.ok (programs.getD (calls % programs.length) ""), calls + 1, random)

def failing (fault : Fault) : Generator γ σ where
  generate _ own random := (.error (.fault fault), own, random)

def builtin [Source σ] : Registry (Generator γ σ) := ⟨[("ast", plain), ("tokens", spaced)]⟩

end Generator

end FormatFuzz
