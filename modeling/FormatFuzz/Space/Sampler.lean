import FormatFuzz.Space.Spec
import FormatFuzz.Options

namespace FormatFuzz

open FormatFuzz.Random

abbrev Space := List (String × Spec)

/-- The domains of one space, those of another put in place of equally named ones or behind them. -/
def Space.override (space other : Space) : Space :=
  other.foldl (fun space (name, spec) =>
    if space.any (·.1 == name) then space.map fun e => if e.1 == name then (name, spec) else e
    else space ++ [(name, spec)]) space

inductive SampleError
  | spec (error : SpecError)
  | options (issues : List OptionIssue)
deriving Repr

structure Sampler where
  space : Space
deriving Repr

namespace Sampler

variable {σ : Type} [Source σ]

/-- Accepts a space if it accepts every domain; the first that it does not is reported. -/
def ofSpace (space : Space) : Except SpecError Sampler := do
  for (name, spec) in space do
    spec.check name
  return ⟨space⟩

/-- A value for every option of the space, in order, up to the first that cannot be drawn. -/
def drawAll : Space → Draw σ (Except SpecError (List (Data × Data)))
  | [] => return .ok []
  | (name, spec) :: rest => do
    match ← spec.draw name with
    | .error e => return .error e
    | .ok value => return (← drawAll rest).map ((.str name, value) :: ·)

def sample (s : Sampler) : Draw σ (Except SampleError Options) := do
  match ← drawAll s.space with
  | .error e => return .error (.spec e)
  | .ok entries => return (Options.ofData (.dict entries)).mapError .options

def contains (s : Sampler) (options : Options) : Except SpecError Bool :=
  s.space.allM fun (name, spec) =>
    match options.get? name with
    | none => .ok false
    | some value => spec.contains (.prim value)

end Sampler

end FormatFuzz
