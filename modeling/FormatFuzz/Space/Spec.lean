import FormatFuzz.Text.Integer
import FormatFuzz.Random.Source

/-!
# Option domains

The domain of an option is described by a mapping: `values` lists candidates, or `distribution` is
`int_uniform` and `min` and `max` bound an integer, both included and zero if they are missing. Where
both are given the candidates count.

`Spec.check` accepts the descriptions of a domain that has members. Drawing and membership are
defined for every mapping and fail where the description makes no sense.
-/

namespace FormatFuzz

open FormatFuzz.Random

inductive SpecError
  | emptyValues (name : String)
  | needsValues (name : String)
  | noDomain (name : String)
  | unknownDistribution (distribution : Data)
  | needsIntegers (name : String)
  | reversed (name : String) (low high : Int)
  | emptyRange (low high : Int)
  | bound (problem : IntegerProblem)
  | noLength (kind : String)
  | noItems (kind : String)
  | noCandidate (index : Nat)
deriving Repr

def SpecError.saying (values : List Data) (text : String) : String :=
  if values.all Data.hasText then text else Text.maxDigitsMessage none

def SpecError.message : SpecError → String
  | emptyValues name => "Option '" ++ name ++ "' has an empty 'values' list"
  | needsValues name => "Option '" ++ name ++ "' needs a non-empty 'values' list"
  | noDomain name => "Option '" ++ name ++ "' must have 'values' or 'distribution'"
  | unknownDistribution d => saying [d] ("Unknown distribution: " ++ d.text)
  | needsIntegers name => "Option '" ++ name ++ "' needs integer 'min' and 'max'"
  | reversed name low high =>
    saying [.int low, .int high] ("Option '" ++ name ++ "' has min " ++ toString low ++
      " greater than max " ++ toString high)
  | emptyRange low high =>
    saying [.int low, .int (high + 1), .int (high + 1 - low)]
      ("empty range for randrange() (" ++ toString low ++ ", " ++ toString (high + 1) ++ ", " ++
        toString (high + 1 - low) ++ ")")
  | bound problem => problem.message
  | noLength kind => "object of type '" ++ kind ++ "' has no len()"
  | noItems kind => "'" ++ kind ++ "' object is not iterable"
  | noCandidate index => toString index

structure Spec where
  fields : List (Data × Data)
deriving Repr, Inhabited

namespace Spec

def get? (spec : Spec) (field : String) : Option Data := Data.find? spec.fields (.str field)

/-- A bound of the range; zero if it is missing. -/
def bound (spec : Spec) (field : String) : Data := (spec.get? field).getD (.int 0)

def bound? (spec : Spec) (field : String) : Except SpecError Int :=
  (spec.bound field).integer?.mapError .bound

def isUniform (distribution : Data) : Bool := distribution.equal (.str "int_uniform")

def characters (s : String) : List Data := s.toList.map fun c => .str (String.singleton c)

def candidate? (values : Data) (index : Nat) : Except SpecError Data :=
  let found := match values with
    | .list items => items[index]?
    | .prim (.str s) => (characters s)[index]?
    | .dict entries => Data.find? entries (.int index)
    | _ => none
  found.elim (.error (.noCandidate index)) .ok

def count? : Data → Except SpecError Nat
  | .list items => .ok items.length
  | .prim (.str s) => .ok s.length
  | .dict entries => .ok entries.length
  | v => .error (.noLength v.kind)

def members? : Data → Except SpecError (List Data)
  | .list items => .ok items
  | .prim (.str s) => .ok (characters s)
  | .dict entries => .ok (entries.map (·.1))
  | v => .error (.noItems v.kind)

def draw {σ : Type} [Source σ] (name : String) (spec : Spec) : Draw σ (Except SpecError Data) :=
  match spec.get? "values", spec.get? "distribution" with
  | some values, _ =>
    if values.truthy then
      match count? values with
      | .ok count => do return candidate? values (← Draw.below count)
      | .error e => return .error e
    else return .error (.emptyValues name)
  | none, some distribution =>
    if isUniform distribution then
      match spec.bound? "min", spec.bound? "max" with
      | .ok low, .ok high =>
        if low ≤ high then do return .ok (.int (← Draw.between low high))
        else return .error (.emptyRange low high)
      | .error e, _ => return .error e
      | _, .error e => return .error e
    else return .error (.unknownDistribution distribution)
  | none, none => return .error (.noDomain name)

def check (name : String) (spec : Spec) : Except SpecError Unit :=
  match spec.get? "values", spec.get? "distribution" with
  | some (.list (_ :: _)), _ => .ok ()
  | some _, _ => .error (.needsValues name)
  | none, none => .error (.noDomain name)
  | none, some distribution =>
    if isUniform distribution then
      match spec.bound "min", spec.bound "max" with
      | .prim (.int low), .prim (.int high) =>
        if high < low then .error (.reversed name low high) else .ok ()
      | _, _ => .error (.needsIntegers name)
    else .error (.unknownDistribution distribution)

def same (a b : Data) : Bool := a.equal b && a.kind == b.kind

/-- Whether a value lies in the domain. The upper bound is looked at only if the lower one holds. -/
def contains (spec : Spec) (value : Data) : Except SpecError Bool :=
  match spec.get? "values" with
  | some values => do return (← members? values).any (same value)
  | none =>
    if ((spec.get? "distribution").map isUniform).getD false then
      match value with
      | .prim (.int n) => do
        if (← spec.bound? "min") ≤ n then return n ≤ (← spec.bound? "max") else return false
      | _ => .ok false
    else .ok false

end Spec

end FormatFuzz
