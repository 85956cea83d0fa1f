/-!
# Random draws

A source of randomness hands out 32-bit words one after another. Everything random in this library
is a computation in `Draw`, so its result depends on the words alone and every statement about it
can be made for all streams of words.

A bounded integer is drawn by rejection: the fewest bits that can hold the bound are taken from the
source until they fall below it.
-/

namespace FormatFuzz.Random

/-- A state from which one 32-bit word after another can be taken. -/
class Source (σ : Type) where
  nextWord : σ → UInt32 × σ

/-- A computation that may take words from a source. -/
abbrev Draw (σ : Type) := StateM σ

namespace Draw

variable {σ : Type} [Source σ] {α : Type}

def word : Draw σ Nat := fun s =>
  let (w, s) := Source.nextWord s
  (w.toNat, s)

/-- `full` whole words followed by the top `rest` bits of one more, least significant word first. -/
def wordsThenBits : (full rest : Nat) → Draw σ Nat
  | 0, rest => do return (← word) >>> (32 - rest)
  | full + 1, rest => do
    let low ← word
    let high ← wordsThenBits full rest
    return low + high <<< 32

/-- A uniform number below `2 ^ count`. No bits cost no word. -/
def bits : Nat → Draw σ Nat
  | 0 => pure 0
  | count + 1 => wordsThenBits (count / 32) (count % 32 + 1)

/-- How often a bounded draw starts over before it settles for a remainder. -/
def patience : Nat := 100000

/-- The first of at most `tries + 1` numbers of `width` bits that is below `bound`; if none is, the
remainder of the last one. -/
def firstBelow (bound width : Nat) : (tries : Nat) → Draw σ Nat
  | 0 => do return (← bits width) % bound
  | tries + 1 => do
    let r ← bits width
    if r < bound then return r else firstBelow bound width tries

/-- A uniform number below `bound`; zero, without a draw, if the bound is zero. -/
def below (bound : Nat) : Draw σ Nat :=
  if bound = 0 then return 0 else firstBelow bound (bound.log2 + 1) patience

/-- A uniform integer from `low` to `high`, both included; `low` if there is none. -/
def between (low high : Int) : Draw σ Int :=
  if low ≤ high then do return low + (← below (high - low + 1).toNat) else return low

def fraction : Draw σ Nat := do
  let a ← word
  let b ← word
  return (a >>> 5) <<< 26 + b >>> 6

/-- True with probability `part / whole`, rounded to a multiple of `2 ^ (-53)`. -/
def chance (part whole : Nat) : Draw σ Bool := do
  return (← fraction) < ((2 * part) <<< 53 + whole) / (2 * whole)

def choose (xs : List α) (nonempty : 0 < xs.length := by decide) : Draw σ α := do
  let i ← below xs.length
  return if h : i < xs.length then xs[i] else xs[0]

/-- Nothing with `blanks` chances out of `blanks + 1`, else the value. -/
def optional (blanks : Nat) (x : α) : Draw σ (Option α) := do
  return if (← below (blanks + 1)) < blanks then none else some x

def times (draw : Draw σ α) : Nat → Draw σ (List α)
  | 0 => pure []
  | count + 1 => do
    let x ← draw
    let rest ← times draw count
    return x :: rest

/-- Up to `count` elements at pairwise different positions of a list: each is taken out and the last
remaining element moves into its place. -/
def distinct : (pool : List α) → (count : Nat) → Draw σ (List α)
  | _, 0 => pure []
  | [], _ + 1 => pure []
  | head :: tail, count + 1 => do
    let pool := head :: tail
    let i ← below pool.length
    let rest := (pool.set i (pool.getLastD head)).dropLast
    return pool.getD i head :: (← distinct rest count)

end Draw

end FormatFuzz.Random
