import FormatFuzz.Decimal.Binary64

/-!
# The fewest digits that read back

The decimals that round to a double form an interval around it. Of the decimals with one digit, two
digits, and so on up to seventeen, the first that has a member in the interval is taken; of two
neighbours in the interval the nearer one, of two equally near the one with the even last digit.
-/

namespace FormatFuzz.Decimal

/-- A quarter of the last place of a double, as a quotient of natural numbers. -/
def Binary64.quarter (x : Binary64) : Nat × Nat :=
  if 2 ≤ x.exponent then (1 <<< (x.exponent - 2).toNat, 1) else (1, 1 <<< (2 - x.exponent).toNat)

def Binary64.lowest (x : Binary64) : Nat :=
  if x.significand = 0x10000000000000 ∧ 1 < x.exponentField then 4 * x.significand - 1
  else 4 * x.significand - 2

def Binary64.highest (x : Binary64) : Nat := 4 * x.significand + 2

structure Digits where
  digits : Nat
  exponent : Int
deriving DecidableEq, Repr

namespace Digits

def length (n : Nat) : Nat := if h : n = 0 then 0 else length (n / 10) + 1
termination_by n
decreasing_by omega

/-- The `e` with `10 ^ (e - 1) ≤ num / den < 10 ^ e`, for a quotient below one looked for among the
first `tries` negative powers. -/
def magnitudeBelowOne (num den : Nat) : (tries : Nat) → Int
  | 0 => 0
  | tries + 1 => if den ≤ num * 10 then 0 else magnitudeBelowOne (num * 10) den tries - 1

def magnitude (num den : Nat) : Int :=
  if den ≤ num then length (num / den) else magnitudeBelowOne num den 400

/-- The last digit's factors of ten taken into the exponent. -/
def strip (d : Digits) : Digits :=
  if h : d.digits = 0 then d
  else if d.digits % 10 = 0 then strip ⟨d.digits / 10, d.exponent + 1⟩ else d
termination_by d.digits
decreasing_by omega

/-- Whether a decimal lies in the interval of a double, whose ends belong to it if the significand is
even. -/
def inside (x : Binary64) (d : Digits) : Bool :=
  let up := Nat.pow 10 (-d.exponent).toNat
  let value := d.digits * (x.quarter.2 * Nat.pow 10 d.exponent.toNat)
  let low := x.lowest * x.quarter.1 * up
  let high := x.highest * x.quarter.1 * up
  if x.significand % 2 = 0 then low ≤ value && value ≤ high else low < value && value < high

/-- The decimal of at most `count` digits that rounds to the double, if there is one. -/
def ofCount? (x : Binary64) (count : Nat) : Option Digits :=
  let value := 4 * x.significand * x.quarter.1
  let e := magnitude value x.quarter.2 - count
  -- the double is `num / den` units of the last decimal digit
  let num := value * Nat.pow 10 (-e).toNat
  let den := x.quarter.2 * Nat.pow 10 e.toNat
  let below := num / den
  let rest := num % den
  let pick :=
    if inside x ⟨below, e⟩ && inside x ⟨below + 1, e⟩ then
      if 2 * rest < den then some below
      else if den < 2 * rest then some (below + 1)
      else if below % 2 = 0 then some below else some (below + 1)
    else if inside x ⟨below, e⟩ then some below
    else if inside x ⟨below + 1, e⟩ then some (below + 1)
    else none
  pick.map fun d => strip ⟨d, e⟩

def shortest (x : Binary64) : Digits :=
  ((List.range 17).findSome? fun n => ofCount? x (n + 1)).getD ⟨0, 0⟩

end Digits

end FormatFuzz.Decimal
