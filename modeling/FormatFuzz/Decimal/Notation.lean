import FormatFuzz.Decimal.Shortest

namespace FormatFuzz.Decimal

structure Style where
  /-- The least position of the point, counted from before the first digit, without exponent. -/
  leastPoint : Int
  /-- The greatest such position. -/
  greatestPoint : Int
  /-- The least number of digits of the exponent. -/
  exponentDigits : Nat
  infinity : String
  negativeInfinity : String
  nan : String

def digitsOf (n : Nat) : List Char := Nat.toDigits 10 n

def padLeft (width : Nat) (cs : List Char) : List Char :=
  List.replicate (width - cs.length) '0' ++ cs

namespace Style

def magnitude (style : Style) (d : Digits) : List Char :=
  let ds := digitsOf d.digits
  let point : Int := ds.length + d.exponent
  if style.leastPoint ≤ point ∧ point ≤ style.greatestPoint then
    if point ≤ 0 then '0' :: '.' :: (List.replicate (-point).toNat '0' ++ ds)
    else if ds.length ≤ point.toNat then
      ds ++ List.replicate (point.toNat - ds.length) '0' ++ ['.', '0']
    else ds.take point.toNat ++ '.' :: ds.drop point.toNat
  else
    let e := point - 1
    let mantissa := match ds with
      | [] => []
      | [c] => [c]
      | c :: rest => c :: '.' :: rest
    mantissa ++ 'e' :: (if e < 0 then '-' else '+') ::
      padLeft style.exponentDigits (digitsOf e.natAbs)

def write (style : Style) (x : Binary64) : String :=
  if x.isNaN then style.nan
  else if !x.isFinite then if x.negative then style.negativeInfinity else style.infinity
  else
    let body := if x.isZero then ['0', '.', '0'] else style.magnitude (Digits.shortest x)
    String.ofList (if x.negative then '-' :: body else body)

end Style

/-- The form in messages and reports: positional from `0.0001` to below `10 ^ 16`, an exponent of at
least two digits elsewhere. -/
def plainStyle : Style where
  leastPoint := -3
  greatestPoint := 16
  exponentDigits := 2
  infinity := "inf"
  negativeInfinity := "-inf"
  nan := "nan"

/-- The form in stored options: positional from `0.00001` to below `10 ^ 16`, a bare exponent
elsewhere; numbers without digits are `null`. -/
def storedStyle : Style where
  leastPoint := -4
  greatestPoint := 16
  exponentDigits := 1
  infinity := "null"
  negativeInfinity := "null"
  nan := "null"

end FormatFuzz.Decimal
