namespace FormatFuzz.Decimal

structure Binary64 where
  bits : UInt64
deriving DecidableEq, Repr, Inhabited

namespace Binary64

def negative (x : Binary64) : Bool := x.bits >>> 63 == 1

def exponentField (x : Binary64) : Nat := ((x.bits >>> 52) &&& 0x7ff).toNat

def fractionField (x : Binary64) : Nat := (x.bits &&& 0xfffffffffffff).toNat

def isFinite (x : Binary64) : Bool := x.exponentField != 0x7ff

def isNaN (x : Binary64) : Bool := !x.isFinite && x.fractionField != 0

def isZero (x : Binary64) : Bool := x.exponentField == 0 && x.fractionField == 0

/-- The `m` of a finite magnitude `m · 2 ^ q`. -/
def significand (x : Binary64) : Nat :=
  if x.exponentField = 0 then x.fractionField else x.fractionField + 0x10000000000000

/-- The `q` of a finite magnitude `m · 2 ^ q`. -/
def exponent (x : Binary64) : Int := (max x.exponentField 1 : Nat) - 1075

def ratio (x : Binary64) : Nat × Nat :=
  if 0 ≤ x.exponent then (x.significand <<< x.exponent.toNat, 1)
  else (x.significand, 1 <<< (-x.exponent).toNat)

def ofFields (negative : Bool) (exponentField fractionField : Nat) : Binary64 :=
  ⟨UInt64.ofNat ((if negative then 1 <<< 63 else 0) + exponentField <<< 52 + fractionField)⟩

def infinity (negative : Bool) : Binary64 := ofFields negative 0x7ff 0

def nan : Binary64 := ofFields false 0x7ff 0x8000000000000

/-- Numeric equality: the zeros are equal and a NaN equals nothing. -/
def equal (x y : Binary64) : Bool :=
  !x.isNaN && !y.isNaN && (x == y || (x.isZero && y.isZero))

def truncate (x : Binary64) : Int :=
  let (num, den) := x.ratio
  if x.negative then -(num / den : Nat) else (num / den : Nat)

/-- The quotient rounded to an integer, a half to the even neighbour. -/
def roundQuotient (num den : Nat) : Nat :=
  let q := num / den
  let twice := 2 * (num % den)
  if twice < den then q else if den < twice then q + 1 else if q % 2 = 0 then q else q + 1

def roundAt (num den : Nat) (q : Int) : Nat :=
  if 0 ≤ q then roundQuotient num (den <<< q.toNat) else roundQuotient (num <<< (-q).toNat) den

/-- The double `± m · 2 ^ q`, of which `m` has 53 bits or `q` is the least exponent; beyond the
largest one, infinity. -/
def ofScaled (negative : Bool) (m : Nat) (q : Int) : Binary64 :=
  if m < 0x10000000000000 then ofFields negative 0 m
  else if 971 < q then infinity negative
  else ofFields negative (q + 1075).toNat (m - 0x10000000000000)

def ofQuotient (negative : Bool) (num den : Nat) : Binary64 :=
  if num = 0 then ofFields negative 0 0 else
  -- the quotient lies between `2 ^ (size - 1)` and `2 ^ (size + 1)`
  let size : Int := (num.log2 : Int) - den.log2
  let q := max (size - 53) (-1074)
  let q := if roundAt num den q < 0x20000000000000 then q else q + 1
  let m := roundAt num den q
  if m < 0x20000000000000 then ofScaled negative m q else ofScaled negative (m / 2) (q + 1)

def ofDecimal (negative : Bool) (digits : Nat) (exponent : Int) : Binary64 :=
  if digits = 0 then ofFields negative 0 0
  -- beyond these exponents every number of that many digits is infinite or zero
  else if 400 < exponent then infinity negative
  else if exponent < -400 - (digits.log2 : Int) then ofFields negative 0 0
  else if 0 ≤ exponent then ofQuotient negative (digits * Nat.pow 10 exponent.toNat) 1
  else ofQuotient negative digits (Nat.pow 10 (-exponent).toNat)

end Binary64

end FormatFuzz.Decimal
