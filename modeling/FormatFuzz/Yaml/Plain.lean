import FormatFuzz.Value
import FormatFuzz.Text.Integer
import FormatFuzz.Text.Search
import FormatFuzz.Yaml.Timestamp

/-!
# Plain texts as values

A plain text stands for nothing, a truth value, a number or a time if it has the form of one, and
else for itself. Underscores between digits do not count. Integers can be binary, octal after a
zero, hexadecimal, or have places of sixty separated by colons; doubles need a point.
-/

namespace FormatFuzz.Yaml

inductive YamlError
  | malformed
  | value (errorClass message : String)
deriving DecidableEq, Repr

namespace Plain

def isDigit (c : Char) : Bool := '0' ≤ c && c ≤ '9'
def isDigitOrMark (c : Char) : Bool := isDigit c || c == '_'

def unsigned : List Char → Bool × List Char
  | '-' :: cs => (true, cs)
  | '+' :: cs => (false, cs)
  | cs => (false, cs)

def isSixtieth : List Char → Bool
  | [d] => isDigit d
  | [t, d] => '0' ≤ t && t ≤ '5' && isDigit d
  | _ => false

def nonempty (test : Char → Bool) (cs : List Char) : Bool := !cs.isEmpty && cs.all test

def isInteger (text : List Char) : Bool :=
  let cs := (unsigned text).2
  match cs with
  | '0' :: 'b' :: ds => nonempty (fun c => c == '0' || c == '1' || c == '_') ds
  | '0' :: 'x' :: ds =>
    nonempty (fun c => isDigit c || c == '_' || ('a' ≤ c && c ≤ 'f') || ('A' ≤ c && c ≤ 'F')) ds
  | '0' :: ds => ds.all fun c => ('0' ≤ c && c ≤ '7') || c == '_'
  | c :: _ =>
    match Text.splitAt (· == ':') cs with
    | whole :: places => isDigit c && whole.all isDigitOrMark && places.all isSixtieth
    | [] => false
  | [] => false

def isExponent : List Char → Bool
  | [] => true
  | e :: s :: ds => (e == 'e' || e == 'E') && (s == '-' || s == '+') && nonempty isDigit ds
  | _ => false

def isFloat (text : List Char) : Bool :=
  let cs := (unsigned text).2
  let whole := cs.takeWhile (· != '.')
  let fraction := (cs.dropWhile (· != '.')).drop 1
  let places := fraction.takeWhile isDigitOrMark
  let rest := fraction.dropWhile isDigitOrMark
  let hasPoint := cs.contains '.'
  let named (names : List String) (t : List Char) := names.contains (String.ofList t)
  if !hasPoint then false
  else if whole.isEmpty then
    named [".inf", ".Inf", ".INF"] cs || named [".nan", ".NaN", ".NAN"] text ||
      (cs == text && places.head?.any isDigit && isExponent rest)
  else match Text.splitAt (· == ':') whole with
    | [digits] => digits.head?.any isDigit && digits.all isDigitOrMark && isExponent rest
    | digits :: sixtieths =>
      digits.head?.any isDigit && digits.all isDigitOrMark && sixtieths.all isSixtieth &&
        rest.isEmpty
    | [] => false

def trueNames : List String := ["yes", "Yes", "YES", "true", "True", "TRUE", "on", "On", "ON"]
def falseNames : List String := ["no", "No", "NO", "false", "False", "FALSE", "off", "Off", "OFF"]
def nullNames : List String := ["~", "null", "Null", "NULL", ""]

def digitOf (c : Char) : Nat :=
  if isDigit c then c.toNat - 48 else if 'a' ≤ c then c.toNat - 87 else c.toNat - 55

def ofBase (base : Nat) (digits : List Char) : Except YamlError Int :=
  let isOk (c : Char) : Bool := c.isAlphanum && digitOf c < base
  if nonempty isOk digits then
    .ok ((digits.foldl (fun n c => base * n + digitOf c) 0 : Nat) : Int)
  else .error (.value "ValueError" ("invalid literal for int() with base " ++ toString base ++
    ": " ++ Text.quoted (String.ofList digits)))

def ofDecimal (digits : List Char) : Except YamlError Int :=
  match Text.integer? (String.ofList digits) with
  | .ok n => .ok n
  | .error p => .error (.value p.errorClass p.message)

/-- Without any character there is no sign to look at. -/
def noSign : YamlError := .value "IndexError" "string index out of range"

def integer (text : String) : Except YamlError Int := do
  let (negative, cs) := unsigned (text.toList.filter (· != '_'))
  if text.toList.all (· == '_') then throw noSign
  let magnitude ← match cs with
    | ['0'] => pure 0
    | '0' :: 'b' :: ds => ofBase 2 ds
    | '0' :: 'x' :: ds => ofBase 16 ds
    | '0' :: _ => ofBase 8 cs
    | _ => do
      let places ← (Text.splitAt (· == ':') cs).mapM ofDecimal
      pure (places.foldl (fun n p => 60 * n + p) 0)
  return if negative then -magnitude else magnitude

/-- The digits of a decimal number without sign, with the power of ten that they are multiplied by. -/
def decimal? (cs : List Char) : Option (Nat × Int) :=
  let whole := cs.takeWhile isDigit
  let afterWhole := cs.dropWhile isDigit
  let (places, rest) := match afterWhole with
    | '.' :: more => (more.takeWhile isDigit, more.dropWhile isDigit)
    | _ => ([], afterWhole)
  let value := (whole ++ places).foldl (fun n c => 10 * n + digitOf c) 0
  if (whole ++ places).isEmpty then none
  else match rest with
    | [] => some (value, -places.length)
    | e :: more =>
      let (negative, ds) := unsigned more
      if e == 'e' && nonempty isDigit ds then
        let exponent : Int := (ds.foldl (fun n c => 10 * n + digitOf c) 0 : Nat)
        some (value, (if negative then -exponent else exponent) - places.length)
      else none

open Decimal in
def float (text : String) : Except YamlError Binary64 :=
  let (negative, cs) := unsigned ((text.toList.filter (· != '_')).map Char.toLower)
  let name := String.ofList cs
  if text.toList.all (· == '_') then .error noSign
  else if [".inf", "inf", "infinity"].contains name then .ok (.infinity negative)
  else if [".nan", "nan"].contains name then .ok .nan
  else
    let parts := Text.splitAt (· == ':') cs
    let last := parts.getLast?.getD []
    let sixtieths := parts.dropLast.foldl
      (fun n p => 60 * (n + p.foldl (fun m c => 10 * m + digitOf c) 0)) 0
    match decimal? last with
    | some (digits, exponent) =>
      let scaled := digits + sixtieths * Nat.pow 10 (-exponent).toNat
      .ok (.ofDecimal negative scaled exponent)
    | none => .error (.value "ValueError"
        ("could not convert string to float: " ++ Text.quoted (String.ofList cs)))

def timestamp (t : Timestamp) : Except YamlError Data :=
  t.value.mapError (.value "ValueError")

/-- The value of a plain text. The equals sign alone is reserved. -/
def value (text : String) : Except YamlError Data :=
  let cs := text.toList
  if nullNames.contains text then .ok .null
  else if trueNames.contains text then .ok (.bool true)
  else if falseNames.contains text then .ok (.bool false)
  else if isFloat cs then (float text).map .float
  else if isInteger cs then (integer text).map .int
  else if Timestamp.isPlain cs then
    match Timestamp.ofText? cs with
    | some (t, _) => timestamp t
    | none => .ok (.str text)
  else if text == "=" || text == "<<" then .error .malformed
  else .ok (.str text)

end Plain

end FormatFuzz.Yaml
