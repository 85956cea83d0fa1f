import FormatFuzz.Value
import FormatFuzz.Text.Blank
import FormatFuzz.Text.Digit

namespace FormatFuzz

inductive IntegerProblem
  | badText (text : String)
  | tooLong (digits : Nat)
  | wrongKind (kind : String)
  | infinite
  | notANumber
deriving DecidableEq, Repr

def IntegerProblem.errorClass : IntegerProblem → String
  | wrongKind _ => "TypeError"
  | infinite => "OverflowError"
  | _ => "ValueError"

/-- A bad text is shown with at most two hundred characters. -/
def IntegerProblem.message : IntegerProblem → String
  | badText text =>
    "invalid literal for int() with base 10: " ++ String.ofList ((Text.quoted text).toList.take 200)
  | tooLong digits => Text.maxDigitsMessage (some digits)
  | wrongKind kind =>
    "int() argument must be a string, a bytes-like object or a real number, not '" ++ kind ++ "'"
  | infinite => "cannot convert float infinity to integer"
  | notANumber => "cannot convert float NaN to integer"

namespace Text

/-- The blanks around the digits: in a text of ASCII characters only those of ASCII. -/
def isNumberBlank (ascii : Bool) (c : Char) : Bool :=
  if ascii then c == ' ' || (9 ≤ c.toNat && c.toNat ≤ 13) else isBlank c

/-- Digits with single underscores between them, read into a number; `last` tells whether the
character before was a digit. -/
def digitsWithUnderscores? (value count : Nat) (last : Bool) : List Char → Option (Nat × Nat)
  | [] => if last then some (value, count) else none
  | c :: cs =>
    if c == '_' then if last then digitsWithUnderscores? value count false cs else none
    else match digitValue? c with
      | some d => digitsWithUnderscores? (value * 10 + d) (count + 1) true cs
      | none => none

/-- Whether a minus sign stands in front, and what comes behind a sign. -/
def splitSign : List Char → Bool × List Char
  | '-' :: rest => (true, rest)
  | '+' :: rest => (false, rest)
  | cs => (false, cs)

def integer? (s : String) : Except IntegerProblem Int :=
  let cs := s.toList
  let blank := isNumberBlank (cs.all fun c => c.toNat < 128)
  let body := ((cs.dropWhile blank).reverse.dropWhile blank).reverse
  let (negative, digits) := splitSign body
  match digitsWithUnderscores? 0 0 false digits with
  | none => .error (.badText s)
  | some (value, count) =>
    if maxDigits < count then .error (.tooLong count)
    else .ok (if negative then -value else value)

end Text

def Data.integer? : Data → Except IntegerProblem Int
  | .prim (.int n) => .ok n
  | .prim (.bool b) => .ok (if b then 1 else 0)
  | .prim (.float x) =>
    if x.isNaN then .error .notANumber
    else if x.isFinite then .ok x.truncate else .error .infinite
  | .prim (.str s) => Text.integer? s
  | v => .error (.wrongKind v.kind)

end FormatFuzz
