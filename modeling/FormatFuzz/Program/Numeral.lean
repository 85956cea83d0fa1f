namespace FormatFuzz.Program

namespace Lex

/-- The longest row of digits, each with or without an underscore in front. -/
def moreDigits (digit : Char → Bool) : List Char → List Char × List Char
  | '_' :: c :: cs =>
    if digit c then
      let (ds, rest) := moreDigits digit cs
      ('_' :: c :: ds, rest)
    else ([], '_' :: c :: cs)
  | c :: cs =>
    if digit c then
      let (ds, rest) := moreDigits digit cs
      (c :: ds, rest)
    else ([], c :: cs)
  | [] => ([], [])

abbrev Split := Option (List Char × List Char)

def digits : List Char → Split
  | c :: cs =>
    if c.isDigit then
      let (ds, rest) := moreDigits Char.isDigit cs
      some (c :: ds, rest)
    else none
  | [] => none

def exponent : List Char → Split
  | e :: cs =>
    if e == 'e' || e == 'E' then
      match cs with
      | s :: rest =>
        if s == '-' || s == '+' then
          (digits rest).map fun (ds, rest) => (e :: s :: ds, rest)
        else (digits cs).map fun (ds, rest) => (e :: ds, rest)
      | [] => none
    else none
  | [] => none

def thenOptional (first : List Char × List Char) (second : List Char → Split) :
    List Char × List Char :=
  match second first.2 with
  | some (more, rest) => (first.1 ++ more, rest)
  | none => first

def pointFloat (cs : List Char) : Split :=
  let whole : List Char × List Char := (digits cs).getD ([], cs)
  match whole.2 with
  | '.' :: rest =>
    match digits rest with
    | some (places, rest) => some (thenOptional (whole.1 ++ '.' :: places, rest) exponent)
    | none => if whole.1.isEmpty then none else some (thenOptional (whole.1 ++ ['.'], rest) exponent)
  | _ => none

def expFloat (cs : List Char) : Split := do
  let whole ← digits cs
  let (e, rest) ← exponent whole.2
  return (whole.1 ++ e, rest)

def floatNumber (cs : List Char) : Split := (pointFloat cs).or (expFloat cs)

def imaginary : List Char × List Char → Split
  | (ds, 'j' :: rest) => some (ds ++ ['j'], rest)
  | (ds, 'J' :: rest) => some (ds ++ ['J'], rest)
  | _ => none

def isHex (c : Char) : Bool := c.isDigit || ('a' ≤ c && c ≤ 'f') || ('A' ≤ c && c ≤ 'F')

def based (digit : Char → Bool) (mark : List Char) (cs : List Char) : Split :=
  match moreDigits digit cs with
  | ([], _) => none
  | (ds, rest) => some (mark ++ ds, rest)

def intNumber : List Char → Split
  | '0' :: cs =>
    let base := match cs with
      | x :: rest =>
        if x == 'x' || x == 'X' then based isHex ['0', x] rest
        else if x == 'b' || x == 'B' then based (fun c => c == '0' || c == '1') ['0', x] rest
        else if x == 'o' || x == 'O' then based (fun c => '0' ≤ c && c ≤ '7') ['0', x] rest
        else none
      | [] => none
    match base with
    | some split => some split
    | none =>
      let (zeros, rest) := moreDigits (· == '0') cs
      some ('0' :: zeros, rest)
  | cs => digits cs

def number (cs : List Char) : Split :=
  ((digits cs).bind imaginary).or
    (((floatNumber cs).bind imaginary).or ((floatNumber cs).or (intNumber cs)))

end Lex

end FormatFuzz.Program
