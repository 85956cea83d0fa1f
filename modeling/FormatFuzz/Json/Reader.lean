import FormatFuzz.Text.Integer

/-!
# Reading JSON

Besides the standard form the reader takes the words `NaN`, `Infinity` and `-Infinity` for numbers.
A number with a point or an exponent is a double, any other number an integer. A text that cannot be
read is reported with the first place where reading cannot go on, as line, column and count of
characters.

Reading also ends where the text goes beyond a limit: an integer has too many digits, or lists and
mappings are nested too deeply. How deep they may be is up to the machine that reads them.
-/

namespace FormatFuzz.Json

inductive Problem
  | value
  | propertyName
  | colon
  | comma
  | unterminated
  | controlCharacter
  | escape
  | unicodeEscape
  | extraData
  | byteOrderMark
deriving DecidableEq, Repr

def Problem.message : Problem → String
  | value => "Expecting value"
  | propertyName => "Expecting property name enclosed in double quotes"
  | colon => "Expecting ':' delimiter"
  | comma => "Expecting ',' delimiter"
  | unterminated => "Unterminated string starting at"
  | controlCharacter => "Invalid control character at"
  | escape => "Invalid \\escape"
  | unicodeEscape => "Invalid \\uXXXX escape"
  | extraData => "Extra data"
  | byteOrderMark => "Unexpected UTF-8 BOM (decode using utf-8-sig)"

inductive Limit
  | digits (count : Nat)
  | nesting (kind : String)
deriving DecidableEq, Repr

def Limit.errorClass : Limit → String
  | digits _ => "ValueError"
  | nesting _ => "RecursionError"

def Limit.message : Limit → String
  | digits count => Text.maxDigitsMessage (some count)
  | nesting kind =>
    "maximum recursion depth exceeded while decoding a JSON " ++ kind ++ " from a unicode string"

/-- What ends reading: a problem, with the number of characters left at its place, or a limit. -/
inductive Fault
  | problem (what : Problem) (left : Nat)
  | limit (limit : Limit)
deriving DecidableEq, Repr

structure Error where
  problem : Problem
  line : Nat
  column : Nat
  position : Nat
deriving DecidableEq, Repr

def Error.message (e : Error) : String :=
  e.problem.message ++ ": line " ++ toString e.line ++ " column " ++ toString e.column ++
    " (char " ++ toString e.position ++ ")"

inductive ReadError
  | malformed (error : Error)
  | limit (limit : Limit)
deriving DecidableEq, Repr

def ReadError.message : ReadError → String
  | malformed e => e.message
  | limit l => l.message

def Fault.locate (text : List Char) : Fault → ReadError
  | problem what left =>
    let before := text.take (text.length - left)
    .malformed {
      problem := what
      line := before.count '\n' + 1
      column := (before.reverse.takeWhile (· ≠ '\n')).length + 1
      position := before.length }
  | limit l => .limit l

def fail {α : Type} (problem : Problem) (rest : List Char) : Except Fault α :=
  .error (.problem problem rest.length)

def isSpace (c : Char) : Bool := c == ' ' || c == '\t' || c == '\n' || c == '\r'

def skipSpace (cs : List Char) : List Char := cs.dropWhile isSpace

def hexDigit? (c : Char) : Option Nat :=
  if c.isDigit then some (c.toNat - 48)
  else if 'a' ≤ c ∧ c ≤ 'f' then some (c.toNat - 87)
  else if 'A' ≤ c ∧ c ≤ 'F' then some (c.toNat - 55)
  else none

/-- Four hexadecimal digits, with another character behind them. -/
def fourDigits? : List Char → Option (Nat × List Char)
  | a :: b :: c :: d :: e :: rest => do
    let n := (← hexDigit? a) * 4096 + (← hexDigit? b) * 256 + (← hexDigit? c) * 16 + (← hexDigit? d)
    return (n, e :: rest)
  | _ => none

def simpleEscape? (c : Char) : Option Char :=
  if c == '"' || c == '\\' || c == '/' then some c
  else if c == 'b' then some '\x08'
  else if c == 'f' then some '\x0c'
  else if c == 'n' then some '\n'
  else if c == 'r' then some '\r'
  else if c == 't' then some '\t'
  else none

/-- The character of a pair of escapes, or of one; half of a pair alone has no character of its own
and gives the replacement character. -/
def unicodeEscape (n : Nat) (rest : List Char) : Char × List Char :=
  let alone := if 0xd800 ≤ n ∧ n < 0xe000 then '\ufffd' else Char.ofNat n
  if 0xd800 ≤ n ∧ n < 0xdc00 then
    match rest with
    | '\\' :: 'u' :: more => match fourDigits? more with
      | some (m, more) =>
        if 0xdc00 ≤ m ∧ m < 0xe000 then
          (Char.ofNat (0x10000 + (n - 0xd800) * 0x400 + (m - 0xdc00)), more)
        else (alone, rest)
      | none => (alone, rest)
    | _ => (alone, rest)
  else (alone, rest)

/-- The characters up to the closing quote; `start` is the text from the opening quote on. -/
def readString (start : List Char) : (fuel : Nat) → List Char → Except Fault (List Char × List Char)
  | 0, _ => fail .unterminated start
  | _, [] => fail .unterminated start
  | fuel + 1, c :: cs => do
    if c == '"' then return ([], cs)
    else if c.toNat < 32 then fail .controlCharacter (c :: cs)
    else if c == '\\' then
      match cs with
      | [] => fail .unterminated start
      | 'u' :: digits => match fourDigits? digits with
        | none => fail .unicodeEscape cs
        | some (n, rest) =>
          let (c, rest) := unicodeEscape n rest
          let (more, rest) ← readString start fuel rest
          return (c :: more, rest)
      | e :: rest => match simpleEscape? e with
        | none => fail .escape (c :: cs)
        | some c =>
          let (more, rest) ← readString start fuel rest
          return (c :: more, rest)
    else
      let (more, rest) ← readString start fuel cs
      return (c :: more, rest)

def digitsValue (ds : List Char) : Nat := ds.foldl (fun n d => n * 10 + (d.toNat - 48)) 0

/-- The digits of the integral part: a zero or digits that do not begin with one. -/
def integralPart : List Char → Option (List Char × List Char)
  | '0' :: rest => some (['0'], rest)
  | cs =>
    let ds := cs.takeWhile Char.isDigit
    if ds.isEmpty then none else some (ds, cs.dropWhile Char.isDigit)

def fractionPart : List Char → Option (List Char × List Char)
  | '.' :: rest =>
    let ds := rest.takeWhile Char.isDigit
    if ds.isEmpty then none else some (ds, rest.dropWhile Char.isDigit)
  | _ => none

def exponentPart : List Char → Option (Int × List Char)
  | e :: rest =>
    if e == 'e' || e == 'E' then
      let (negative, rest) : Bool × List Char := match rest with
        | '-' :: rest => (true, rest)
        | '+' :: rest => (false, rest)
        | _ => (false, rest)
      let ds := rest.takeWhile Char.isDigit
      if ds.isEmpty then none
      else
        let n : Int := digitsValue ds
        some (if negative then -n else n, rest.dropWhile Char.isDigit)
    else none
  | [] => none

def readNumber? (cs : List Char) : Option (Primitive × List Char) := do
  let negative := cs.head? == some '-'
  let (whole, rest) ← integralPart (if negative then cs.drop 1 else cs)
  let fraction := fractionPart rest
  let rest := (fraction.map (·.2)).getD rest
  let exponent := exponentPart rest
  let rest := (exponent.map (·.2)).getD rest
  if fraction.isNone && exponent.isNone then
    let n : Int := digitsValue whole
    return (.int (if negative then -n else n), rest)
  else
    let places := (fraction.map (·.1)).getD []
    let e := (exponent.map (·.1)).getD 0 - places.length
    return (.float (.ofDecimal negative (digitsValue (whole ++ places)) e), rest)

def words : List (String × Primitive) :=
  [("null", .null), ("true", .bool true), ("false", .bool false), ("NaN", .float .nan),
    ("Infinity", .float (.infinity false)), ("-Infinity", .float (.infinity true))]

def readWord? (cs : List Char) : Option (Primitive × List Char) :=
  words.findSome? fun (w, v) =>
    if w.toList.isPrefixOf cs then some (v, cs.drop w.length) else none

/-- A value without parts, unless it is an integer with too many digits. -/
def limitDigits (v : Primitive) : Except Fault Primitive :=
  match v with
  | .int n =>
    if v.hasText then .ok v else .error (.limit (.digits (Nat.toDigits 10 n.natAbs).length))
  | v => .ok v

def inside (kind : String) : (levels : Nat) → Except Fault Nat
  | 0 => .error (.limit (.nesting kind))
  | levels + 1 => .ok levels

mutual

def readValue : (fuel levels : Nat) → List Char → Except Fault (Data × List Char)
  | 0, _, cs => fail .value cs
  | fuel + 1, levels, cs =>
    match cs with
    | '"' :: rest => do
      let (s, rest) ← readString cs rest.length rest
      return (.str (String.ofList s), rest)
    | '{' :: rest => do
      let levels ← inside "object" levels
      match skipSpace rest with
      | '}' :: rest => return (.dict [], rest)
      | rest =>
        let (pairs, rest) ← readMembers fuel levels rest
        return (.ofPairs pairs, rest)
    | '[' :: rest => do
      let levels ← inside "array" levels
      match skipSpace rest with
      | ']' :: rest => return (.list [], rest)
      | rest =>
        let (items, rest) ← readItems fuel levels rest
        return (.list items, rest)
    | _ =>
      match (readWord? cs).or (readNumber? cs) with
      | some (v, rest) => return (.prim (← limitDigits v), rest)
      | none => fail .value cs

def readItems : (fuel levels : Nat) → List Char → Except Fault (List Data × List Char)
  | 0, _, cs => fail .value cs
  | fuel + 1, levels, cs => do
    let (v, rest) ← readValue fuel levels cs
    match skipSpace rest with
    | ']' :: rest => return ([v], rest)
    | ',' :: rest =>
      let (vs, rest) ← readItems fuel levels (skipSpace rest)
      return (v :: vs, rest)
    | rest => fail .comma rest

def readMembers : (fuel levels : Nat) → List Char → Except Fault (List (String × Data) × List Char)
  | 0, _, cs => fail .value cs
  | fuel + 1, levels, cs =>
    match cs with
    | '"' :: name => do
      let (name, rest) ← readString cs name.length name
      match skipSpace rest with
      | ':' :: rest =>
        let (v, rest) ← readValue fuel levels (skipSpace rest)
        match skipSpace rest with
        | '}' :: rest => return ([(String.ofList name, v)], rest)
        | ',' :: rest =>
          let (members, rest) ← readMembers fuel levels (skipSpace rest)
          return ((String.ofList name, v) :: members, rest)
        | rest => fail .comma rest
      | rest => fail .colon rest
    | _ => fail .propertyName cs

end

/-- The value that a whole text stands for. If it is a list or a mapping, others may be nested in it as
deep as `levels`. -/
def read (levels : Nat) (text : String) : Except ReadError Data :=
  let cs := text.toList
  let result := do
    if cs.head? == some '\ufeff' then fail .byteOrderMark cs
    let (v, rest) ← readValue (2 * cs.length + 2) (levels + 1) (skipSpace cs)
    match skipSpace rest with
    | [] => return v
    | rest => fail .extraData rest
  result.mapError (Fault.locate cs)

end FormatFuzz.Json
