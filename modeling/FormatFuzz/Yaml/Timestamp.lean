import FormatFuzz.Value

namespace FormatFuzz.Yaml

/-- The time of a day, with the distance from universal time in minutes if one is given. -/
structure Clock where
  hour : Nat
  minute : Nat
  second : Nat
  microsecond : Nat
  offset : Option Int
deriving DecidableEq, Repr

structure Timestamp where
  year : Nat
  month : Nat
  day : Nat
  clock : Option Clock
deriving DecidableEq, Repr

namespace Timestamp

def isDigit (c : Char) : Bool := '0' ≤ c && c ≤ '9'

def number (digits : List Char) : Nat := digits.foldl (fun n c => 10 * n + (c.toNat - 48)) 0

def digits? (least most : Nat) (cs : List Char) : Option (List Char × List Char) :=
  let ds := (cs.take most).takeWhile isDigit
  if ds.length < least then none else some (ds, cs.drop ds.length)

def after? (c : Char) : List Char → Option (List Char)
  | d :: cs => if c == d then some cs else none
  | [] => none

def isSpace (c : Char) : Bool := c == ' ' || c == '\t'

/-- A fraction of a second in millionths; places beyond the sixth are dropped. -/
def fraction : List Char → Nat × List Char
  | '.' :: cs =>
    let places := (cs.takeWhile isDigit).take 6
    (number places * Nat.pow 10 (6 - places.length), cs.dropWhile isDigit)
  | cs => (0, cs)

def offset? (cs : List Char) : Option (Option Int) :=
  if cs.isEmpty then some none
  else match cs.dropWhile isSpace with
    | ['Z'] => some (some 0)
    | sign :: rest =>
      if sign != '+' && sign != '-' then none
      else do
        let (hours, rest) ← digits? 1 2 rest
        let minutes ← if rest.isEmpty then some [] else do
          let (minutes, rest) ← digits? 2 2 (← after? ':' rest)
          if rest.isEmpty then some minutes else none
        let distance : Int := (60 * number hours + number minutes : Nat)
        return some (if sign == '-' then -distance else distance)
    | [] => none

def clock? (cs : List Char) : Option Clock := do
  let cs ← match cs with
    | 'T' :: rest | 't' :: rest => some rest
    | c :: rest => if isSpace c then some (rest.dropWhile isSpace) else none
    | [] => none
  let (hour, cs) ← digits? 1 2 cs
  let (minute, cs) ← digits? 2 2 (← after? ':' cs)
  let (second, cs) ← digits? 2 2 (← after? ':' cs)
  let (microsecond, cs) := fraction cs
  return ⟨number hour, number minute, number second, microsecond, ← offset? cs⟩

/-- The time that a text has the form of, and whether its month and day have two digits each. -/
def ofText? (cs : List Char) : Option (Timestamp × Bool) := do
  let (year, cs) ← digits? 4 4 cs
  let (month, cs) ← digits? 1 2 (← after? '-' cs)
  let (day, cs) ← digits? 1 2 (← after? '-' cs)
  let clock ← if cs.isEmpty then some none else (clock? cs).map some
  return (⟨number year, number month, number day, clock⟩, month.length == 2 && day.length == 2)

/-- Whether a text without a tag is a time: a day alone must be written with two digits each. -/
def isPlain (cs : List Char) : Bool :=
  match ofText? cs with
  | some (t, padded) => padded || t.clock.isSome
  | none => false

def isLeap (year : Nat) : Bool := year % 4 == 0 && (year % 100 != 0 || year % 400 == 0)

def daysIn (year month : Nat) : Nat :=
  if month == 2 then if isLeap year then 29 else 28
  else if [4, 6, 9, 11].contains month then 30 else 31

def minutesOfDay : Nat := 24 * 60

/-- A distance of a day or more, in days and in seconds from zero up to a day. -/
def offsetText (offset : Int) : String :=
  let days := offset.fdiv minutesOfDay
  let seconds := 60 * offset.fmod minutesOfDay
  "datetime.timedelta(days=" ++ toString days ++
    (if seconds = 0 then "" else ", seconds=" ++ toString seconds) ++ ")"

def problem? (t : Timestamp) : Option String :=
  let far := t.clock.bind fun c => c.offset.filter fun o => decide (minutesOfDay ≤ o.natAbs)
  match far with
  | some o => some ("offset must be a timedelta strictly between -timedelta(hours=24) and " ++
      "timedelta(hours=24), not " ++ offsetText o ++ ".")
  | none =>
    if t.year = 0 then some "year 0 is out of range"
    else if t.month = 0 ∨ 12 < t.month then some "month must be in 1..12"
    else if t.day = 0 ∨ daysIn t.year t.month < t.day then some "day is out of range for month"
    else match t.clock with
      | none => none
      | some c =>
        if 23 < c.hour then some "hour must be in 0..23"
        else if 59 < c.minute then some "minute must be in 0..59"
        else if 59 < c.second then some "second must be in 0..59"
        else none

def padded (width n : Nat) : String :=
  let ds := toString n
  String.ofList (List.replicate (width - ds.length) '0') ++ ds

def dayText (t : Timestamp) : String :=
  padded 4 t.year ++ "-" ++ padded 2 t.month ++ "-" ++ padded 2 t.day

def clockText (c : Clock) : String :=
  padded 2 c.hour ++ ":" ++ padded 2 c.minute ++ ":" ++ padded 2 c.second ++
    (if c.microsecond = 0 then "" else "." ++ padded 6 c.microsecond) ++
    match c.offset with
    | none => ""
    | some o => (if o < 0 then "-" else "+") ++ padded 2 (o.natAbs / 60) ++ ":" ++
      padded 2 (o.natAbs % 60)

/-- The time as a value, if it has no problem. -/
def value (t : Timestamp) : Except String Data :=
  match t.problem? with
  | some message => .error message
  | none => .ok (match t.clock with
    | none => .other "datetime.date" t.dayText
    | some c => .other "datetime.datetime" (t.dayText ++ " " ++ clockText c))

end Timestamp

end FormatFuzz.Yaml
