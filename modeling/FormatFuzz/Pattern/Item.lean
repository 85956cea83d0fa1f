import FormatFuzz.Pattern.Escape

namespace FormatFuzz

namespace PatternReader

/-- What a quantifier may follow: nothing may repeat a place, or a repetition. -/
inductive ItemKind
  | plain
  | place
  | repetition
deriving DecidableEq

structure Item where
  pattern : Pattern
  kind : ItemKind := .plain

def literal (flags : List Char) (code : Nat) : Item :=
  ⟨.leaf (.char (.one code (flags.contains 'i'))), .plain⟩

/-- Marks a construct that no pattern is made of. -/
def beyondPatterns : Read Item := do
  modify fun s => { s with beyond := true }
  return ⟨.nothing, .plain⟩

def refer (number back : Nat) : Read Item := do
  if (← get).stillOpen.contains number then fail .groupStillOpen back
  beyondPatterns

def digitEscape (flags : List Char) (c : Char) : Read Item := do
  if c == '0' then return literal flags (numeral 8 (c :: (← takeUpTo isOctalDigit 2)))
  let second ← takeUpTo isAsciiDigit 1
  let third ← if isOctalDigit c && second.any isOctalDigit then takeUpTo isOctalDigit 1 else pure []
  if !third.isEmpty then return literal flags (← octal (c :: second ++ third))
  let number := numeral 10 (c :: second)
  if (← get).groups < number then fail (.noGroup number) (second.length + 1)
  refer number (second.length + 2)

def escape (flags : List Char) (c : Char) : Read Item := do
  if let some place := anchor? c then return ⟨.leaf (.anchor place), .place⟩
  if let some item := category? c then
    return ⟨.leaf (.char ⟨[item], false, flags.contains 'i'⟩), .plain⟩
  if let some code := control? c then return literal flags code
  if isAsciiDigit c then digitEscape flags c else return literal flags (← codeEscape c)

def setMember (token : Token) : Read ClassItem :=
  match token with
  | ['\\', c] => setEscape c
  | [c] => return .range c.toNat c.toNat
  | _ => fail .danglingEscape

def setItems (start : Nat) (items : List ClassItem) : Nat → Read (List ClassItem)
  | 0 => failAt .openSet start
  | fuel + 1 => do
    let some this ← next | failAt .openSet start
    if this == [']'] && !items.isEmpty then return items
    let first ← setMember this
    if ← accept '-' then
      let some that ← next | failAt .openSet start
      if that == [']'] then return items ++ [first, .range 45 45]
      let last ← setMember that
      let bad := fail (.badRange (String.ofList this) (String.ofList that))
        (this.length + 1 + that.length)
      match first, last with
      | .range a _, .range b _ =>
        if b < a then bad else setItems start (items ++ [.range a b]) fuel
      | _, _ => bad
    else setItems start (items ++ [first]) fuel

def characterSet (flags : List Char) : Read Item := do
  let s ← get
  let complement ← accept '^'
  let items ← setItems (s.position - 1) [] (s.rest.length + 1)
  return ⟨.leaf (.char ⟨items, complement, flags.contains 'i'⟩), .plain⟩

def takeDigits : Read (List Char) := do takeUpTo isAsciiDigit (← get).rest.length

/-- The greatest number of repetitions that can be asked for, and one more. -/
def repetitionLimit : Nat := 4294967295

def bound (digits : List Char) : Read Nat := do
  if Text.maxDigits < digits.length then throw (.tooManyDigits digits.length)
  let n := numeral 10 digits
  if repetitionLimit ≤ n then throw .repetitionTooLarge
  return n

/-- The bounds between braces, the opening one taken before; none if the braces are no quantifier,
and then nothing more is taken. -/
def bounds : Read (Option (Nat × Option Nat)) := do
  let s ← get
  if (← peek) == some ['}'] then return none
  let low ← takeDigits
  let high ← if ← accept ',' then takeDigits else pure low
  if !(← accept '}') then
    modify fun t => { t with rest := s.rest, position := s.position }
    return none
  let least ← if low.isEmpty then pure 0 else bound low
  if high.isEmpty then return some (least, none)
  let most ← bound high
  if most < least then failAt .repeatOrder s.position
  return some (least, some most)

/-- The last item repeated. A quantifier may be followed by a question mark, which changes only the
order of choices, or by a plus sign, which gives choices up. -/
def repeated (start : Nat) (items : List Item) (least : Nat) (most : Option Nat) :
    Read (List Item) := do
  match items with
  | [] => failAt .nothingToRepeat start
  | item :: before =>
    if item.kind == .place then failAt .nothingToRepeat start
    if item.kind == .repetition then failAt .repeatedTwice start
    if !(← accept '?') then
      if ← accept '+' then let _ ← beyondPatterns
    return ⟨.repetition item.pattern least most, .repetition⟩ :: before

end PatternReader

end FormatFuzz
