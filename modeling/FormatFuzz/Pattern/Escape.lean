import FormatFuzz.Pattern.Basic
import FormatFuzz.Pattern.Problem

namespace FormatFuzz

namespace PatternReader

/-- A character, or a backslash with the character after it. A backslash alone ends a faulty text. -/
abbrev Token := List Char

def tokens : List Char → List Token
  | [] => []
  | ['\\'] => [['\\']]
  | '\\' :: c :: cs => ['\\', c] :: tokens cs
  | c :: cs => [c] :: tokens cs

/-- What is left to read and what was met: the groups opened so far, those still open, the names of
groups, the flags for the whole pattern, references ahead of their group with their positions, and
whether a construct was met that no pattern is made of. -/
structure State where
  text : String
  rest : List Token
  position : Nat := 0
  groups : Nat := 0
  stillOpen : List Nat := []
  names : List (String × Nat) := []
  flags : List Char := []
  references : List (Nat × Nat) := []
  beyond : Bool := false

abbrev Read := StateT State (Except PatternError)

/-- Fails at `back` characters before the next token. -/
def fail {α : Type} (what : PatternProblem) (back : Nat := 0) : Read α := fun s =>
  .error (.problem what (s.position - back) s.text)

def failAt {α : Type} (what : PatternProblem) (position : Nat) : Read α := fun s =>
  .error (.problem what position s.text)

def peek : Read (Option Token) := return (← get).rest.head?

/-- A faulty backslash is noticed as soon as it is the next token. -/
def checkEscape : Read Unit := do
  if (← peek) == some ['\\'] then failAt .danglingEscape ((← get).text.length - 1)

def next : Read (Option Token) := do
  match (← get).rest with
  | [] => return none
  | t :: rest =>
    modify fun s => { s with rest, position := s.position + t.length }
    checkEscape
    return some t

def accept (c : Char) : Read Bool := do
  if (← peek) == some [c] then let _ ← next; return true else return false

def takeUpTo (kind : Char → Bool) : Nat → Read (List Char)
  | 0 => return []
  | n + 1 => do
    match ← peek with
    | some [c] => if kind c then let _ ← next; return c :: (← takeUpTo kind n) else return []
    | _ => return []

/-- The tokens up to a closing character, which is taken and left out. -/
def takeName (close : Char) (what : String) (read : List Char) : List Token → Read String
  | [] => if read.isEmpty then fail (.missing what)
    else fail (.openName close.toString) read.length
  | t :: ts => do
    let _ ← next
    if t == [close] then
      if read.isEmpty then fail (.missing what) 1 else return String.ofList read
    else takeName close what (read ++ t) ts

def name (close : Char) (what : String) : Read String := do
  takeName close what [] (← get).rest

def isHexDigit (c : Char) : Bool :=
  ('0' ≤ c && c ≤ '9') || ('a' ≤ c && c ≤ 'f') || ('A' ≤ c && c ≤ 'F')

def isAsciiDigit (c : Char) : Bool := '0' ≤ c && c ≤ '9'
def isOctalDigit (c : Char) : Bool := '0' ≤ c && c ≤ '7'
def isAsciiLetter (c : Char) : Bool := ('a' ≤ c && c ≤ 'z') || ('A' ≤ c && c ≤ 'Z')

def digitValue (c : Char) : Nat :=
  if isAsciiDigit c then c.toNat - 48 else if c ≤ 'F' then c.toNat - 55 else c.toNat - 87

def numeral (base : Nat) (digits : List Char) : Nat :=
  digits.foldl (fun n c => base * n + digitValue c) 0

def isIdentifier (name : String) : Bool :=
  match name.toList with
  | [] => false
  | c :: cs => Text.isIdentifierStart c && cs.all Text.isWordChar

def category? : Char → Option ClassItem
  | 'd' => some (.category .digit false)
  | 'D' => some (.category .digit true)
  | 's' => some (.category .blank false)
  | 'S' => some (.category .blank true)
  | 'w' => some (.category .word false)
  | 'W' => some (.category .word true)
  | _ => none

def anchor? : Char → Option Anchor
  | 'A' => some .textStart
  | 'b' => some .wordEdge
  | 'B' => some .noWordEdge
  | 'Z' => some .textEnd
  | _ => none

def control? : Char → Option Nat
  | 'a' => some 7
  | 'b' => some 8
  | 'f' => some 12
  | 'n' => some 10
  | 'r' => some 13
  | 't' => some 9
  | 'v' => some 11
  | '\\' => some 92
  | _ => none

def escapeText (cs : List Char) : String := String.ofList ('\\' :: cs)

def hexEscape (c : Char) (width : Nat) : Read Nat := do
  let digits ← takeUpTo isHexDigit width
  let text := escapeText (c :: digits)
  if digits.length ≠ width then fail (.incompleteEscape text) text.length
  let code := numeral 16 digits
  if 0x110000 ≤ code then fail (.badEscape text) text.length
  return code

def codeEscape (c : Char) : Read Nat := do
  match c with
  | 'x' => hexEscape c 2
  | 'u' => hexEscape c 4
  | 'U' => hexEscape c 8
  | 'N' =>
    if !(← accept '{') then fail (.missing "\x7b")
    let n ← name '}' "character name"
    fail (.unknownCharacterName n) (n.length + 4)
  | c =>
    if isAsciiLetter c || isAsciiDigit c then fail (.badEscape (escapeText [c])) 2
    return c.toNat

def octal (digits : List Char) : Read Nat := do
  let code := numeral 8 digits
  if 0o377 < code then fail (.octalTooLarge (escapeText digits)) (digits.length + 1)
  return code

def setEscape (c : Char) : Read ClassItem := do
  if let some code := control? c then return .range code code
  if let some item := category? c then return item
  let code ← if isOctalDigit c then octal (c :: (← takeUpTo isOctalDigit 2)) else codeEscape c
  return .range code code

end PatternReader

end FormatFuzz
