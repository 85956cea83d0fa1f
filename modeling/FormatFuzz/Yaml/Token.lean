namespace FormatFuzz.Yaml

inductive Token
  /-- A directive, with its handle and namespace if it declares one for tags. -/
  | directive (version : Option Nat) (handle : Option (String × String))
  | documentStart
  | documentEnd
  | sequenceStart
  | mappingStart
  | blockEnd
  | openSequence
  | closeSequence
  | openMapping
  | closeMapping
  | entry
  | comma
  | key
  | value
  | alias (name : String)
  | anchor (name : String)
  | tag (handle : Option String) (suffix : String)
  | scalar (text : String) (plain : Bool)
deriving DecidableEq, Repr

/-- A token that may be a key: its number, where it begins, and whether nothing else fits there. -/
structure PossibleKey where
  number : Nat
  index : Nat
  line : Nat
  column : Nat
  required : Bool
deriving Repr

structure ScanState where
  rest : List Char
  index : Nat := 0
  line : Nat := 0
  column : Nat := 0
  tokens : Array Token := #[]
  /-- How many brackets are open. -/
  depth : Nat := 0
  /-- The indentation of the innermost collection, and of those around it. -/
  indent : Int := -1
  outer : List Int := []
  mayBeKey : Bool := true
  /-- The possible keys, at most one at every depth. -/
  keys : List (Nat × PossibleKey) := []

abbrev Scan := StateT ScanState Option

namespace Scan

/-- Stands for the end of the text where a character is looked at. -/
def endMark : Char := '\x00'

def peek (distance : Nat := 0) : Scan Char := return (← get).rest.getD distance endMark

def isBreak (c : Char) : Bool :=
  c == '\n' || c == '\r' || c.toNat == 0x85 || c.toNat == 0x2028 || c.toNat == 0x2029

def isBreakOrEnd (c : Char) : Bool := isBreak c || c == endMark
def isBlankOrEnd (c : Char) : Bool := isBreakOrEnd c || c == ' ' || c == '\t'

/-- The place behind one character. A mark of the byte order has no width. -/
def ScanState.forward (s : ScanState) : ScanState :=
  match s.rest with
  | [] => s
  | c :: rest =>
    let s := { s with rest, index := s.index + 1 }
    if isBreak c && !(c == '\r' && rest.head? == some '\n') then
      { s with line := s.line + 1, column := 0 }
    else if c.toNat == 0xfeff then s
    else { s with column := s.column + 1 }

def advance : Nat → Scan Unit
  | 0 => return ()
  | n + 1 => do
    modify ScanState.forward
    advance n

def takeWhile (test : Char → Bool) : Scan (List Char) := do
  let cs := (← get).rest.takeWhile test
  advance cs.length
  return cs

def skipSpaces (most : Nat) : Scan Unit := do
  advance (((← get).rest.take most).takeWhile (· == ' ')).length

/-- Takes a line break, if there is one. Two kinds of breaks stay what they are; the others are the
same. -/
def lineBreak : Scan (List Char) := do
  let c ← peek
  if !isBreak c then return []
  if c == '\r' && (← peek 1) == '\n' then advance 2 else advance 1
  return if c.toNat == 0x2028 || c.toNat == 0x2029 then [c] else ['\n']

/-- Whether the text goes on with a mark of three characters that stands alone. -/
def atMark (mark : List Char) : Scan Bool := do
  return mark.isPrefixOf (← get).rest && isBlankOrEnd (← peek 3)

def atDocumentMark : Scan Bool := do
  return (← atMark ['-', '-', '-']) || (← atMark ['.', '.', '.'])

def turns : Scan Nat := return (← get).rest.length + 2

def push (t : Token) : Scan Unit := modify fun s => { s with tokens := s.tokens.push t }

def isNameChar (c : Char) : Bool := c.isAlphanum || c == '-' || c == '_'

end Scan

end FormatFuzz.Yaml
