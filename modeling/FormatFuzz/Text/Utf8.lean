namespace FormatFuzz.Text

inductive Utf8Problem
  | invalidStart
  | invalidContinuation
  | unexpectedEnd
deriving DecidableEq, Repr

def Utf8Problem.message : Utf8Problem → String
  | invalidStart => "invalid start byte"
  | invalidContinuation => "invalid continuation byte"
  | unexpectedEnd => "unexpected end of data"

/-- The first wrong sequence: its first byte, its position and how many bytes it has. -/
structure Utf8Error where
  first : UInt8
  start : Nat
  length : Nat
  problem : Utf8Problem
deriving DecidableEq, Repr

def Utf8Error.message (e : Utf8Error) : String :=
  let place :=
    if e.length = 1 then
      "byte 0x" ++ String.ofList ((Nat.toDigits 16 (e.first.toNat + 256)).drop 1) ++
        " in position " ++ toString e.start
    else "bytes in position " ++ toString e.start ++ "-" ++ toString (e.start + e.length - 1)
  "'utf-8' codec can't decode " ++ place ++ ": " ++ e.problem.message

/-- How many bytes follow a first byte, the range of the next one, and the bits of the first byte
that belong to the character. -/
def utf8Lead (b : UInt8) : Option (Nat × UInt8 × UInt8 × Nat) :=
  if 0xc2 ≤ b && b ≤ 0xdf then some (1, 0x80, 0xbf, b.toNat - 0xc0)
  else if b == 0xe0 then some (2, 0xa0, 0xbf, 0)
  else if b == 0xed then some (2, 0x80, 0x9f, b.toNat - 0xe0)
  else if 0xe1 ≤ b && b ≤ 0xef then some (2, 0x80, 0xbf, b.toNat - 0xe0)
  else if b == 0xf0 then some (3, 0x90, 0xbf, 0)
  else if 0xf1 ≤ b && b ≤ 0xf3 then some (3, 0x80, 0xbf, b.toNat - 0xf0)
  else if b == 0xf4 then some (3, 0x80, 0x8f, b.toNat - 0xf0)
  else none

/-- Reads on from a position; `pending` is the sequence that has begun: its first byte, its start,
how many bytes are missing, the range of the next one and the bits so far. -/
def decodeFrom (position : Nat) (pending : Option (UInt8 × Nat × Nat × UInt8 × UInt8 × Nat)) :
    List UInt8 → Except Utf8Error (List Char)
  | [] => match pending with
    | none => .ok []
    | some (first, start, _) => .error ⟨first, start, position - start, .unexpectedEnd⟩
  | b :: bs => match pending with
    | none =>
      if b < 0x80 then do return Char.ofNat b.toNat :: (← decodeFrom (position + 1) none bs)
      else match utf8Lead b with
        | none => .error ⟨b, position, 1, .invalidStart⟩
        | some (count, low, high, bits) =>
          decodeFrom (position + 1) (some (b, position, count, low, high, bits)) bs
    | some (first, start, missing, low, high, bits) =>
      if low ≤ b && b ≤ high then
        let bits := bits * 64 + (b.toNat - 0x80)
        if missing ≤ 1 then do return Char.ofNat bits :: (← decodeFrom (position + 1) none bs)
        else decodeFrom (position + 1) (some (first, start, missing - 1, 0x80, 0xbf, bits)) bs
      else .error ⟨first, start, position - start, .invalidContinuation⟩

def decodeUtf8 (bytes : List UInt8) : Except Utf8Error String := do
  return String.ofList (← decodeFrom 0 none bytes)

def encodeUtf8 (s : String) : List UInt8 := s.toUTF8.data.toList

end FormatFuzz.Text
