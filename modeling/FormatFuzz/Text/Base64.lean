namespace FormatFuzz.Text

def base64Digit? (c : Char) : Option Nat :=
  if 'A' ≤ c && c ≤ 'Z' then some (c.toNat - 65)
  else if 'a' ≤ c && c ≤ 'z' then some (c.toNat - 71)
  else if '0' ≤ c && c ≤ '9' then some (c.toNat + 4)
  else if c == '+' then some 62
  else if c == '/' then some 63
  else none

/-- The bytes of a text after `place` digits of a group of four, of which `left` is not yet in a byte,
and after `fill` equals signs. -/
def base64BytesFrom (place left fill : Nat) : List Char → Option (List UInt8)
  | [] => if place = 0 then some [] else none
  | c :: cs =>
    if c == '=' then
      if place < 2 then base64BytesFrom place left fill cs
      else if 4 ≤ place + fill + 1 then some []
      else base64BytesFrom place left (fill + 1) cs
    else match base64Digit? c with
      | none => base64BytesFrom place left fill cs
      | some d =>
        -- the first digit of a group makes no byte yet
        if place = 0 then base64BytesFrom 1 d 0 cs
        else
          let low := 6 - 2 * place
          (base64BytesFrom ((place + 1) % 4) (d % Nat.pow 2 low) 0 cs).map
            (UInt8.ofNat (left <<< (2 * place) + d >>> low) :: ·)

def base64Bytes? (text : List Char) : Option (List UInt8) :=
  if text.all fun c => c.toNat < 128 then base64BytesFrom 0 0 0 text else none

end FormatFuzz.Text
