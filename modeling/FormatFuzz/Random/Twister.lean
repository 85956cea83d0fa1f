import FormatFuzz.Random.Source

namespace FormatFuzz.Random

/-- The words of one generation and how many of them have been handed out. -/
structure Twister where
  words : Array UInt32
  used : Nat

namespace Twister

def size : Nat := 624

/-- The state that grows from a single word. -/
def spread (seed : UInt32) : Array UInt32 :=
  (List.range (size - 1)).foldl
    (fun (ws : Array UInt32) i =>
      let last : UInt32 := ws.getD i 0
      ws.push ((last ^^^ (last >>> 30)) * 1812433253 + UInt32.ofNat (i + 1)))
    #[seed]

/-- Words and a position that runs from one to the last word and round again. -/
abbrev Cursor := Array UInt32 × Nat

/-- Mixes a change into the word at the cursor and moves on; past the end the last word becomes
the first. -/
def mix (multiplier : UInt32) (change : UInt32 → UInt32) : Cursor → Cursor
  | (ws, i) =>
    let prev := ws.getD (i - 1) 0
    let ws := ws.setIfInBounds i (change (ws.getD i 0 ^^^ ((prev ^^^ (prev >>> 30)) * multiplier)))
    if i + 1 < size then (ws, i + 1) else (ws.setIfInBounds 0 (ws.getD (size - 1) 0), 1)

def ofKey (key : List UInt32) : Twister :=
  let rounds := max size key.length
  let absorb := fun (c : Cursor) n =>
    let j := n % key.length
    mix 1664525 (fun w => w + key.getD j 0 + UInt32.ofNat j) c
  let stir := fun (c : Cursor) (_ : Nat) => mix 1566083941 (fun w => w - UInt32.ofNat c.2) c
  let start : Cursor := (spread 19650218, 1)
  let absorbed := (List.range rounds).foldl absorb start
  let (ws, _) := (List.range (size - 1)).foldl stir absorbed
  { words := ws.setIfInBounds 0 0x80000000, used := size }

/-- The 32-bit limbs of a number, least significant first; zero has one limb. -/
def limbs (n : Nat) : List UInt32 :=
  if h : n < 0x100000000 then [UInt32.ofNat n]
  else UInt32.ofNat n :: limbs (n / 0x100000000)
termination_by n
decreasing_by omega

/-- The state for a seed; a number and its negative give the same one. -/
def ofSeed (seed : Int) : Twister := ofKey (limbs seed.natAbs)

def twistAt (ws : Array UInt32) (i : Nat) : Array UInt32 :=
  let y := (ws.getD i 0 &&& 0x80000000) ||| (ws.getD ((i + 1) % size) 0 &&& 0x7fffffff)
  let flip : UInt32 := if y &&& 1 = 1 then 0x9908b0df else 0
  ws.setIfInBounds i (ws.getD ((i + 397) % size) 0 ^^^ (y >>> 1) ^^^ flip)

def twist (ws : Array UInt32) : Array UInt32 := (List.range size).foldl twistAt ws

def temper (w : UInt32) : UInt32 :=
  let w := w ^^^ (w >>> 11)
  let w := w ^^^ ((w <<< 7) &&& 0x9d2c5680)
  let w := w ^^^ ((w <<< 15) &&& 0xefc60000)
  w ^^^ (w >>> 18)

/-- The next word; a used-up generation is replaced first. -/
def nextWord (t : Twister) : UInt32 × Twister :=
  let t := if t.used < size then t else { words := twist t.words, used := 0 }
  (temper (t.words.getD t.used 0), { t with used := t.used + 1 })

instance : Source Twister := ⟨nextWord⟩

end Twister

end FormatFuzz.Random
