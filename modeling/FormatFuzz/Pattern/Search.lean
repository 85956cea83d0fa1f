import FormatFuzz.Pattern.Basic

/-!
# Searching with a pattern

The positions of a text are the places before, between and after its characters, counted from zero.
A set of positions is a number whose bits are its members, and a pattern maps a set of positions to
the set of positions where a stretch that it describes and that begins in the set can end. A text
holds a stretch that the pattern describes if some position is reached from all of them together.
-/

namespace FormatFuzz

/-- The positions of a text where a test holds, given the character before and the text after. -/
def positionsWhere (test : Option Char → List Char → Bool) (before : Option Char) :
    List Char → Nat
  | [] => (test before []).toNat
  | c :: cs => 2 * positionsWhere test (some c) cs + (test before (c :: cs)).toNat

/-- What a leaf does at once to all positions: it keeps some of them and moves them on or not. -/
structure Filter where
  kept : Nat
  moves : Bool

def Leaf.filter (text : List Char) : Leaf → Filter
  | char set => ⟨positionsWhere (fun _ after => after.head?.any set.contains) none text, true⟩
  | anchor place => ⟨positionsWhere place.holds none text, false⟩

def Filter.apply (f : Filter) (s : Nat) : Nat :=
  if f.moves then (s &&& f.kept) <<< 1 else s &&& f.kept

def iterate (step : Nat → Nat) : Nat → Nat → Nat
  | 0, s => s
  | n + 1, s => iterate step n (step s)

def closure (step : Nat → Nat) : Nat → Nat → Nat
  | 0, s => s
  | n + 1, s =>
    let next := s ||| step s
    if next = s then s else closure step n next

/-- The positions that a pattern reaches from a set of positions. More steps than there are positions
reach nothing new, so `positions` bounds both numbers of a repetition. -/
def Shape.reach (positions : Nat) : Shape Filter → Nat → Nat
  | nothing, s => s
  | leaf f, s => f.apply s
  | sequence p q, s => q.reach positions (p.reach positions s)
  | either p q, s => p.reach positions s ||| q.reach positions s
  | repetition p least most, s =>
    let more := match most with
      | some most => min (most - least) positions
      | none => positions
    closure (p.reach positions) more (iterate (p.reach positions) (min least positions) s)

/-- Whether a text holds a stretch that a pattern describes. -/
def Pattern.occursIn (p : Pattern) (text : String) : Bool :=
  let cs := text.toList
  let positions := cs.length + 1
  (Shape.map (Leaf.filter cs) p).reach positions (1 <<< positions - 1) != 0

end FormatFuzz
