/-!
# Common stretches

The longest stretch of characters that two texts share: of several the one that begins first in the
first text, and of these the one that begins first in the second text. For every character of the
first text a row is kept of how many characters in front of each position of the second text,
up to the two positions, are the same.
-/

namespace FormatFuzz

/-- A stretch of a text that is also a stretch of another one: where it begins in both, and its
length. -/
structure Stretch where
  first : Nat
  second : Nat
  size : Nat
deriving DecidableEq, Repr, Inhabited

namespace Stretch

/-- The row of the next character of the first text. `diagonal` is the entry of the row before that
belongs to the position in front. -/
def nextRow (c : Char) (diagonal : Nat) : List Char → List Nat → List Nat
  | b :: bs, p :: ps => (if b = c then diagonal + 1 else 0) :: nextRow c p bs ps
  | _, _ => []

/-- The longer of the best stretch and those that end with character `i` of the first text and, by
the row from position `j` on, in the second one. -/
def improve (i j : Nat) (best : Stretch) : List Nat → Stretch
  | [] => best
  | k :: row =>
    improve i (j + 1) (if best.size < k then ⟨i + 1 - k, j + 1 - k, k⟩ else best) row

def longestFrom (i : Nat) (b : List Char) (row : List Nat) (best : Stretch) :
    List Char → Stretch
  | [] => best
  | c :: cs =>
    let row := nextRow c 0 b row
    longestFrom (i + 1) b row (improve i 0 best row) cs

def longest (a b : List Char) : Stretch :=
  longestFrom 0 b (List.replicate b.length 0) ⟨0, 0, 0⟩ a

end Stretch

end FormatFuzz
