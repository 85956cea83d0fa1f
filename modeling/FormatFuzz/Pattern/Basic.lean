import FormatFuzz.Text.Word
import FormatFuzz.Text.Blank
import FormatFuzz.Text.Digit
import FormatFuzz.Text.LetterCase

/-!
# Patterns

A pattern describes stretches of a text: a character of a class, a place such as the beginning of a
line, patterns in sequence, a choice between patterns, and a pattern repeated. The only question
asked of a pattern is whether a text holds a stretch that it describes, so which of several
stretches is meant does not matter, and neither does the order in which a choice is tried.
-/

namespace FormatFuzz

inductive Category
  | digit
  | blank
  | word
deriving DecidableEq, Repr

def Category.contains : Category → Char → Bool
  | digit, c => Text.isDecimal c
  | blank, c => Text.isBlank c
  | word, c => Text.isWordChar c

/-- The parts of a class: the code points from one to another, a category or all that is not in it. -/
inductive ClassItem
  | range (first last : Nat)
  | category (category : Category) (complement : Bool)
deriving DecidableEq, Repr

/-- A set of characters: those of the items, or those of none of them. When case is ignored a range
also holds what differs from a member only in case, and a category is asked for the lower case. -/
structure CharClass where
  items : List ClassItem
  complement : Bool := false
  ignoreCase : Bool := false
deriving DecidableEq, Repr

namespace CharClass

def one (code : Nat) (ignoreCase : Bool) : CharClass := ⟨[.range code code], false, ignoreCase⟩

def any (lineEnds : Bool) : CharClass :=
  ⟨if lineEnds then [] else [.range 10 10], true, false⟩

def contains (s : CharClass) (c : Char) : Bool :=
  let codes := if s.ignoreCase then Text.sameCase c else [c.toNat]
  let lower := if s.ignoreCase then Char.ofNat (Text.lowerCode c.toNat) else c
  let found := s.items.any fun
    | .range first last => codes.any fun code => first ≤ code && code ≤ last
    | .category k complement => k.contains lower != complement
  found != s.complement

end CharClass

/-- Places between characters. -/
inductive Anchor
  | textStart
  | textEnd
  /-- The end of the text, or the place before a line end that closes it. -/
  | lastLineEnd
  | lineStart
  | lineEnd
  /-- The places where a word begins or ends. -/
  | wordEdge
  | noWordEdge
deriving DecidableEq, Repr

/-- Whether a place is at a position, from the character before it and the text after it. An empty
text has neither edges of words nor places that are none. -/
def Anchor.holds (a : Anchor) (before : Option Char) (after : List Char) : Bool :=
  let isWord (c : Option Char) := c.any Text.isWordChar
  let edge := isWord before != isWord after.head?
  let emptyText := before.isNone && after.isEmpty
  match a with
  | textStart => before.isNone
  | textEnd => after.isEmpty
  | lastLineEnd => after == [] || after == ['\n']
  | lineStart => before.isNone || before == some '\n'
  | lineEnd => after.isEmpty || after.head? == some '\n'
  | wordEdge => edge && !emptyText
  | noWordEdge => !edge && !emptyText

inductive Shape (α : Type)
  | nothing
  | leaf (a : α)
  | sequence (first second : Shape α)
  | either (left right : Shape α)
  | repetition (body : Shape α) (least : Nat) (most : Option Nat)
deriving DecidableEq, Repr

def Shape.map {α β : Type} (f : α → β) : Shape α → Shape β
  | nothing => nothing
  | leaf a => leaf (f a)
  | sequence p q => sequence (p.map f) (q.map f)
  | either p q => either (p.map f) (q.map f)
  | repetition p least most => repetition (p.map f) least most

/-- The leaves of a pattern: step over a character of a class, or stay at a place. -/
inductive Leaf
  | char (set : CharClass)
  | anchor (place : Anchor)
deriving DecidableEq, Repr

abbrev Pattern := Shape Leaf

end FormatFuzz
