import FormatFuzz.Text.Search
import FormatFuzz.Text.Blank

/-!
# Markup

Texts that the commands print can hold tags in brackets, which set the style of what is between an
opening and a closing tag and are not printed themselves. A tag begins with a small letter or one of
three signs and ends at the next closing bracket, unless another opening one comes first. A backslash
in front of a tag makes it a plain text, and two of them stand for one there.
-/

namespace FormatFuzz.Markup

inductive Piece
  | plain (text : List Char)
  | tag (text : List Char)
deriving DecidableEq, Repr

inductive MarkupError
  | notOpen (tag : String) (position : Nat)
  | nothingOpen (position : Nat)
deriving DecidableEq, Repr

def MarkupError.message : MarkupError → String
  | notOpen tag position =>
    "closing tag '[" ++ tag ++ "]' at position " ++ toString position ++
      " doesn't match any open tag"
  | nothingOpen position =>
    "closing tag '[/]' at position " ++ toString position ++ " has nothing to close"

def startsTag (c : Char) : Bool :=
  ('a' ≤ c && c ≤ 'z') || c == '#' || c == '/' || c == '@'

def tag? : List Char → Option (List Char)
  | '[' :: c :: cs =>
    let inner := cs.takeWhile fun d => d != '[' && d != ']'
    if startsTag c && (cs.drop inner.length).head? == some ']' then some (c :: inner) else none
  | _ => none

/-- A tag at the front with the backslashes before it: their number and its text. -/
def escapedTag? (cs : List Char) : Option (Nat × List Char) :=
  let slashes := (cs.takeWhile (· == '\\')).length
  (tag? (cs.drop slashes)).map fun t => (slashes, t)

/-- How a tag counts after a number of backslashes: two stand for one, and one that is left over
makes the tag plain. -/
def tagPieces (position slashes : Nat) (tag : List Char) : List (Nat × Piece) :=
  let half := slashes / 2
  (if half = 0 then [] else [(position, .plain (List.replicate half '\\'))]) ++
    if slashes % 2 = 1 then [(position + 2 * half, .plain ('[' :: tag ++ [']']))]
    else [(position + 2 * half, .tag tag)]

/-- The parts of a text with the places where they begin. The first `skip` characters belong to a
tag that is already among them; `before` holds the plain characters before, the latest first. -/
def piecesFrom (position skip : Nat) (before : List Char) : List Char → List (Nat × Piece)
  | [] => flush position before
  | c :: cs =>
    match skip with
    | skip + 1 => piecesFrom (position + 1) skip before cs
    | 0 =>
      match escapedTag? (c :: cs) with
      | some (slashes, tag) =>
        flush position before ++ tagPieces position slashes tag ++
          piecesFrom (position + 1) (slashes + tag.length + 1) [] cs
      | none => piecesFrom (position + 1) 0 (c :: before) cs
where
  flush (position : Nat) (before : List Char) : List (Nat × Piece) :=
    if before.isEmpty then [] else [(position - before.length, .plain before.reverse)]

def styleOf (tag : List Char) : List Char :=
  (Text.trim (tag.takeWhile (· != '='))).map Char.toLower

def printPieces (opened : List (List Char)) : List (Nat × Piece) → Except MarkupError (List Char)
  | [] => .ok []
  | (_, .plain text) :: rest =>
    (printPieces opened rest).map (Text.replaceAll ['\\', '['] ['['] text ++ ·)
  | (position, .tag ('/' :: tag)) :: rest =>
    let style := styleOf tag
    if style.isEmpty then
      match opened with
      | [] => .error (.nothingOpen position)
      | _ :: opened => printPieces opened rest
    else if opened.contains style then printPieces (opened.erase style) rest
    else .error (.notOpen (String.ofList ('/' :: tag)) position)
  | (_, .tag tag) :: rest => printPieces (styleOf tag :: opened) rest

def print (text : String) : Except MarkupError String :=
  (printPieces [] (piecesFrom 0 0 [] text.toList)).map String.ofList

/-- A text with its tags made plain, the first `skip` characters being taken over as they are. -/
def escapeFrom (skip : Nat) : List Char → List Char
  | [] => []
  | c :: cs =>
    match skip with
    | skip + 1 => c :: escapeFrom skip cs
    | 0 =>
      match escapedTag? (c :: cs) with
      | some (slashes, tag) =>
        List.replicate (slashes + 1) '\\' ++ c :: escapeFrom (slashes + tag.length + 1) cs
      | none => c :: escapeFrom 0 cs

/-- A text with its tags made plain. A backslash at its end is doubled, if it is the only one. -/
def escape (text : String) : String :=
  let cs := escapeFrom 0 text.toList
  let slashes := (cs.reverse.takeWhile (· == '\\')).length
  String.ofList (if slashes = 1 then cs ++ ['\\'] else cs)

end FormatFuzz.Markup
