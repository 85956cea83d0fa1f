import FormatFuzz.Value
import FormatFuzz.Text.Blank

namespace FormatFuzz

/-- Values as they are shown: texts, other scalars, sequences in brackets or parentheses, mappings
of names. -/
inductive Shown
  | text (s : String)
  | atom (s : String)
  | list (items : List Shown)
  | tuple (items : List Shown)
  | mapping (entries : List (String × Shown))
deriving Repr, Inhabited

namespace Shown

/-- Entries in the order of their names, the last of each name. -/
def sortEntries (entries : List (String × Shown)) : List (String × Shown) :=
  let last := entries.foldl (fun es e => es.filter (·.1 != e.1) ++ [e]) []
  last.mergeSort fun a b => a.1 ≤ b.1

mutual

def ofData : Data → Shown
  | .prim (.str s) => text s
  | .prim v => atom v.repr
  | .list vs => list (ofItems vs)
  | .dict es => mapping (sortEntries (ofEntries es))
  | .other _ t => atom t

def ofItems : List Data → List Shown
  | [] => []
  | v :: vs => ofData v :: ofItems vs

def ofEntries : List (Data × Data) → List (String × Shown)
  | [] => []
  | (k, v) :: es => (k.text, ofData v) :: ofEntries es

end

/-- The end of a sequence in parentheses: a sequence of one item has a comma after it. -/
def tupleEnd (items : List Shown) : String := if items.length == 1 then ",)" else ")"

mutual

def line (depth : Nat) : Shown → String
  | text s => Text.quoted s
  | atom s => s
  | list [] => "[]"
  | tuple [] => "()"
  | mapping [] => "\x7b\x7d"
  | list items => "[" ++ inside depth (lineItems (depth - 1) items) ++ "]"
  | tuple items => "(" ++ inside depth (lineItems (depth - 1) items) ++ tupleEnd items
  | mapping es => "\x7b" ++ inside depth (lineEntries (depth - 1) es) ++ "\x7d"

def lineItems (depth : Nat) : List Shown → List String
  | [] => []
  | v :: vs => line depth v :: lineItems depth vs

def lineEntries (depth : Nat) : List (String × Shown) → List String
  | [] => []
  | (k, v) :: es => (Text.quoted k ++ ": " ++ line depth v) :: lineEntries depth es

/-- Parts side by side, or dots when no level is left. -/
def inside (depth : Nat) (parts : List String) : String :=
  if depth = 0 then "..." else ", ".intercalate parts

end

def linesWithEnds (line : List Char) : List Char → List (List Char)
  | [] => if line.isEmpty then [] else [line.reverse]
  | '\r' :: '\n' :: cs => ('\n' :: '\r' :: line).reverse :: linesWithEnds [] cs
  | c :: cs =>
    if Text.isLineEnd c then (c :: line).reverse :: linesWithEnds [] cs
    else linesWithEnds (c :: line) cs

/-- The words of a text, each with the blanks after it; blanks in front are a word of their own. -/
def wordsWithBlanks (word : List Char) : List Char → List (List Char)
  | [] => if word.isEmpty then [] else [word.reverse]
  | c :: cs =>
    if word.head?.any Text.isBlank && !Text.isBlank c then
      word.reverse :: wordsWithBlanks [c] cs
    else wordsWithBlanks (c :: word) cs

def quotedLength (cs : List Char) : Nat := (Text.quoted (String.ofList cs)).length

/-- Words gathered into pieces that fit into a width. The last word needs room for `allowance` more
characters. -/
def gather (width allowance : Int) (piece : List Char) : List (List Char) → List (List Char)
  | [] => if piece.isEmpty then [] else [piece]
  | word :: words =>
    let room := if words.isEmpty then width - allowance else width
    if room < quotedLength (piece ++ word) then
      let rest := gather width allowance word words
      if piece.isEmpty then rest else piece :: rest
    else gather width allowance (piece ++ word) words

/-- The pieces of a text: its lines, and the parts of those that do not fit. -/
def pieces (width allowance : Int) : List (List Char) → List (List Char)
  | [] => []
  | l :: ls =>
    let allowance' := if ls.isEmpty then allowance else 0
    let here := if quotedLength l ≤ width - allowance' then [l]
      else gather width allowance' [] (wordsWithBlanks [] l)
    here ++ pieces width allowance ls

def lineWidth : Nat := 80

def newline (indent : Nat) : String := "\n" ++ String.ofList (List.replicate indent ' ')

def spreadText (indent allowance : Nat) (s : String) : String :=
  if s.isEmpty then Text.quoted s
  else (newline indent).intercalate
    ((pieces (lineWidth - indent) allowance (linesWithEnds [] s.toList)).map
      fun p => Text.quoted (String.ofList p))

mutual

/-- A value from a column on, with room for `allowance` characters after it. -/
def layout (depth indent allowance : Nat) (v : Shown) : String :=
  let onLine := line depth v
  if onLine.length + indent + allowance ≤ lineWidth then onLine
  else match v with
    | text s => spreadText indent allowance s
    | atom s => s
    | list items => "[" ++ layoutItems (depth - 1) (indent + 1) (allowance + 1) items ++ "]"
    | tuple items =>
      let close := tupleEnd items
      "(" ++ layoutItems (depth - 1) (indent + 1) (allowance + close.length) items ++ close
    | mapping es => "\x7b" ++ layoutEntries (depth - 1) (indent + 1) (allowance + 1) es ++ "\x7d"

def layoutItems (depth indent allowance : Nat) : List Shown → String
  | [] => ""
  | v :: vs =>
    match vs with
    | [] => layout depth indent allowance v
    | vs => layout depth indent 1 v ++ "," ++ newline indent ++
      layoutItems depth indent allowance vs

def layoutEntries (depth indent allowance : Nat) : List (String × Shown) → String
  | [] => ""
  | (k, v) :: es =>
    let start := Text.quoted k ++ ": "
    let column := indent + start.length
    match es with
    | [] => start ++ layout depth column allowance v
    | es => start ++ layout depth column 1 v ++ "," ++ newline indent ++
      layoutEntries depth indent allowance es

end

def shownLevels : Nat := 10

def render (v : Shown) : String := layout shownLevels 0 0 v

end Shown

end FormatFuzz
