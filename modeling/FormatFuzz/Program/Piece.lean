import FormatFuzz.Text.Search

namespace FormatFuzz.Program

inductive LexemeKind
  | name
  | number
  | string
  | operator
deriving DecidableEq, Repr

inductive Piece
  | lexeme (kind : LexemeKind) (text : String)
  | gap
deriving DecidableEq, Repr

namespace Piece

def word (text : String) : Piece := lexeme .name text

def op (text : String) : Piece := lexeme .operator text

def text : Piece → String
  | lexeme _ t => t
  | gap => " "

def textOf (ps : List Piece) : String := String.join (ps.map text)

def commas : List (List Piece) → List Piece
  | [] => []
  | [row] => row
  | row :: rows => row ++ op "," :: gap :: commas rows

/-- The items of a tuple: a comma follows a single one. -/
def items : List (List Piece) → List Piece
  | [row] => row ++ [op ","]
  | rows => commas rows

def enclose (left right : String) (row : List Piece) : List Piece := op left :: row ++ [op right]

/-- A row between round brackets if these are needed. -/
def parens (needed : Bool) (row : List Piece) : List Piece :=
  if needed then enclose "(" ")" row else row

def dotted (name : String) : List Piece :=
  match Text.splitAt (· == '.') name.toList with
  | [] => []
  | part :: parts =>
    word (String.ofList part) :: parts.flatMap fun p => [op ".", word (String.ofList p)]

end Piece

structure Line where
  level : Nat
  pieces : List Piece
deriving DecidableEq, Repr

namespace Line

def blank : Line := ⟨0, []⟩

/-- A blank line is not indented. -/
def text (l : Line) : String :=
  if l.pieces.isEmpty then "" else String.ofList (List.replicate (4 * l.level) ' ') ++
    Piece.textOf l.pieces

/-- The text of a program; it does not begin with a blank line. -/
def textOf : List Line → String
  | [] => ""
  | l :: ls =>
    if l.pieces.isEmpty then "\n".intercalate (ls.map text)
    else "\n".intercalate (l.text :: ls.map text)

end Line

end FormatFuzz.Program
