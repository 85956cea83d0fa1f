import FormatFuzz.Program.Dump
import FormatFuzz.Program.Piece
import FormatFuzz.Text.Search

namespace FormatFuzz.Program

open Piece

abbrev Level := Nat

namespace Level

def walrus : Level := 1
def tuple : Level := 2
def statement : Level := 3
def test : Level := 4
def or : Level := 5
def and : Level := 6
def not : Level := 7
def comparison : Level := 8
def bitOr : Level := 9
def bitXor : Level := 10
def bitAnd : Level := 11
def shift : Level := 12
def arithmetic : Level := 13
def term : Level := 14
def factor : Level := 15
def power : Level := 16
def atom : Level := 18

/-- The next tighter level; there is none above `atom`. -/
def next (l : Level) : Level := min (l + 1) atom

end Level

def BinaryOp.text : BinaryOp → String
  | add => "+" | sub => "-" | mult => "*" | div => "/" | floorDiv => "//" | mod => "%"
  | pow => "**" | lShift => "<<" | rShift => ">>" | bitOr => "|" | bitAnd => "&" | bitXor => "^"
  | matMult => "@"

def BinaryOp.level : BinaryOp → Level
  | add | sub => .arithmetic
  | mult | div | floorDiv | mod | matMult => .term
  | pow => .power
  | lShift | rShift => .shift
  | bitOr => .bitOr
  | bitAnd => .bitAnd
  | bitXor => .bitXor

/-- The levels of the two operands: all operators but the power group to the left. -/
def BinaryOp.operandLevels (op : BinaryOp) : Level × Level :=
  match op with
  | pow => (op.level.next, op.level)
  | _ => (op.level, op.level.next)

def UnaryOp.pieces : UnaryOp → List Piece
  | not => [word "not", gap]
  | minus => [op "-"]
  | plus => [op "+"]
  | invert => [op "~"]

def UnaryOp.level : UnaryOp → Level
  | not => .not
  | _ => .factor

def BoolOp.text : BoolOp → String
  | and => "and"
  | or => "or"

def BoolOp.level : BoolOp → Level
  | and => .and
  | or => .or

def CompareOp.pieces : CompareOp → List Piece
  | eq => [op "=="] | notEq => [op "!="] | lt => [op "<"] | ltE => [op "<="] | gt => [op ">"]
  | gtE => [op ">="] | is => [word "is"] | isNot => [word "is", gap, word "not"]
  | isIn => [word "in"] | notIn => [word "not", gap, word "in"]

def Literal.piece (v : Literal) : Piece :=
  let kind : LexemeKind := match v with
    | int _ | float _ | imaginary _ => .number
    | str _ | bytes _ => .string
    | bool _ | none => .name
    | ellipsis => .operator
  .lexeme kind v.text

/-- Whether a point directly behind the expression would be read as part of a number. -/
def Expr.isInteger : Expr → Bool
  | .constant (.int _) | .constant (.bool _) => true
  | _ => false

def paramPieces (params : List String) : List Piece := commas (params.map fun p => [word p])

def comparisons (ops : List CompareOp) (operands : List (List Piece)) : List Piece :=
  (List.zipWith (fun o row => gap :: o.pieces ++ gap :: row) ops operands).flatten

def entries (keys values : List (List Piece)) : List (List Piece) :=
  List.zipWith (fun k v => k ++ [op ":", gap] ++ v) keys values

def conditions (rows : List (List Piece)) : List Piece :=
  rows.flatMap fun row => [gap, word "if", gap] ++ row

mutual

/-- An expression in surroundings of a binding level. -/
def Expr.pieces (level : Level) : Expr → List Piece
  | .name id _ => [word id]
  | .constant v => [v.piece]
  | .binary l o r =>
    parens (level > o.level)
      (l.pieces o.operandLevels.1 ++ [gap, op o.text, gap] ++ r.pieces o.operandLevels.2)
  | .unary o e => parens (level > o.level) (o.pieces ++ e.pieces o.level)
  | .bool o vs => parens (level > o.level) (chain o.text o.level.next vs)
  | .compare l os rs =>
    parens (level > .comparison) (l.pieces Level.comparison.next ++ comparisons os (rows Level.comparison.next rs))
  | .call f args kws =>
    f.pieces .atom ++ enclose "(" ")" (commas (rows .test args ++ keywordRows kws))
  | .attribute v attr _ =>
    v.pieces .atom ++ (if v.isInteger then [gap] else []) ++ [op ".", word attr]
  | .subscript v (.tuple (e :: es) _) _ =>
    v.pieces .atom ++ enclose "[" "]" (items (e.pieces .test :: rows .test es))
  | .subscript v i _ => v.pieces .atom ++ enclose "[" "]" (i.pieces .test)
  | .slice l u s =>
    optionPieces l ++ op ":" :: optionPieces u ++ (if s.isSome then [op ":"] else []) ++
      optionPieces s
  | .list es _ => enclose "[" "]" (commas (rows .test es))
  | .tuple es _ => parens (es.isEmpty || level > .tuple) (items (rows .test es))
  | .set es => enclose "\x7b" "\x7d" (commas (rows .test es))
  | .dict ks vs => enclose "\x7b" "\x7d" (commas (entries (rows .test ks) (rows .test vs)))
  | .conditional t b o =>
    parens (level > .test) (b.pieces Level.test.next ++ [gap, word "if", gap] ++
      t.pieces Level.test.next ++ [gap, word "else", gap] ++ o.pieces .test)
  | .lambda ps b =>
    parens (level > .test) ([word "lambda"] ++ (if ps.isEmpty then [] else [gap]) ++
      paramPieces ps ++ [op ":", gap] ++ b.pieces .test)
  | .comprehension e t i cs =>
    enclose "[" "]" (e.pieces .test ++ [gap, word "for", gap] ++ t.pieces .tuple ++
      [gap, word "in", gap] ++ i.pieces Level.test.next ++ conditions (rows Level.test.next cs))
  | .walrus t v =>
    parens (level > .walrus) (t.pieces .atom ++ [gap, op ":=", gap] ++ v.pieces .atom)

/-- Operands of one boolean operator, each one level tighter than the one before. -/
def chain (word : String) (level : Level) : List Expr → List Piece
  | [] => []
  | [e] => e.pieces level
  | e :: es => e.pieces level ++ [gap, Piece.word word, gap] ++ chain word level.next es

def rows (level : Level) : List Expr → List (List Piece)
  | [] => []
  | e :: es => e.pieces level :: rows level es

def keywordRows : List (String × Expr) → List (List Piece)
  | [] => []
  | (n, e) :: rest => (word n :: op "=" :: e.pieces .test) :: keywordRows rest

def optionPieces : Option Expr → List Piece
  | none => []
  | some e => e.pieces .test

end

/-- The triple-quoted form of a text: line feeds and tabs stand for themselves, and the kind of
quote is one that does not occur tripled and, if possible, is not the last character. -/
def docstring (s : String) : String :=
  let body := s.toList.flatMap fun c =>
    if c = '\n' || c = '\t' then [c]
    else if c = '\\' || !Text.isPrintable c then Text.escape c
    else [c]
  let occurs := fun (q : Char) => Text.occursIn [q, q, q] body
  let close := fun (q : Char) (cs : List Char) => String.ofList ([q, q, q] ++ cs ++ [q, q, q])
  let ends := fun (q : Char) => body.getLast? == some q
  match occurs '"', occurs '\'' with
  | false, false => if ends '"' then close '\'' body else close '"' body
  | false, true => if ends '"' then close '"' (body.dropLast ++ ['\\', '"']) else close '"' body
  | true, false => if ends '\'' then close '\'' (body.dropLast ++ ['\\', '\'']) else close '\'' body
  | true, true => close (Text.quoteFor s.toList) (Text.quotedBody s.toList)

def asPieces : Option (List Piece) → List Piece
  | none => []
  | some row => [gap, word "as", gap] ++ row

def opening (level : Nat) (pieces : List Piece) : Line := ⟨level, pieces ++ [op ":"]⟩

mutual

/-- The lines of a statement; a conditional that continues another one begins with `elif`. -/
def Stmt.lines (level : Nat) (continues : Bool) : Stmt → List Line
  | .assign ts v =>
    [⟨level, ts.flatMap (fun t => t.pieces .tuple ++ [gap, op "=", gap]) ++ v.pieces .test⟩]
  | .augmented t o v =>
    [⟨level, t.pieces .test ++ [gap, op (o.text ++ "="), gap] ++ v.pieces .test⟩]
  | .annotated t a v =>
    [⟨level, t.pieces .test ++ [op ":", gap] ++ a.pieces .test ++ (match v with
      | none => []
      | some v => [gap, op "=", gap] ++ v.pieces .test)⟩]
  | .delete t => [⟨level, [word "del", gap] ++ t.pieces .test⟩]
  | .assert t m =>
    [⟨level, [word "assert", gap] ++ t.pieces .test ++ (match m with
      | none => []
      | some m => [op ",", gap] ++ m.pieces .test)⟩]
  | .raise e => [⟨level, [word "raise", gap] ++ e.pieces .test⟩]
  | .importModule m => [⟨level, [word "import", gap] ++ dotted m⟩]
  | .importFrom m n =>
    [⟨level, [word "from", gap] ++ dotted m ++ [gap, word "import", gap, word n]⟩]
  | .globalNames ns => [⟨level, [word "global", gap] ++ commas (ns.map fun n => [word n])⟩]
  | .nonlocalNames ns => [⟨level, [word "nonlocal", gap] ++ commas (ns.map fun n => [word n])⟩]
  | .returnValue v =>
    [⟨level, word "return" :: (match v with
      | none => []
      | some v => gap :: v.pieces .test)⟩]
  | .breakLoop => [⟨level, [word "break"]⟩]
  | .continueLoop => [⟨level, [word "continue"]⟩]
  | .pass => [⟨level, [word "pass"]⟩]
  | .expr v => [⟨level, v.pieces .statement⟩]
  | .branch t b o =>
    opening level ([word (if continues then "elif" else "if"), gap] ++ t.pieces .test) ::
      blockLines (level + 1) b ++ elseLines level o
  | .whileLoop t b =>
    opening level ([word "while", gap] ++ t.pieces .test) :: blockLines (level + 1) b
  | .forLoop t i b =>
    opening level ([word "for", gap] ++ t.pieces .tuple ++ [gap, word "in", gap] ++
      i.pieces .test) :: blockLines (level + 1) b
  | .withBlock c t b =>
    opening level ([word "with", gap] ++ c.pieces .test ++ asPieces (t.map (Expr.pieces .test))) ::
      blockLines (level + 1) b
  | .tryBlock b e n h f =>
    opening level [word "try"] :: blockLines (level + 1) b ++
      opening level ([word "except", gap] ++ e.pieces .test ++
        asPieces (n.map fun n => [word n])) :: blockLines (level + 1) h ++
      (match f with
        | [] => []
        | _ => opening level [word "finally"] :: blockLines (level + 1) f)
  | .function n ps b ds r =>
    .blank :: ds.map (fun d => ⟨level, op "@" :: d.pieces .test⟩) ++
      opening level ([word "def", gap, word n] ++ enclose "(" ")" (paramPieces ps) ++ (match r with
        | none => []
        | some r => [gap, op "->", gap] ++ r.pieces .test)) :: suiteLines (level + 1) b
  | .classDef n bs b =>
    .blank :: opening level ([word "class", gap, word n] ++
      (if bs.isEmpty then [] else enclose "(" ")" (commas (bs.map (Expr.pieces .test))))) ::
      suiteLines (level + 1) b

def blockLines (level : Nat) : List Stmt → List Line
  | [] => []
  | s :: ss => s.lines level false ++ blockLines level ss

/-- The alternative of a conditional: a single conditional continues it. -/
def elseLines (level : Nat) : List Stmt → List Line
  | [] => []
  | s :: ss => match s, ss with
    | .branch .., [] => s.lines level true
    | _, _ => opening level [word "else"] :: s.lines (level + 1) false ++ blockLines (level + 1) ss

def suiteLines (level : Nat) : List Stmt → List Line
  | [] => []
  | s :: ss => match s with
    | .expr (.constant (.str doc)) =>
      ⟨level, [.lexeme .string (docstring doc)]⟩ :: blockLines level ss
    | _ => s.lines level false ++ blockLines level ss

end

def Expr.source (e : Expr) : String := textOf (e.pieces .test)

def Stmt.source (s : Stmt) : String := Line.textOf (s.lines 0 false)

def Module.lines (m : Module) : List Line := suiteLines 0 m.body

def Module.source (m : Module) : String := Line.textOf m.lines

end FormatFuzz.Program
