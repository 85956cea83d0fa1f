import FormatFuzz.Program.Tree
import FormatFuzz.Random.Source

/-!
# Random trees

Trees are drawn from the top down with a depth that shrinks on the way, so the recursion is on the
depth. The order of the draws is part of the meaning: the same words from the source give the same
tree.
-/

namespace FormatFuzz.Program

open FormatFuzz.Random FormatFuzz.Random.Draw

def names : List String := ["a", "b", "x", "y", "value", "items", "self", "_tmp", "result"]

def attributeNames : List String := ["real", "append", "keys", "name", "__class__"]

def exceptionNames : List String := ["ValueError", "KeyError", "Exception", "OSError"]

def moduleNames : List String := ["os", "sys", "os.path", "collections", "itertools"]

def sampleStrings : List String :=
  ["", "text", "it's", "say \"hi\"", "tab\tand\nnewline", "\\", "ünïcode"]

def sampleBytes : List (List UInt8) := [[], [98, 121, 116, 101, 115], [0]]

def sampleFloats : List Decimal.Binary64 :=
  [(5, -1), (1, 0), (314, -2), (1, -7), (25, 9)].map fun (digits, exponent) =>
    Decimal.Binary64.ofDecimal false digits exponent

def binaryOps : List BinaryOp :=
  [.add, .sub, .mult, .div, .floorDiv, .mod, .pow, .lShift, .rShift, .bitOr, .bitAnd, .bitXor,
    .matMult]

def unaryOps : List UnaryOp := [.not, .minus, .plus, .invert]

def compareOps : List CompareOp :=
  [.eq, .notEq, .lt, .ltE, .gt, .gtE, .is, .isNot, .isIn, .notIn]

namespace Build

variable {σ : Type} [Source σ]

def name (ctx : Context) : Draw σ Expr := do return .name (← choose names) ctx

def literal : Draw σ Literal := do
  match ← below 6 with
  | 0 => do
    let places ← between 1 12
    return .int (← between 0 (Nat.pow 10 places.toNat)).toNat
  | 1 => return .float (← choose sampleFloats)
  | 2 => return .str (← choose sampleStrings)
  | 3 => return .bytes (← choose sampleBytes)
  | 4 => choose [.bool true, .bool false, .none]
  | _ => choose [.ellipsis, .imaginary 1]

def constant : Draw σ Expr := do return .constant (← literal)

def leaf : Draw σ Expr := do
  if ← chance 1 2 then name .load else constant

def params (count : Nat) : Draw σ (List String) := distinct names count

/-- Between `low` and `high` results. -/
def several {α : Type} (low high : Int) (draw : Draw σ α) : Draw σ (List α) := do
  times draw (← between low high).toNat

def keywords (value : Draw σ Expr) : List String → Draw σ (List (String × Expr))
  | [] => pure []
  | n :: ns => do
    let v ← value
    return (n, v) :: (← keywords value ns)

def accessOf (value : Draw σ Expr) (ctx : Context) : Draw σ Expr := do
  let value ← value
  return .attribute value (← choose attributeNames) ctx

def slice : Draw σ Expr := do
  let lower ← optional 1 (← leaf)
  let upper ← optional 1 (← leaf)
  let step ← optional 2 (← leaf)
  return .slice lower upper step

def itemOf (index : Draw σ Expr) (ctx : Context) : Draw σ Expr := do
  let index ← if ← chance 3 10 then slice else index
  return .subscript (← name .load) index ctx

/-- An expression with parts: `part` draws them, `access` and `item` draw a whole attribute or
subscript. -/
def composite (part access item : Draw σ Expr) : Draw σ Expr := do
  match ← below 15 with
  | 0 => do
    let left ← part
    let op ← choose binaryOps
    return .binary left op (← part)
  | 1 => do
    let op ← choose unaryOps
    return .unary op (← part)
  | 2 => do
    let op ← choose [BoolOp.and, BoolOp.or]
    return .bool op (← several 2 3 part)
  | 3 => do
    let comparators ← several 1 2 part
    let left ← part
    return .compare left (← times (choose compareOps) comparators.length) comparators
  | 4 => do
    let func ← if ← chance 6 10 then name .load else access
    let keywordNames ← distinct names (← between 0 2).toNat
    let keywords ← keywords part keywordNames
    return .call func (← several 0 3 part) keywords
  | 5 => access
  | 6 => item
  | 7 => return .list (← several 0 4 part) .load
  | 8 => return .tuple (← several 0 4 part) .load
  | 9 => return .set (← several 1 3 part)
  | 10 => do
    let keys ← several 0 3 part
    return .dict keys (← times part keys.length)
  | 11 => do
    let test ← part
    let body ← part
    return .conditional test body (← part)
  | 12 => do
    let params ← params (← between 0 2).toNat
    return .lambda params (← part)
  | 13 => do
    let target ← name .store
    let iter ← part
    let conditions ← several 0 1 part
    return .comprehension (← part) target iter conditions
  | _ => do
    let target ← name .store
    return .walrus target (← part)

/-- An expression of a depth; below two it has no parts. -/
def expr : (depth : Nat) → Draw σ Expr
  | 0 => leaf
  | 1 => leaf
  | depth + 2 => do
    if ← chance 3 10 then leaf
    else
      composite (expr (depth + 1))
        (accessOf (if depth = 0 then name .load else expr depth) .load)
        (itemOf (expr depth) .load)

def access (depth : Nat) (ctx : Context) : Draw σ Expr :=
  accessOf (if depth ≤ 1 then name .load else expr (depth - 1)) ctx

def item (depth : Nat) (ctx : Context) : Draw σ Expr := itemOf (expr (depth - 1)) ctx

def target (depth : Nat) : Draw σ Expr := do
  match ← below 4 with
  | 0 => return .tuple (← several 2 3 (name .store)) .store
  | 1 => access 1 .store
  | 2 => item (max depth 2) .store
  | _ => name .store

structure Place where
  inFunction : Bool
  inLoop : Bool
deriving DecidableEq, Repr

def exceptionName : Draw σ Expr := do return .name (← choose exceptionNames) .load

/-- A statement without a body. What is allowed only inside a function or a loop is an expression
elsewhere. -/
def simpleStmt (depth : Nat) (place : Place) : Draw σ Stmt := do
  match ← below 11, place.inFunction, place.inLoop with
  | 0, _, _ => do
    let targets ← several 1 2 (target depth)
    return .assign targets (← expr depth)
  | 1, _, _ => do
    let target ← name .store
    let op ← choose binaryOps
    return .augmented target op (← expr depth)
  | 2, _, _ => do
    let target ← name .store
    let annotation ← name .load
    return .annotated target annotation (← optional 1 (← expr depth))
  | 3, _, _ => return .delete (← name .del)
  | 4, _, _ => do
    let test ← expr depth
    return .assert test (← optional 1 (← leaf))
  | 5, _, _ => do
    let func ← exceptionName
    return .raise (.call func (← several 0 1 (expr depth)) [])
  | 6, _, _ => do
    let origin ← choose moduleNames
    if ← chance 1 2 then return .importModule origin
    else return .importFrom origin (← choose names)
  | 7, true, _ => return .returnValue (← optional 1 (← expr depth))
  | 8, _, true => choose [.breakLoop, .continueLoop]
  | 9, _, _ => return .pass
  | _, _, _ => return .expr (← expr depth)

def compoundWith (depth : Nat) (body : Place → Draw σ (List Stmt)) (place : Place) :
    Draw σ Stmt := do
  match ← below 7 with
  | 0 => do
    let orelse ← if ← chance 4 10 then body place else pure []
    let test ← expr depth
    return .branch test (← body place) orelse
  | 1 => do
    let test ← expr depth
    return .whileLoop test (← body { place with inLoop := true })
  | 2 => do
    let target ← name .store
    let iter ← expr depth
    return .forLoop target iter (← body { place with inLoop := true })
  | 3 => do
    let context ← expr depth
    let target ← optional 1 (← name .store)
    return .withBlock context target (← body place)
  | 4 => do
    let exc ← exceptionName
    let excName ← optional 1 "exc"
    let handler ← body place
    let finalbody ← if ← chance 3 10 then body place else pure []
    return .tryBlock (← body place) exc excName handler finalbody
  | 5 => do
    let decorators ← several 0 1 (name .load)
    let functionName := "f" ++ (← choose names)
    let params ← params (← between 0 3).toNat
    let body ← body { inFunction := true, inLoop := false }
    return .function functionName params body decorators (← optional 1 (← name .load))
  | _ => do
    let className := "C" ++ (← choose names)
    let bases ← several 0 2 (name .load)
    return .classDef className bases (← body { inFunction := false, inLoop := false })

/-- A statement of a depth; below two it has no body. -/
def stmt : (depth : Nat) → Place → Draw σ Stmt
  | 0, place => simpleStmt 0 place
  | 1, place => simpleStmt 1 place
  | depth + 2, place => do
    if ← chance 4 10 then simpleStmt (depth + 2) place
    else compoundWith (depth + 1) (fun p => several 1 3 (stmt (depth + 1) p)) place

def body (depth : Nat) (place : Place) : Draw σ (List Stmt) := several 1 3 (stmt depth place)

def compoundStmt (depth : Nat) (place : Place) : Draw σ Stmt := compoundWith depth (body depth) place

/-- A program of one to four statements, none nested deeper than `depth`. -/
def module (depth : Nat) : Draw σ Module := do
  return ⟨← several 1 4 (stmt depth { inFunction := false, inLoop := false })⟩

end Build

end FormatFuzz.Program
