import FormatFuzz.Decimal.Binary64

namespace FormatFuzz.Program

inductive Context
  | load
  | store
  | del
deriving DecidableEq, Repr

inductive Literal
  | int (value : Nat)
  | float (value : Decimal.Binary64)
  | imaginary (value : Nat)
  | str (value : String)
  | bytes (value : List UInt8)
  | bool (value : Bool)
  | none
  | ellipsis
deriving DecidableEq, Repr

inductive BinaryOp
  | add | sub | mult | div | floorDiv | mod | pow | lShift | rShift | bitOr | bitAnd | bitXor
  | matMult
deriving DecidableEq, Repr

inductive UnaryOp
  | not | minus | plus | invert
deriving DecidableEq, Repr

inductive BoolOp
  | and | or
deriving DecidableEq, Repr

inductive CompareOp
  | eq | notEq | lt | ltE | gt | gtE | is | isNot | isIn | notIn
deriving DecidableEq, Repr

inductive Expr
  | name (id : String) (ctx : Context)
  | constant (value : Literal)
  | binary (left : Expr) (op : BinaryOp) (right : Expr)
  | unary (op : UnaryOp) (operand : Expr)
  | bool (op : BoolOp) (values : List Expr)
  | compare (left : Expr) (ops : List CompareOp) (comparators : List Expr)
  | call (func : Expr) (args : List Expr) (keywords : List (String × Expr))
  | attribute (value : Expr) (attr : String) (ctx : Context)
  | subscript (value index : Expr) (ctx : Context)
  | slice (lower upper step : Option Expr)
  | list (elts : List Expr) (ctx : Context)
  | tuple (elts : List Expr) (ctx : Context)
  | set (elts : List Expr)
  | dict (keys values : List Expr)
  | conditional (test body orelse : Expr)
  | lambda (params : List String) (body : Expr)
  | comprehension (elt target iter : Expr) (conditions : List Expr)
  | walrus (target value : Expr)
deriving Repr

inductive Stmt
  | assign (targets : List Expr) (value : Expr)
  | augmented (target : Expr) (op : BinaryOp) (value : Expr)
  | annotated (target annotation : Expr) (value : Option Expr)
  | delete (target : Expr)
  | assert (test : Expr) (msg : Option Expr)
  | raise (exc : Expr)
  | importModule (module : String)
  | importFrom (module name : String)
  | globalNames (names : List String)
  | nonlocalNames (names : List String)
  | returnValue (value : Option Expr)
  | breakLoop
  | continueLoop
  | pass
  | expr (value : Expr)
  | branch (test : Expr) (body orelse : List Stmt)
  | whileLoop (test : Expr) (body : List Stmt)
  | forLoop (target iter : Expr) (body : List Stmt)
  | withBlock (context : Expr) (target : Option Expr) (body : List Stmt)
  | tryBlock (body : List Stmt) (exc : Expr) (excName : Option String)
      (handler finalbody : List Stmt)
  | function (name : String) (params : List String) (body : List Stmt) (decorators : List Expr)
      (returns : Option Expr)
  | classDef (name : String) (bases : List Expr) (body : List Stmt)
deriving Repr

structure Module where
  body : List Stmt
deriving Repr

end FormatFuzz.Program
