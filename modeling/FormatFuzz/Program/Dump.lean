import FormatFuzz.Program.Tree
import FormatFuzz.Decimal.Notation
import FormatFuzz.Text.Quoted

namespace FormatFuzz.Program

def Literal.text : Literal → String
  | int n => toString n
  | float x => Decimal.plainStyle.write x
  | imaginary n => toString n ++ "j"
  | str s => Text.quoted s
  | bytes b => Text.quotedBytes b
  | bool true => "True"
  | bool false => "False"
  | none => "None"
  | ellipsis => "..."

def Literal.dump : Literal → String
  | ellipsis => "Ellipsis"
  | value => value.text

def Context.dump : Context → String
  | load => "Load()"
  | store => "Store()"
  | del => "Del()"

def BinaryOp.dump : BinaryOp → String
  | add => "Add()" | sub => "Sub()" | mult => "Mult()" | div => "Div()" | floorDiv => "FloorDiv()"
  | mod => "Mod()" | pow => "Pow()" | lShift => "LShift()" | rShift => "RShift()"
  | bitOr => "BitOr()" | bitAnd => "BitAnd()" | bitXor => "BitXor()" | matMult => "MatMult()"

def UnaryOp.dump : UnaryOp → String
  | not => "Not()" | minus => "USub()" | plus => "UAdd()" | invert => "Invert()"

def BoolOp.dump : BoolOp → String
  | and => "And()" | or => "Or()"

def CompareOp.dump : CompareOp → String
  | eq => "Eq()" | notEq => "NotEq()" | lt => "Lt()" | ltE => "LtE()" | gt => "Gt()" | gtE => "GtE()"
  | is => "Is()" | isNot => "IsNot()" | isIn => "In()" | notIn => "NotIn()"

namespace Dump

def node (kind : String) (fields : List (String × String)) : String :=
  kind ++ "(" ++ ", ".intercalate (fields.map fun (n, v) => n ++ "=" ++ v) ++ ")"

def list (items : List String) : String := "[" ++ ", ".intercalate items ++ "]"

def field? (name : String) : Option String → List (String × String)
  | none => []
  | some v => [(name, v)]

end Dump

open Dump

def dumpParams (params : List String) : String :=
  node "arguments" [("posonlyargs", "[]"),
    ("args", list (params.map fun p => node "arg" [("arg", Text.quoted p)])),
    ("kwonlyargs", "[]"), ("kw_defaults", "[]"), ("defaults", "[]")]

mutual

def Expr.dump : Expr → String
  | .name id ctx => node "Name" [("id", Text.quoted id), ("ctx", ctx.dump)]
  | .constant v => node "Constant" [("value", v.dump)]
  | .binary l op r => node "BinOp" [("left", l.dump), ("op", op.dump), ("right", r.dump)]
  | .unary op e => node "UnaryOp" [("op", op.dump), ("operand", e.dump)]
  | .bool op vs => node "BoolOp" [("op", op.dump), ("values", list (dumpAll vs))]
  | .compare l ops rs =>
    node "Compare" [("left", l.dump), ("ops", list (ops.map CompareOp.dump)),
      ("comparators", list (dumpAll rs))]
  | .call f args kws =>
    node "Call" [("func", f.dump), ("args", list (dumpAll args)),
      ("keywords", list (dumpKeywords kws))]
  | .attribute v attr ctx =>
    node "Attribute" [("value", v.dump), ("attr", Text.quoted attr), ("ctx", ctx.dump)]
  | .subscript v i ctx => node "Subscript" [("value", v.dump), ("slice", i.dump), ("ctx", ctx.dump)]
  | .slice l u s =>
    node "Slice" (field? "lower" (dumpOption l) ++ field? "upper" (dumpOption u) ++
      field? "step" (dumpOption s))
  | .list es ctx => node "List" [("elts", list (dumpAll es)), ("ctx", ctx.dump)]
  | .tuple es ctx => node "Tuple" [("elts", list (dumpAll es)), ("ctx", ctx.dump)]
  | .set es => node "Set" [("elts", list (dumpAll es))]
  | .dict ks vs => node "Dict" [("keys", list (dumpAll ks)), ("values", list (dumpAll vs))]
  | .conditional t b o => node "IfExp" [("test", t.dump), ("body", b.dump), ("orelse", o.dump)]
  | .lambda ps b => node "Lambda" [("args", dumpParams ps), ("body", b.dump)]
  | .comprehension e t i cs =>
    node "ListComp" [("elt", e.dump), ("generators", list [node "comprehension"
      [("target", t.dump), ("iter", i.dump), ("ifs", list (dumpAll cs)), ("is_async", "0")]])]
  | .walrus t v => node "NamedExpr" [("target", t.dump), ("value", v.dump)]

def dumpAll : List Expr → List String
  | [] => []
  | e :: es => e.dump :: dumpAll es

def dumpOption : Option Expr → Option String
  | none => none
  | some e => some e.dump

def dumpKeywords : List (String × Expr) → List String
  | [] => []
  | (n, e) :: rest => node "keyword" [("arg", Text.quoted n), ("value", e.dump)] :: dumpKeywords rest

end

def dumpAlias (name : String) : String := node "alias" [("name", Text.quoted name)]

mutual

def Stmt.dump : Stmt → String
  | .assign ts v => node "Assign" [("targets", list (ts.map Expr.dump)), ("value", v.dump)]
  | .augmented t op v => node "AugAssign" [("target", t.dump), ("op", op.dump), ("value", v.dump)]
  | .annotated t a v =>
    node "AnnAssign" ([("target", t.dump), ("annotation", a.dump)] ++
      field? "value" (v.map Expr.dump) ++ [("simple", "1")])
  | .delete t => node "Delete" [("targets", list [t.dump])]
  | .assert t m => node "Assert" (("test", t.dump) :: field? "msg" (m.map Expr.dump))
  | .raise e => node "Raise" [("exc", e.dump)]
  | .importModule m => node "Import" [("names", list [dumpAlias m])]
  | .importFrom m n =>
    node "ImportFrom" [("module", Text.quoted m), ("names", list [dumpAlias n]), ("level", "0")]
  | .globalNames ns => node "Global" [("names", list (ns.map Text.quoted))]
  | .nonlocalNames ns => node "Nonlocal" [("names", list (ns.map Text.quoted))]
  | .returnValue v => node "Return" (field? "value" (v.map Expr.dump))
  | .breakLoop => node "Break" []
  | .continueLoop => node "Continue" []
  | .pass => node "Pass" []
  | .expr v => node "Expr" [("value", v.dump)]
  | .branch t b o =>
    node "If" [("test", t.dump), ("body", list (dumpBody b)), ("orelse", list (dumpBody o))]
  | .whileLoop t b =>
    node "While" [("test", t.dump), ("body", list (dumpBody b)), ("orelse", "[]")]
  | .forLoop t i b =>
    node "For" [("target", t.dump), ("iter", i.dump), ("body", list (dumpBody b)), ("orelse", "[]")]
  | .withBlock c t b =>
    node "With" [("items", list [node "withitem"
      (("context_expr", c.dump) :: field? "optional_vars" (t.map Expr.dump))]),
      ("body", list (dumpBody b))]
  | .tryBlock b e n h f =>
    node "Try" [("body", list (dumpBody b)), ("handlers", list [node "ExceptHandler"
      (("type", e.dump) :: field? "name" (n.map Text.quoted) ++ [("body", list (dumpBody h))])]),
      ("orelse", "[]"), ("finalbody", list (dumpBody f))]
  | .function n ps b ds r =>
    node "FunctionDef" ([("name", Text.quoted n), ("args", dumpParams ps),
      ("body", list (dumpBody b)), ("decorator_list", list (ds.map Expr.dump))] ++
      field? "returns" (r.map Expr.dump))
  | .classDef n bs b =>
    node "ClassDef" [("name", Text.quoted n), ("bases", list (bs.map Expr.dump)),
      ("keywords", "[]"), ("body", list (dumpBody b)), ("decorator_list", "[]")]

def dumpBody : List Stmt → List String
  | [] => []
  | s :: ss => s.dump :: dumpBody ss

end

def Module.dump (m : Module) : String :=
  node "Module" [("body", list (dumpBody m.body)), ("type_ignores", "[]")]

end FormatFuzz.Program
