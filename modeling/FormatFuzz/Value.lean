import FormatFuzz.Decimal.Notation
import FormatFuzz.Text.Digit
import FormatFuzz.Text.Quoted

/-!
# Values

Option values are *primitive*: nothing, truth values, integers of any size, doubles and texts.
Configuration files and stored entries are read as *data*: primitive values in lists and mappings,
the keys of a mapping in the order in which they were first met.

Numbers of different kinds can be equal: truth values count as one and zero, and a double equals the
integer it stands for. Two keys of a mapping are the same key when they are equal in this sense.
-/

namespace FormatFuzz

open Decimal

inductive Primitive
  | null
  | bool (value : Bool)
  | int (value : Int)
  | float (value : Binary64)
  | str (value : String)
deriving DecidableEq, Repr, Inhabited

namespace Primitive

def kind : Primitive → String
  | null => "NoneType"
  | bool _ => "bool"
  | int _ => "int"
  | float _ => "float"
  | str _ => "str"

def repr : Primitive → String
  | null => "None"
  | bool true => "True"
  | bool false => "False"
  | int n => toString n
  | float x => plainStyle.write x
  | str s => Text.quoted s

def text : Primitive → String
  | str s => s
  | v => v.repr

/-- Whether a value has a text: an integer with too many digits has none. -/
def hasText : Primitive → Bool
  | int n => n.natAbs < Nat.pow 10 Text.maxDigits
  | _ => true

def truthy : Primitive → Bool
  | null => false
  | bool b => b
  | int n => n != 0
  | float x => !x.isZero
  | str s => !s.isEmpty

/-- The integer that a truth value or an integer counts as. -/
def integer? : Primitive → Option Int
  | bool b => some (if b then 1 else 0)
  | int n => some n
  | _ => none

def floatIsInt (x : Binary64) (n : Int) : Bool :=
  let (num, den) := x.ratio
  x.isFinite && num % den == 0 && x.truncate == n

/-- Equality of values, numbers of different kinds included. -/
def equal (a b : Primitive) : Bool :=
  match a, b with
  | null, null => true
  | str s, str t => s == t
  | float x, float y => x.equal y
  | float x, b => match b.integer? with
    | some n => floatIsInt x n
    | none => false
  | a, float y => match a.integer? with
    | some n => floatIsInt y n
    | none => false
  | a, b => match a.integer?, b.integer? with
    | some m, some n => m == n
    | _, _ => false

end Primitive

/-- Primitive values in lists and mappings. Values of other kinds, which a configuration file can
hold, are kept as the name of their kind and their text. -/
inductive Data
  | prim (value : Primitive)
  | list (items : List Data)
  | dict (entries : List (Data × Data))
  | other (kind text : String)
deriving Repr, Inhabited

namespace Data

@[match_pattern] abbrev null : Data := .prim .null
@[match_pattern] abbrev bool (b : Bool) : Data := .prim (.bool b)
@[match_pattern] abbrev int (n : Int) : Data := .prim (.int n)
@[match_pattern] abbrev float (x : Binary64) : Data := .prim (.float x)
@[match_pattern] abbrev str (s : String) : Data := .prim (.str s)

def kind : Data → String
  | prim v => v.kind
  | list _ => "list"
  | dict _ => "dict"
  | other k _ => k

mutual

def repr : Data → String
  | prim v => v.repr
  | list items => "[" ++ ", ".intercalate (reprItems items) ++ "]"
  | dict entries => "\x7b" ++ ", ".intercalate (reprEntries entries) ++ "\x7d"
  | other _ t => t

def reprItems : List Data → List String
  | [] => []
  | v :: vs => v.repr :: reprItems vs

def reprEntries : List (Data × Data) → List String
  | [] => []
  | (k, v) :: rest => (k.repr ++ ": " ++ v.repr) :: reprEntries rest

end

def text : Data → String
  | prim v => v.text
  | v => v.repr

mutual

def hasText : Data → Bool
  | prim v => v.hasText
  | list items => itemsHaveText items
  | dict entries => entriesHaveText entries
  | other _ _ => true

def itemsHaveText : List Data → Bool
  | [] => true
  | v :: vs => v.hasText && itemsHaveText vs

def entriesHaveText : List (Data × Data) → Bool
  | [] => true
  | (k, v) :: rest => k.hasText && v.hasText && entriesHaveText rest

end

/-- The texts of values of other kinds that hold nothing: no bytes, and a set without members. -/
def emptyTexts : List String := ["b''", "set()"]

def truthy : Data → Bool
  | prim v => v.truthy
  | list items => !items.isEmpty
  | dict entries => !entries.isEmpty
  | other _ t => !emptyTexts.contains t

mutual

/-- Equality of values; the order of a mapping's entries does not count. -/
def equal : Data → Data → Bool
  | prim a, prim b => a.equal b
  | list xs, list ys => equalItems xs ys
  | dict xs, dict ys => xs.length == ys.length && includes xs ys
  | other k s, other l t => k == l && s == t
  | _, _ => false

def equalItems : List Data → List Data → Bool
  | [], [] => true
  | x :: xs, y :: ys => equal x y && equalItems xs ys
  | _, _ => false

def includes : List (Data × Data) → List (Data × Data) → Bool
  | [], _ => true
  | (k, v) :: rest, ys => ys.any (fun e => equal k e.1 && equal v e.2) && includes rest ys

end

def find? (entries : List (Data × Data)) (key : Data) : Option Data :=
  (entries.find? fun e => e.1.equal key).map (·.2)

/-- The entries with a value put under a key: in place of the value of an equal key, else last. -/
def insert (entries : List (Data × Data)) (key value : Data) : List (Data × Data) :=
  match entries with
  | [] => [(key, value)]
  | (k, v) :: rest => if k.equal key then (k, value) :: rest else (k, v) :: insert rest key value

def get? (data : Data) (name : String) : Option Data :=
  match data with
  | dict entries => find? entries (.str name)
  | _ => none

/-- A mapping of names, later entries of a name replacing earlier ones. -/
def ofPairs (pairs : List (String × Data)) : Data :=
  .dict (pairs.foldl (fun es (k, v) => insert es (.str k) v) [])

end Data

end FormatFuzz
