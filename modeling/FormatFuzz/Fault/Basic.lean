import FormatFuzz.Fault.Class
import FormatFuzz.Value.Layout
import FormatFuzz.Text.Search

/-!
# Faults

A fault is an error that came out of a formatter or a generator: its class, the arguments that it
was made with and what else is attached to it. Its message follows its class, and its detail is a
trace where there is one and else all that is known of it.

A class can say of its faults what it likes. Saying it can fail as well, and then another fault comes out
of it; so does the usual message if a value in it has no text.
-/

namespace FormatFuzz

inductive FailureKind
  | inputSyntax
  | internal
deriving DecidableEq, Repr

namespace FailureKind

def name : FailureKind → String
  | inputSyntax => "input-syntax"
  | internal => "internal"

def ofName? : String → Option FailureKind
  | "input-syntax" => some inputSyntax
  | "internal" => some internal
  | _ => none

def toData : FailureKind → Data
  | inputSyntax => .other "ErrorKind" "<ErrorKind.INPUT_SYNTAX: 'input-syntax'>"
  | internal => .other "ErrorKind" "<ErrorKind.INTERNAL: 'internal'>"

end FailureKind

/-- An error that was raised. `declared` is the kind of failure that it says itself to be, `traced` says
whether it is known where it was raised, and `ownText` and `ownTrace` are what its class says of it
instead of the usual message and of the usual trace. -/
structure Fault where
  errorClass : ErrorClass
  args : List Data
  attributes : List (String × Data) := []
  declared : Option FailureKind := none
  traced : Bool := true
  ownText : Option (Except Fault String) := none
  ownTrace : Option String := none

namespace Fault

/-- A fault of a known class as it is made from arguments: a system failure has the class of its number,
and a rejected input has a place and more that can be unknown. -/
def make (name : String) (args : List Data) : Fault :=
  match name, args with
  | "OSError", .prim n :: _ :: _ =>
    let system := n.integer?.bind fun i => ErrorClass.systemClasses.lookup i
    { errorClass := .known (system.getD "OSError"), args }
  | "InvalidInput", message :: _ =>
    let names := ["lineno", "column", "context", "details"]
    let known := (args.drop 1 ++ List.replicate 4 Data.null).take 4
    { errorClass := .known name, args := message :: known, attributes := names.zip known }
  | _, _ => { errorClass := .known name, args }

def declare (kind : FailureKind) (message : String) : Fault where
  errorClass := .known "FormatterError"
  args := [.str message]
  attributes := [("kind", kind.toData), ("message", .str message)]
  declared := some kind

def attach (f : Fault) (attributes : List (String × Data)) : Fault :=
  { f with attributes := f.attributes ++ attributes }

def printed (values : List Data) (text : String) : Except Fault String :=
  if values.all Data.hasText then .ok text
  else .error (make "ValueError" [.str (Text.maxDigitsMessage none)])

def argsText (args : List Data) : String :=
  "(" ++ ", ".intercalate (args.map Data.repr) ++ (if args.length == 1 then ",)" else ")")

/-- What a fault says by its class. A missing key is shown as it would be written, a system failure with
its number, and a fault of syntax says its first argument; others say their only argument, or all. -/
def usualText (f : Fault) : Except Fault String :=
  match f.args with
  | [] => .ok (if f.errorClass.isA "SyntaxError" then "None" else "")
  | [a] => printed [a] (if f.errorClass.isA "KeyError" then a.repr else a.text)
  | a :: b :: _ =>
    if f.errorClass.isA "OSError" then printed [a, b] ("[Errno " ++ a.text ++ "] " ++ b.text)
    else if f.errorClass.isA "SyntaxError" || f.errorClass.isA "black.parsing.InvalidInput" then
      printed [a] a.text
    else printed f.args (argsText f.args)

def message (f : Fault) : Except Fault String := f.ownText.getD f.usualText

/-- The last line of a trace: the class with the message after it, if there is one. A fault of
syntax without a message says so, and so does one whose message cannot be made. -/
def lastLine (f : Fault) : String :=
  let said := if f.errorClass.isA "SyntaxError" && !f.args.head?.any Data.truthy
    then "<no detail available>"
    else match f.message with
      | .ok message => message
      | .error _ => "<exception str() failed>"
  if said.isEmpty then f.errorClass.fullName else f.errorClass.fullName ++ ": " ++ said

/-- A trace without the places: its heading and the last line. Of a message of several lines those
that are indented by two blanks are left out with the places. -/
def usualTrace (f : Fault) : String :=
  let lines := Text.splitAt (· == '\n') (Text.trimEnd f.lastLine.toList)
  let kept := lines.filter fun l => !([' ', ' '].isPrefixOf l)
  "\n".intercalate ("Traceback (most recent call last):" :: kept.map String.ofList)

def dump (f : Fault) : String :=
  (Shown.mapping (Shown.sortEntries
    ([("type", .text f.errorClass.name), ("args", .tuple (f.args.map .ofData))] ++
      f.attributes.map fun (k, v) => (k, .ofData v)))).render

def detail (f : Fault) : Except Fault String :=
  if f.traced then .ok (f.ownTrace.getD f.usualTrace)
  else printed (f.args ++ f.attributes.map Prod.snd) f.dump

end Fault

end FormatFuzz
