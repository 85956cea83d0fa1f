import FormatFuzz.Json.Writer
import FormatFuzz.Json.Reader

namespace FormatFuzz

inductive OptionKind
  | str
  | int
  | float
  | bool
deriving DecidableEq, Repr

inductive OptionIssue
  | notMapping
  | valuesNotMapping
  | wrongKind (name : String) (kind : OptionKind)
  | nameNotText (name : Data)
deriving Repr

/-- Names with values; the names are different. -/
structure Options where
  entries : List (String × Primitive)
deriving DecidableEq, Repr, Inhabited

namespace Options

def empty : Options := ⟨[]⟩

def get? (o : Options) (name : String) : Option Primitive := o.entries.lookup name

def getD (o : Options) (name : String) (default : Primitive) : Primitive :=
  (o.get? name).getD default

/-- The issues of one entry: a value with parts is none of the kinds that an option can have. -/
def entryIssues : Data × Data → List OptionIssue
  | (.str _, .prim _) => []
  | (.str name, _) => [.str, .int, .float, .bool].map (.wrongKind name)
  | (name, _) => [.nameNotText name]

def entry? : Data × Data → Option (String × Primitive)
  | (.str name, .prim v) => some (name, v)
  | _ => none

def ofEntries (entries : List (Data × Data)) : Except (List OptionIssue) Options :=
  match entries.flatMap entryIssues with
  | [] => .ok ⟨entries.filterMap entry?⟩
  | issues => .error issues

def ofData : Data → Except (List OptionIssue) Options
  | .dict entries => match Data.find? entries (.str "values") with
    | none => ofEntries entries
    | some (.dict values) => ofEntries values
    | some _ => .error [.valuesNotMapping]
  | _ => .error [.notMapping]

def toData (o : Options) : Data := .dict (o.entries.map fun (k, v) => (.str k, .prim v))

/-- The stored form: one option a line, indented by two spaces. -/
def toJson (o : Options) : String :=
  match o.entries with
  | [] => "\x7b\x7d"
  | entries =>
    "\x7b\n" ++ ",\n".intercalate
      (entries.map fun (k, v) => "  " ++ Json.quote k ++ ": " ++ Json.writePrimitive v) ++ "\n\x7d"

end Options

end FormatFuzz
