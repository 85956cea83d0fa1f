import FormatFuzz.Fuzz.Formatter

namespace FormatFuzz.Black

structure Mode where
  lineLength : Int
  stringNormalization : Bool
  magicTrailingComma : Bool
  preview : Bool
  isStub : Bool
deriving DecidableEq, Repr

def defaultLineLength : Int := 88

def flag (options : Options) (name : String) (default : Bool) : Bool :=
  (options.getD name (.bool default)).truthy

def isStub (options : Options) : Bool :=
  (options.getD "dialect" (.str "py")).equal (.str "pyi")

def lineLength (options : Options) : Primitive :=
  options.getD "line_length" (.int defaultLineLength)

/-- The settings for options. The length of lines must stand for an integer. -/
def mode (options : Options) : Except IntegerProblem Mode := do
  return {
    lineLength := ← (Data.prim (lineLength options)).integer?
    stringNormalization := flag options "string_normalization" true
    magicTrailingComma := flag options "magic_trailing_comma" true
    preview := flag options "preview" false
    isStub := isStub options }

/-- The command for a file and options. The length of lines must have a text. -/
def command (path : String) (options : Options) : Except Fault (List String) := do
  let length := lineLength options
  let lengthFlag ← Fault.printed [.prim length] ("--line-length=" ++ length.text)
  return ["black", "--diff", lengthFlag] ++
    (if flag options "string_normalization" true then [] else ["--skip-string-normalization"]) ++
    (if flag options "magic_trailing_comma" true then [] else ["--skip-magic-trailing-comma"]) ++
    (if flag options "preview" false then ["--preview"] else []) ++
    (if isStub options then ["--pyi"] else []) ++ [path]

def values (vs : List Data) : Spec := ⟨[(.str "values", .list vs)]⟩

def space : Space :=
  let switch := values [.bool true, .bool false]
  [("line_length",
      ⟨[(.str "distribution", .str "int_uniform"), (.str "min", .int 0), (.str "max", .int 199)]⟩),
    ("string_normalization", switch), ("magic_trailing_comma", switch), ("preview", switch),
    ("dialect", values [.str "py", .str "pyi"])]

def rejections : List String := ["black.parsing.InvalidInput"]

def formatter {φ : Type} (engine : String → Mode → φ → Except Fault String × φ) : Formatter φ where
  name := "black"
  rejections := rejections
  space := space
  format source options s :=
    match mode options with
    | .ok m => engine source m s
    | .error p => (.error (.make p.errorClass [.str p.message]), s)
  command := command

def uninstalled {φ : Type} (_ : String) (_ : Mode) (s : φ) : Except Fault String × φ :=
  (.error (.make "ModuleNotFoundError" [.str "No module named 'black'"]), s)

end FormatFuzz.Black
