import FormatFuzz.File.Tree
import FormatFuzz.Text.Utf8
import FormatFuzz.Yaml.Reader
import FormatFuzz.Fuzz.Filter
import FormatFuzz.Fault.Failure
import FormatFuzz.Space.Sampler

namespace FormatFuzz

structure Config where
  generator : String := "ast"
  maxDepth : Int := 7
  oracle : String := "black"
  boringPattern : String := defaultBoringPattern
  syntaxErrorPattern : String := defaultSyntaxErrorPattern
  /-- Where the corpus is, if not in the state directory. -/
  corpusDir : Option String := none
  /-- Domains that replace those of the formatter. -/
  optionSpace : Space := []

inductive ConfigError
  | file (error : FileError)
  | encoding (error : Text.Utf8Error)
  | yaml (error : Yaml.YamlError)
  | notMapping (kind : String)
  | nameWithoutText

namespace Config

def stateDirName : String := ".idemfuzz"
def fileName : String := "config.yaml"

def stateDirectory (cwd : Path) : Path := cwd.child stateDirName

def defaultEntries : List (String × Data) :=
  let c : Config := {}
  [("generator", .str c.generator), ("max_depth", .int c.maxDepth), ("oracle", .str c.oracle),
    ("boring_pattern", .str c.boringPattern),
    ("syntax_error_pattern", .str c.syntaxErrorPattern)]

/-- A new configuration file: the defaults, one a line. They need no quotes. -/
def defaultText : String :=
  String.join (defaultEntries.map fun (k, v) => k ++ ": " ++ v.text ++ "\n")

/-- A setting that must be a text with characters. -/
def text? (data : Data) (name : String) : Option String :=
  match data.get? name with
  | some (.prim (.str s)) => if s.isEmpty then none else some s
  | _ => none

def int? (data : Data) (name : String) : Option Int :=
  match data.get? name with
  | some (.prim (.int n)) => some n
  | _ => none

def namesHaveText (entries : List (Data × Data)) : Bool :=
  entries.all fun (k, v) =>
    match v with
    | .dict _ => k.hasText
    | _ => true

/-- Domains under the texts of their names; those that are no mappings are left out. -/
def spaceOf (entries : List (Data × Data)) : Except ConfigError Space :=
  if namesHaveText entries then
    .ok (entries.foldl (fun space (k, v) =>
      match v with
      | .dict fields => Space.override space [(k.text, ⟨fields⟩)]
      | _ => space) [])
  else .error .nameWithoutText

def ofMapping (data : Data) : Except ConfigError Config := do
  let d : Config := {}
  let optionSpace ← match data.get? "option_space" with
    | some (.dict entries) => spaceOf entries
    | _ => .ok []
  return {
    generator := (text? data "generator").getD d.generator
    maxDepth := (int? data "max_depth").getD d.maxDepth
    oracle := (text? data "oracle").getD d.oracle
    boringPattern := (text? data "boring_pattern").getD d.boringPattern
    syntaxErrorPattern := (text? data "syntax_error_pattern").getD d.syntaxErrorPattern
    corpusDir := text? data "corpus_dir"
    optionSpace }

/-- The settings that data hold. Data that count as false hold none. -/
def ofData (data : Data) : Except ConfigError Config :=
  if !data.truthy then .ok {}
  else match data with
    | .dict _ => ofMapping data
    | _ => .error (.notMapping data.kind)

def ofText (text : String) : Except ConfigError Config :=
  match Yaml.read (String.ofList (Text.unifyLineEnds text.toList)) with
  | .ok data => ofData data
  | .error e => .error (.yaml e)

def place? (t : FileTree) (cwd home : Path) : Option Place :=
  [cwd, home].map (fun p => ((stateDirectory p).child fileName).place) |>.find? t.exists?

/-- A fault in the bytes of a configuration file. The file is read in pieces: a sequence that the end
cuts off is a piece of its own, with positions from its first byte. -/
def encodingError (e : Text.Utf8Error) : ConfigError :=
  .encoding (if e.problem = .unexpectedEnd then { e with start := 0 } else e)

def load (t : FileTree) (cwd home : Path) : Except ConfigError Config :=
  match place? t cwd home with
  | none => .ok {}
  | some p => do
    let bytes ← (t.read p).mapError .file
    ofText (← (Text.decodeUtf8 bytes).mapError encodingError)

/-- The corpus directory: the one that is set, seen from the working directory, or the state
directory. There is none if it is in a home that cannot be found. -/
def corpusDirectory (corpusDir : Option String) (cwd : Path) (home : String) : Option Path :=
  match corpusDir with
  | none => some (stateDirectory cwd)
  | some "" => some (stateDirectory cwd)
  | some s => ((Path.ofString s).expandHome home).map cwd.join

end Config

end FormatFuzz
