import FormatFuzz.Corpus.Entry
import FormatFuzz.File.Disk
import FormatFuzz.Fuzz.Loop

namespace FormatFuzz

structure CorpusStore where
  directory : Path
  /-- How deep lists and mappings can be nested inside the options that are read. -/
  levels : Nat := 900
deriving DecidableEq, Repr

inductive CorpusError
  | notFound (directory : Path)
  | file (error : FileError)
  | encoding (error : Text.Utf8Error)
  | json (path : Path) (error : Json.Error)
  | limit (limit : Json.Limit)
  | options (path : Path) (issues : List OptionIssue)

/-- What is said about an error, as far as it is known; the issues of options are told one by one. -/
def CorpusError.message : CorpusError → String
  | notFound directory =>
    "No saved program in " ++ directory.toString ++ ". Run without --reproduce first."
  | file e => e.errorClass
  | encoding e => e.message
  | json path e => "Invalid options file " ++ path.toString ++ ": " ++ e.message
  | limit l => l.message
  | options path _ => "Invalid options file " ++ path.toString ++ ": "

namespace CorpusStore

def inputPath (s : CorpusStore) : Path := s.directory.child "random.py"
def backupPath (s : CorpusStore) : Path := s.directory.child "random.backup.py"
def firstOutputPath (s : CorpusStore) : Path := s.directory.child "formatted1.py"
def secondOutputPath (s : CorpusStore) : Path := s.directory.child "formatted2.py"
def optionsPath (s : CorpusStore) : Path := s.directory.child "options.json"

def exists? (s : CorpusStore) (t : FileTree) : Bool :=
  t.exists? s.inputPath.place && t.exists? s.optionsPath.place

def writeOutputs (s : CorpusStore) (first second : Stored) : DiskM Unit := do
  Disk.replace s.firstOutputPath.place first
  Disk.replace s.secondOutputPath.place second

def saveStored (s : CorpusStore) (e : StoredEntry) : DiskM Unit := do
  Disk.replace s.inputPath.place e.source
  Disk.replace s.backupPath.place e.source
  s.writeOutputs e.firstOutput e.secondOutput
  Disk.replace s.optionsPath.place e.options

def save (s : CorpusStore) (e : CorpusEntry) : DiskM Unit := s.saveStored e.stored

def savedMessage (s : CorpusStore) : String := "Saved corpus entry to " ++ s.directory.toString

/-- Saves the outputs alone, with the same mark in place of one that is missing. -/
def saveOutputs (s : CorpusStore) (first : Outcome) (second : Option Outcome) : DiskM Unit :=
  let firstText := match first with
    | .success output => output
    | .failed _ => Outcome.noOutput
  let secondText := match second with
    | some (.success output) => output
    | some (.failed _) | none => Outcome.noOutput
  s.writeOutputs (some (Text.encodeUtf8 firstText)) (some (Text.encodeUtf8 secondText))

def readText (t : FileTree) (p : Path) : Except CorpusError String := do
  let bytes ← (t.read p.place).mapError .file
  (Text.decodeUtf8 bytes).mapError .encoding

def jsonError (s : CorpusStore) : Json.ReadError → CorpusError
  | .malformed e => .json s.optionsPath e
  | .limit l => .limit l

def readOptions (s : CorpusStore) (text : String) : Except CorpusError Options := do
  let text := String.ofList (Text.unifyLineEnds text.toList)
  let data ← (Json.read s.levels text).mapError s.jsonError
  (Options.ofData data).mapError (.options s.optionsPath)

def load (s : CorpusStore) (t : FileTree) : Except CorpusError Replay := do
  if !s.exists? t then throw (.notFound s.directory)
  let source ← readText t s.inputPath
  let options ← s.readOptions (← readText t s.optionsPath)
  return ⟨source, options⟩

end CorpusStore

end FormatFuzz
