import FormatFuzz.File.Disk
import FormatFuzz.Fuzz.Result

namespace FormatFuzz

structure CorpusEntry where
  source : String
  firstOutput : String
  secondOutput : String
  options : Options
deriving DecidableEq, Repr

structure StoredEntry where
  source : Stored
  firstOutput : Stored
  secondOutput : Stored
  options : Stored
deriving DecidableEq, Repr

/-- The stored form of an entry, whose texts all have bytes. -/
def CorpusEntry.stored (e : CorpusEntry) : StoredEntry where
  source := some (Text.encodeUtf8 e.source)
  firstOutput := some (Text.encodeUtf8 e.firstOutput)
  secondOutput := some (Text.encodeUtf8 e.secondOutput)
  options := some (Text.encodeUtf8 e.options.toJson)

/-- What an entry has for a pass: its output, or a mark if it failed or was not made. -/
def CorpusEntry.outputOf (pass : Option Outcome) : String :=
  (pass.bind Outcome.output?).getD Outcome.noOutput

def CorpusEntry.ofResult (r : RunResult) : CorpusEntry where
  source := r.program.source
  firstOutput := outputOf r.first
  secondOutput := outputOf r.second
  options := r.options

end FormatFuzz
