import FormatFuzz.Corpus.Store
import FormatFuzz.Config
import FormatFuzz.Report.Layout
import FormatFuzz.Report.Markup

namespace FormatFuzz

/-- Errors that a command does not deal with. -/
inductive Crash
  | step (error : StepError)
  | config (error : ConfigError)
  | corpus (error : CorpusError)
  | file (error : FileError)
  | raised (fault : Fault)
  | markup (error : Markup.MarkupError)
  | noHome

inductive CommandEnd
  | done (exitCode : Nat) (printed : String)
  | usage (exitCode : Nat)
  | crash (error : Crash)

def foundCode : Nat := 1

def usageCode : Nat := 2

def interruptedCode : Nat := 130

def printedLine (markup : String) : Except Crash String :=
  match Markup.print markup with
  | .ok text => .ok (Report.textLines (withoutControls text))
  | .error e => .error (.markup e)

namespace CommandEnd

/-- The exit code of a command. An error that it does not deal with is a failure, unless it is an
interruption. -/
def exitCode : CommandEnd → Nat
  | .done code _ | .usage code => code
  | .crash (.file .interrupted) => interruptedCode
  | .crash _ => foundCode

def saying (exitCode : Nat) (markups : List String) : CommandEnd :=
  match markups.mapM printedLine with
  | .ok lines => .done exitCode (String.join lines)
  | .error e => .crash e

/-- The end of a command that could not be carried out, for a reason that may hold tags. -/
def refusedAs (markup : String) : CommandEnd := saying usageCode ["[red]Error:[/red] " ++ markup]

def refused (reason : String) : CommandEnd := refusedAs (Markup.escape reason)

end CommandEnd

end FormatFuzz
