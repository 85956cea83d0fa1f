import FormatFuzz.Command.Outcome

namespace FormatFuzz

def OptionKind.title : OptionKind → String
  | .str => "a string"
  | .int => "an integer"
  | .float => "a number"
  | .bool => "a truth value"

def OptionIssue.message : OptionIssue → String
  | .notMapping => "options must be a mapping"
  | .valuesNotMapping => "the values of options must be a mapping"
  | .wrongKind name kind => "option " ++ Text.quoted name ++ " is not " ++ kind.title
  | .nameNotText _ => "names of options must be strings"

def issuesMessage (issues : List OptionIssue) : String :=
  "; ".intercalate (issues.map OptionIssue.message)

def SampleError.message : SampleError → String
  | .spec e => e.message
  | .options issues => issuesMessage issues

def StepError.message : StepError → String
  | .generator e => e.message
  | .sampling e => e.message
  | .interrupted f => f.lastLine
  | .verdict e => e.message

def ConfigError.message : ConfigError → String
  | .file e => e.errorClass
  | .encoding e => e.message
  | .yaml .malformed => "malformed configuration file"
  | .yaml (.value _ message) => message
  | .notMapping kind => "'" ++ kind ++ "' object has no attribute 'get'"
  | .nameWithoutText => Text.maxDigitsMessage none

namespace Crash

def message : Crash → String
  | .step e => e.message
  | .config e => e.message
  | .corpus (.options path issues) =>
    "Invalid options file " ++ path.toString ++ ": " ++ issuesMessage issues
  | .corpus e => e.message
  | .file e => e.errorClass
  | .raised f => f.lastLine
  | .markup e => e.message
  | .noHome => Path.noHomeMessage

end Crash

end FormatFuzz
