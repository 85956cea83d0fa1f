import FormatFuzz.Fuzz.Result
import FormatFuzz.Diff.Render

namespace FormatFuzz

inductive Section
  | code (source : String)
  | text (t : StyledText)
deriving DecidableEq, Repr

def Verdict.style : Verdict → String
  | .success => "green"
  | .error => "red"
  | .diff => "red"

namespace Report

def separator (width : Nat) : Section :=
  .text (.plain (String.ofList (List.replicate width '─')) "dim")

def status (r : RunResult) (reproduce : Bool) : StyledText :=
  let noun := if r.tries = 1 then "try" else "tries"
  let hint := if reproduce then "Reproduced with `--reproduce`."
    else "Add `--reproduce` to reproduce, or play with:"
  (StyledText.empty.append r.verdict.name r.verdict.style).append
    (" after " ++ toString r.tries ++ " " ++ noun ++ ". " ++ hint)

def failed (number : Nat) (detail : String) : Section :=
  .text (.plain ("formatter pass " ++ toString number ++ " error:\n" ++ detail))

def body (r : RunResult) : List Section :=
  match r.diff, r.verdict, r.first with
  | some segments, _, _ => [.text (renderDiff segments)]
  | none, .success, .success output => [.code output]
  | none, _, _ => []

def sections (r : RunResult) (width : Nat) (reproduce : Bool) (command : Option String) :
    List Section :=
  let line := separator width
  [.code r.program.source, line] ++ body r ++
    (r.failures.map fun (number, f) => failed number f.detail) ++
    [line, .text (.plain r.options.toJson), line, .text (status r reproduce)] ++
    (if reproduce then [] else command.toList.map fun c => .text (.plain c))

end Report

end FormatFuzz
