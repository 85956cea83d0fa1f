import FormatFuzz.Fault.Basic
import FormatFuzz.Space.Sampler
import FormatFuzz.Text.Search

namespace FormatFuzz

structure Formatter (φ : Type) where
  name : String
  rejections : List String
  space : Space
  format : String → Options → φ → Except Fault String × φ
  command : String → Options → Except Fault (List String)

/-- A formatter that also writes down the programs that it is given, the latest first. -/
def Formatter.recording {φ : Type} (f : Formatter φ) : Formatter (φ × List String) where
  name := f.name
  rejections := f.rejections
  space := f.space
  format source options s :=
    let (answer, state) := f.format source options s.1
    (answer, state, source :: s.2)
  command := f.command

/-- What a scripted formatter does in a call: it raises a fault, answers a text, or edits its input by
replacing texts in turn and adding others in front and behind. -/
inductive ScriptStep
  | fail (fault : Fault)
  | answer (text : String)
  | edit (replacements : List (String × String)) (front back : String)

def ScriptStep.run (step : ScriptStep) (source : String) : Except Fault String :=
  match step with
  | fail fault => .error fault
  | answer text => .ok text
  | edit replacements front back =>
    let edited := replacements.foldl
      (fun cs (old, new) => Text.replaceAll old.toList new.toList cs) source.toList
    .ok (front ++ String.ofList edited ++ back)

/-- The step for a call: its own, or the last one when the script has come to its end. -/
def scriptStep (script : List ScriptStep) (call : Nat) : ScriptStep :=
  script.getD (min call (script.length - 1)) (.edit [] "" "")

def scriptCommand (path : String) (options : Options) : Except Fault (List String) := do
  let words ← options.entries.mapM fun (k, v) => Fault.printed [.prim v] ("--" ++ k ++ "=" ++ v.text)
  return "fake-fmt" :: words ++ [path]

/-- A formatter that follows a script. Its state is the number of calls. -/
def Formatter.scripted (name : String) (rejections : List String) (space : Space)
    (script : List ScriptStep) : Formatter Nat where
  name := name
  rejections := rejections
  space := space
  format source _ calls := ((scriptStep script calls).run source, calls + 1)
  command := scriptCommand

end FormatFuzz
