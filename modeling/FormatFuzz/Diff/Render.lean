import FormatFuzz.Diff.Segment
import FormatFuzz.Report.Styled
import FormatFuzz.Text.Search

namespace FormatFuzz

def Change.style : Change → String
  | .equal => "grey50"
  | .insert => "on green"
  | .delete => "on red"

/-- The lines of a changed segment, each but the last with a marked line end. -/
def StyledText.appendLines (t : StyledText) (style : String) : List (List Char) → StyledText
  | [] => t
  | [line] => t.append (String.ofList line) style
  | line :: lines =>
    let t := t.append (String.ofList line) style
    ((t.append " " style).append "\n").appendLines style lines

def StyledText.appendSegment (t : StyledText) (s : Segment) : StyledText :=
  match s.change with
  | .equal => t.append s.text s.change.style
  | change => t.appendLines change.style (Text.splitAt (· == '\n') s.text.toList)

def renderDiff (segments : List Segment) : StyledText :=
  segments.foldl StyledText.appendSegment .empty

end FormatFuzz
