import FormatFuzz.Report.Sections
import FormatFuzz.Text.Cells
import FormatFuzz.Text.Blank

namespace FormatFuzz

namespace Report

def textLines (s : String) : String :=
  String.ofList (Text.expandTabs 8 Text.cellWidth 0 s.toList) ++ "\n"

/-- A text without the mark of the byte order in front. -/
def withoutMark : List Char → List Char
  | [] => []
  | c :: cs => if c.toNat == 0xfeff then cs else c :: cs

/-- The numbered lines of a program. The empty line after the last line end counts, if the program has
one. -/
def codeLines (source : String) : List (List Char) :=
  let complete := if source.endsWith "\n" then source else source ++ "\n"
  let expanded := Text.expandTabs 4 (fun _ => 1) 0 complete.toList
  let shown := (Text.unifyLineEnds (withoutMark expanded)).filter fun c => !isCursorControl c
  let lines := Text.splitAt (· == '\n') shown
  if source.endsWith "\n" then lines else lines.dropLast

def padNumber (width n : Nat) : String :=
  let digits := toString n
  String.ofList (List.replicate (width - digits.length) ' ') ++ digits

def numberLines (digits room : Nat) (number : Nat) : List (List Char) → String
  | [] => ""
  | l :: ls =>
    "  " ++ padNumber digits number ++ " " ++ String.ofList (Text.crop room l) ++ "\n" ++
      numberLines digits room (number + 1) ls

def codeBlock (width : Nat) (source : String) : String :=
  let digits := (toString (source.toList.count '\n' + 1)).length
  let room := width - (digits + 3)
  if room = 0 then "" else numberLines digits room 1 (codeLines source)

def sectionText (width : Nat) : Section → String
  | .code source => codeBlock width source
  | .text t => textLines t.text

def render (r : RunResult) (width : Nat) (reproduce : Bool) (command : Option String) : String :=
  String.join ((sections r width reproduce command).map (sectionText width))

end Report

end FormatFuzz
