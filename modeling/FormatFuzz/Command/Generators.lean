import FormatFuzz.Command.Outcome
import FormatFuzz.Registry

namespace FormatFuzz

def padded (width : Nat) (s : String) : String :=
  s ++ String.ofList (List.replicate (width - Text.cells s.toList) ' ')

def tableRule (left middle right fill : Char) (widths : List Nat) : String :=
  let spans := widths.map fun w => String.ofList (List.replicate (w + 2) fill)
  String.singleton left ++ (String.singleton middle).intercalate spans ++
    String.singleton right ++ "\n"

def tableRow (bar : Char) (widths : List Nat) (row : List String) : String :=
  let cells := (widths.zip row).map fun (w, s) => " " ++ padded w s ++ " "
  let b := String.singleton bar
  b ++ b.intercalate cells ++ b ++ "\n"

def table (head : List String) (rows : List (List String)) : String :=
  let widths := (List.range head.length).map fun i =>
    (head :: rows).foldl (fun w row => max w (Text.cells (row.getD i "").toList)) 0
  tableRule '┏' '┳' '┓' '━' widths ++ tableRow '┃' widths head ++
    tableRule '┡' '╇' '┩' '━' widths ++ String.join (rows.map (tableRow '│' widths)) ++
    tableRule '└' '┴' '┘' '─' widths

def firstLine (about : String) : String :=
  String.ofList ((Text.trim about.toList).takeWhile fun c => !Text.isLineEnd c)

def generatorsCommand (abouts : Registry String) : CommandEnd :=
  let row (name : String) : Except Markup.MarkupError (List String) := do
    let about := firstLine ((abouts.entries.lookup name).getD "")
    return [← Markup.print name, ← Markup.print about]
  match abouts.names.mapM row with
  | .ok rows => .done 0 (table ["Name", "Description"] rows)
  | .error e => .crash (.markup e)

end FormatFuzz
