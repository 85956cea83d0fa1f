import FormatFuzz.Program.Lexed
import FormatFuzz.Program.Print
import FormatFuzz.Program.Builder

namespace FormatFuzz.Program

open FormatFuzz.Random

/-- What is known between two tokens: the indentations of the blocks around, whether a line begins
and whether the last token was a string. -/
structure Joint where
  indents : List String
  lineStart : Bool
  afterString : Bool

/-- A token's own text: a blank follows names and numbers and parts two strings. -/
def Token.written (afterString : Bool) (t : Token) : String :=
  match t.kind with
  | .name | .number => t.text ++ " "
  | .string => if afterString then " " ++ t.text else t.text
  | _ => t.text

/-- The text of tokens in a row. The first token of a line, unless it only ends the line, comes behind
the indentation of its block. -/
def writeTokens (j : Joint) : List Token → String
  | [] => ""
  | t :: ts =>
    let text := t.written j.afterString
    let j := { j with afterString := t.kind == TokenKind.string }
    match t.kind with
    | .indent => writeTokens { j with indents := text :: j.indents } ts
    | .dedent => writeTokens { j with indents := j.indents.drop 1 } ts
    | .newline | .nl => text ++ writeTokens { j with lineStart := true } ts
    | _ =>
      match j.lineStart, j.indents with
      | true, indent :: _ => indent ++ text ++ writeTokens { j with lineStart := false } ts
      | _, _ => text ++ writeTokens j ts

def textOfTokens (ts : List Token) : String :=
  let lineStart := match ts with
    | t :: _ => t.kind == .newline || t.kind == .nl
    | [] => false
  writeTokens ⟨[], lineStart, false⟩ ts

def comments : List String :=
  ["noqa", "type: ignore", "fmt: skip", "TODO", "", "pragma: no cover"]

def paddings : List Nat := [0, 0, 0, 1, 2, 4]

variable {σ : Type} [Source σ]

/-- A comment before the end of a statement, one time in four. -/
def spaceBefore (t : Token) : Draw σ (List Token) := do
  if t.kind = .newline then
    if ← Draw.chance 1 4 then
      let comment ← Draw.choose comments
      return [⟨.comment, if comment.isEmpty then "#" else "# " ++ comment⟩]
  return []

def spaceAfter (t : Token) : Draw σ Token := do
  if t.kind = .name || t.kind = .number || t.kind = .operator then
    let padding ← Draw.choose paddings
    return { t with text := t.text ++ String.ofList (List.replicate padding ' ') }
  return t

def spaceTokens : List Token → Draw σ (List Token)
  | [] => pure []
  | t :: ts => do
    let before ← spaceBefore t
    let t ← spaceAfter t
    return before ++ t :: (← spaceTokens ts)

/-- A program text with random gaps and comments. A text that cannot be read to its end is still
drawn for as far as it was read. -/
def respace (source : String) : Draw σ (Except LexError String) := do
  let lexed := Lexed.ofText source
  let tokens ← spaceTokens lexed.tokens
  match lexed.error with
  | some e => return .error e
  | none => return .ok (textOfTokens tokens)

def generatePlain (depth : Nat) : Draw σ String := do return (← Build.module depth).source

def generateSpaced (depth : Nat) : Draw σ (Except LexError String) := do
  respace (← generatePlain depth)

end FormatFuzz.Program
