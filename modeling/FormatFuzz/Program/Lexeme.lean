import FormatFuzz.Text.Word
import FormatFuzz.Program.Token
import FormatFuzz.Program.Numeral

namespace FormatFuzz.Program

namespace Lex

def isStringMark (mark : List Char) : Bool :=
  [[], ['b'], ['r'], ['u'], ['f'], ['b', 'r'], ['r', 'b'], ['f', 'r'], ['r', 'f']].contains
    (mark.map Char.toLower)

def isQuote (c : Char) : Bool := c == '\'' || c == '"'

def stringStart? (cs : List Char) : Option (List Char × Char × List Char) :=
  [0, 1, 2].findSome? fun n =>
    match cs.drop n with
    | q :: rest => if isQuote q && isStringMark (cs.take n) then some (cs.take n, q, rest) else none
    | [] => none

/-- The part of a text up to its closing quotes; a backslash at the end of a line ends the search. -/
def closing (quote : Char) (tripled : Bool) : List Char → Split
  | [] => none
  | '\\' :: c :: cs =>
    if c == '\n' then none
    else (closing quote tripled cs).map fun (t, rest) => ('\\' :: c :: t, rest)
  | c :: cs =>
    if c == '\\' then none
    else if c == quote then
      if !tripled then some ([c], cs)
      else match cs with
        | a :: b :: rest =>
          if a == quote && b == quote then some ([c, a, b], rest)
          else (closing quote tripled cs).map fun (t, rest) => (c :: t, rest)
        | _ => none
    else (closing quote tripled cs).map fun (t, rest) => (c :: t, rest)

inductive Ending
  | closed (text rest : List Char)
  | continued (text : List Char)
  | stray

/-- A text in single quotes of either form ends on its line or goes on behind a backslash. -/
def shortEnding (quote : Char) (seen : List Char) : List Char → Ending
  | [] => .stray
  | '\\' :: '\n' :: _ => .continued (seen.reverse ++ ['\\', '\n'])
  | '\\' :: '\r' :: '\n' :: _ => .continued (seen.reverse ++ ['\\', '\r', '\n'])
  | '\\' :: c :: cs => shortEnding quote (c :: '\\' :: seen) cs
  | c :: cs =>
    if c == '\n' || c == '\\' then .stray
    else if c == quote then .closed (seen.reverse ++ [c]) cs
    else shortEnding quote (c :: seen) cs

def operators : List String :=
  ["**=", "//=", ">>=", "<<=", "...", "!=", "%=", "&=", "**", "*=", "+=", "-=", "->", "//", "/=",
    ":=", "<<", "<=", "==", ">=", ">>", "@=", "^=", "|=", "%", "&", "(", ")", "*", "+", ",", "-",
    ".", "/", ":", ";", "<", "=", ">", "@", "[", "]", "^", "\x7b", "|", "\x7d", "~"]

def operator? (cs : List Char) : Split :=
  operators.findSome? fun op =>
    if op.toList.isPrefixOf cs then some (op.toList, cs.drop op.length) else none

inductive Step
  | done
  | token (kind : TokenKind) (text rest : List Char)
  | lineEnd (text rest : List Char)
  | join (rest : List Char)
  | opened (quote : Char) (tripled : Bool) (text : List Char)

def isSkipped (c : Char) : Bool := c == ' ' || c == '\t' || c == '\x0c'

def string? (cs : List Char) : Option Step := do
  let (mark, quote, rest) ← stringStart? cs
  match rest with
  | a :: b :: body =>
    if a == quote && b == quote then
      match closing quote true body with
      | some (text, rest) => return .token .string (mark ++ quote :: quote :: quote :: text) rest
      | none => return .opened quote true cs
    else short mark quote rest
  | _ => short mark quote rest
where
  short (mark : List Char) (quote : Char) (rest : List Char) : Option Step :=
    match shortEnding quote [] rest with
    | .closed text rest => some (.token .string (mark ++ quote :: text) rest)
    | .continued text => some (.opened quote false (mark ++ quote :: text))
    | .stray => none

/-- A name, or a row of word characters that is none. -/
def word? (cs : List Char) : Option Step :=
  match cs.takeWhile Text.isWordChar with
  | [] => none
  | c :: w =>
    let kind := if Text.isIdentifierStart c then TokenKind.name else .operator
    some (.token kind (c :: w) (cs.dropWhile Text.isWordChar))

def step (cs : List Char) : Step :=
  match cs.dropWhile isSkipped with
  | [] => .done
  | '\\' :: '\n' :: rest => .join rest
  | '\\' :: '\r' :: '\n' :: rest => .join rest
  | '\n' :: rest => .lineEnd ['\n'] rest
  | '\r' :: '\n' :: rest => .lineEnd ['\r', '\n'] rest
  | c :: rest =>
    if c == '#' then
      .token .comment (c :: rest.takeWhile fun c => c != '\r' && c != '\n')
        (rest.dropWhile fun c => c != '\r' && c != '\n')
    else
      let number := (number (c :: rest)).map fun (t, rest) => Step.token .number t rest
      let operator := (operator? (c :: rest)).map fun (t, rest) => Step.token .operator t rest
      let found := number.or (operator.or ((string? (c :: rest)).or (word? (c :: rest))))
      found.getD (.token .stray (cs.take 1) (cs.drop 1))

end Lex

end FormatFuzz.Program
