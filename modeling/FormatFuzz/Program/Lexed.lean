import FormatFuzz.Text.Blank
import FormatFuzz.Program.Lexeme

namespace FormatFuzz.Program

namespace Lex

/-- A string that is open at the end of a line: its quotes, its text so far and where it began. -/
structure OpenString where
  quote : Char
  tripled : Bool
  text : List Char
  line : Nat
  column : Nat

/-- What is known between two lines: the open string, how many brackets are open, whether the
statement goes on, and the columns of the blocks around it, the innermost first. -/
structure State where
  openString : Option OpenString
  depth : Int
  continued : Bool
  columns : List Nat

def depthChange (text : List Char) : Int :=
  match text with
  | ['('] | ['['] | ['{'] => 1
  | [')'] | [']'] | ['}'] => -1
  | _ => 0

def token (kind : TokenKind) (text : List Char) : Token := ⟨kind, String.ofList text⟩

def scan (lineNumber width : Nat) (s : State) : (fuel : Nat) → List Char → List Token × State
  | 0, _ => ([], s)
  | fuel + 1, cs =>
    match step cs with
    | .done => ([], s)
    | .join rest => scan lineNumber width { s with continued := true } fuel rest
    | .lineEnd text rest =>
      let (ts, s') := scan lineNumber width s fuel rest
      (token (if 0 < s.depth then .nl else .newline) text :: ts, s')
    | .opened quote tripled text =>
      let column := width - text.length
      ([], { s with openString := some ⟨quote, tripled, text, lineNumber, column⟩ })
    | .token kind text rest =>
      let depth := if kind = .operator then s.depth + depthChange text else s.depth
      let (ts, s') := scan lineNumber width { s with depth := depth } fuel rest
      (token kind text :: ts, s')

def scanAll (lineNumber : Nat) (s : State) (line rest : List Char) : List Token × State :=
  scan lineNumber line.length s rest.length rest

/-- The column that leading blanks reach: tabs go to the next multiple of eight, a form feed begins
anew. -/
def column (cs : List Char) : Nat :=
  (cs.takeWhile isSkipped).foldl
    (fun col c => if c == ' ' then col + 1 else if c == '\t' then (col / 8 + 1) * 8 else 0) 0

def closeBlocks (col : Nat) : List Nat → Option (Nat × List Nat)
  | [] => none
  | c :: cs =>
    if col = c then some (0, c :: cs)
    else if c < col then none
    else (closeBlocks col cs).map fun (n, cs) => (n + 1, cs)

def goesOn (line : List Char) : Bool :=
  match line.reverse with
  | '\n' :: '\\' :: _ => true
  | '\n' :: '\r' :: '\\' :: _ => true
  | _ => false

def blankLine (body : List Char) : List Token :=
  let isEnd := fun (c : Char) => c == '\r' || c == '\n'
  match body with
  | '#' :: _ =>
    let comment := (body.reverse.dropWhile isEnd).reverse
    [token .comment comment, token .nl (body.drop comment.length)]
  | _ => [token .nl body]

def closeText (lastLine : List Char) (s : State) : List Token :=
  let unfinished : Bool := match lastLine.getLast? with
    | none => false
    | some c => c != '\r' && c != '\n' && (lastLine.dropWhile Text.isBlank).head? != some '#'
  (if unfinished then [token .newline []] else []) ++
    List.replicate (s.columns.length - 1) (token .dedent []) ++ [token .endMarker []]

def lexLines (lineNumber : Nat) (lastLine : List Char) (s : State) : List (List Char) → Lexed
  | [] =>
    match s.openString with
    | some o => ⟨[], some (.openString o.line o.column)⟩
    | none =>
      if s.depth ≠ 0 || s.continued then ⟨[], some (.openStatement lineNumber)⟩
      else ⟨closeText lastLine s, none⟩
  | line :: lines =>
    match s.openString with
    | some o =>
      match closing o.quote o.tripled line with
      | some (text, rest) =>
        let (ts, s') := scanAll lineNumber { s with openString := none } line rest
        Lexed.prepend (token .string (o.text ++ text) :: ts)
          (lexLines (lineNumber + 1) line s' lines)
      | none =>
        if !o.tripled && !goesOn line then
          Lexed.prepend [token .stray (o.text ++ line)]
            (lexLines (lineNumber + 1) line { s with openString := none } lines)
        else
          lexLines (lineNumber + 1) line
            { s with openString := some { o with text := o.text ++ line } } lines
    | none =>
      if s.depth ≠ 0 || s.continued then
        let (ts, s') := scanAll lineNumber { s with continued := false } line line
        Lexed.prepend ts (lexLines (lineNumber + 1) line s' lines)
      else
        let body := line.dropWhile isSkipped
        match body with
        | [] => ⟨closeText lastLine s, none⟩
        | c :: _ =>
          if c == '#' || c == '\r' || c == '\n' then
            Lexed.prepend (blankLine body) (lexLines (lineNumber + 1) line s lines)
          else
            let col := column line
            let top := s.columns.headD 0
            if top < col then
              let (ts, s') := scanAll lineNumber { s with columns := col :: s.columns } line body
              Lexed.prepend (token .indent (line.takeWhile isSkipped) :: ts)
                (lexLines (lineNumber + 1) line s' lines)
            else
              match closeBlocks col s.columns with
              | none => ⟨[], some (.unindent lineNumber)⟩
              | some (n, columns) =>
                let (ts, s') := scanAll lineNumber { s with columns := columns } line body
                Lexed.prepend (List.replicate n (token .dedent []) ++ ts)
                  (lexLines (lineNumber + 1) line s' lines)

def linesOf : List Char → List (List Char)
  | [] => []
  | c :: cs =>
    if c == '\n' then [c] :: linesOf cs
    else match linesOf cs with
      | [] => [[c]]
      | l :: ls => (c :: l) :: ls

end Lex

def Lexed.ofText (text : String) : Lexed :=
  Lex.lexLines 1 [] ⟨none, 0, false, [0]⟩ (Lex.linesOf text.toList)

end FormatFuzz.Program
