namespace FormatFuzz.Program

/-- The kinds of tokens. The end of a statement is a `newline`, any other end of a line an `nl`. -/
inductive TokenKind
  | name
  | number
  | string
  | operator
  | comment
  | newline
  | nl
  | indent
  | dedent
  | stray
  | endMarker
deriving DecidableEq, Repr

structure Token where
  kind : TokenKind
  text : String
deriving DecidableEq, Repr

/-- Why reading breaks off: the text ends inside a string that began at a line and column, inside a
statement, or a line is indented like no line that it could belong to. -/
inductive LexError
  | openString (line column : Nat)
  | openStatement (line : Nat)
  | unindent (line : Nat)
deriving DecidableEq, Repr

def LexError.message : LexError → String
  | openString line column =>
    "('EOF in multi-line string', (" ++ toString line ++ ", " ++ toString column ++ "))"
  | openStatement line => "('EOF in multi-line statement', (" ++ toString line ++ ", 0))"
  | unindent line =>
    "unindent does not match any outer indentation level (<tokenize>, line " ++ toString line ++ ")"

/-- The tokens of a text, as far as it could be read. -/
structure Lexed where
  tokens : List Token
  error : Option LexError
deriving Repr

def Lexed.prepend (ts : List Token) (l : Lexed) : Lexed := ⟨ts ++ l.tokens, l.error⟩

end FormatFuzz.Program
