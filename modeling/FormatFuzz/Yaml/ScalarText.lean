import FormatFuzz.Yaml.Token

namespace FormatFuzz.Yaml.Scan

/-- What one break and further ones after it stand for. -/
def folded (first more : List Char) : List Char :=
  if first != ['\n'] then first ++ more
  else if more.isEmpty then [' '] else more

/-- Breaks with blanks between them. None is allowed in front of the mark of a document. -/
def quotedBreaks : Nat → Scan (List Char)
  | 0 => failure
  | fuel + 1 => do
    if ← atDocumentMark then failure
    let _ ← takeWhile fun c => c == ' ' || c == '\t'
    match ← lineBreak with
    | [] => return []
    | b => return b ++ (← quotedBreaks fuel)

def shortEscapes : List (Char × Nat) := [
  ('0', 0), ('a', 7), ('b', 8), ('t', 9), ('\t', 9), ('n', 10), ('v', 11), ('f', 12), ('r', 13),
  ('e', 27), (' ', 32), ('"', 34), ('\\', 92), ('/', 47), ('N', 0x85), ('_', 0xa0),
  ('L', 0x2028), ('P', 0x2029)]

def escapeWidth? : Char → Option Nat
  | 'x' => some 2
  | 'u' => some 4
  | 'U' => some 8
  | _ => none

def hexValue? (c : Char) : Option Nat :=
  if '0' ≤ c && c ≤ '9' then some (c.toNat - 48)
  else if 'a' ≤ c && c ≤ 'f' then some (c.toNat - 87)
  else if 'A' ≤ c && c ≤ 'F' then some (c.toNat - 55)
  else none

/-- The escape behind a backslash. An escaped line break is left out. -/
def escaped : Scan (List Char) := do
  let c ← peek
  match shortEscapes.lookup c, escapeWidth? c with
  | some code, _ =>
    advance 1
    return [Char.ofNat code]
  | none, some width =>
    advance 1
    let digits := (← get).rest.take width
    let some values := digits.mapM hexValue? | failure
    if values.length ≠ width then failure
    advance width
    let code := values.foldl (16 * · + ·) 0
    if 0x110000 ≤ code then failure
    return [if code.isValidChar then Char.ofNat code else Char.ofNat 0xfffd]
  | none, none =>
    if (← lineBreak).isEmpty then failure
    quotedBreaks (← turns)

def quotedWords (double : Bool) : Nat → Scan (List Char)
  | 0 => failure
  | fuel + 1 => do
    let plain ← takeWhile fun c => !(isBlankOrEnd c || c == '\'' || c == '"' || c == '\\')
    let c ← peek
    if !double && c == '\'' && (← peek 1) == '\'' then
      advance 2
      return plain ++ '\'' :: (← quotedWords double fuel)
    else if (double && c == '\'') || (!double && (c == '"' || c == '\\')) then
      advance 1
      return plain ++ c :: (← quotedWords double fuel)
    else if double && c == '\\' then
      advance 1
      let e ← escaped
      return plain ++ e ++ (← quotedWords double fuel)
    else return plain

/-- Blanks and breaks inside a quoted text. Blanks in front of a break are dropped. -/
def quotedSpaces : Scan (List Char) := do
  let blanks ← takeWhile fun c => c == ' ' || c == '\t'
  if (← peek) == endMark then failure
  match ← lineBreak with
  | [] => return blanks
  | b => return folded b (← quotedBreaks (← turns))

def quotedRest (double : Bool) (quote : Char) : Nat → Scan (List Char)
  | 0 => failure
  | fuel + 1 => do
    let words ← quotedWords double (← turns)
    if (← peek) == quote then
      advance 1
      return words
    let spaces ← quotedSpaces
    return words ++ spaces ++ (← quotedRest double quote fuel)

def quotedText (quote : Char) : Scan String := do
  advance 1
  return String.ofList (← quotedRest (quote == '"') quote (← turns))

def endsPlain (inBrackets : Bool) (c next : Char) : Bool :=
  isBlankOrEnd c ||
    (c == ':' && (isBlankOrEnd next || (inBrackets && [',', '[', ']', '{', '}'].contains next))) ||
    (inBrackets && [',', '?', '[', ']', '{', '}'].contains c)

def plainLength (inBrackets : Bool) : List Char → Nat
  | [] => 0
  | c :: cs =>
    if endsPlain inBrackets c (cs.headD endMark) then 0 else plainLength inBrackets cs + 1

def plainBreaks : Nat → Scan (Option (List Char))
  | 0 => failure
  | fuel + 1 => do
    let _ ← takeWhile (· == ' ')
    match ← lineBreak with
    | [] => return some []
    | b =>
      if ← atDocumentMark then return none
      return (← plainBreaks fuel).map (b ++ ·)

/-- What is between two words of a plain text. After a break a key can begin. -/
def plainSpaces : Scan (List Char) := do
  let blanks ← takeWhile (· == ' ')
  match ← lineBreak with
  | [] => return blanks
  | b =>
    modify fun s => { s with mayBeKey := true }
    if ← atDocumentMark then return []
    match ← plainBreaks (← turns) with
    | none => return []
    | some more => return folded b more

/-- The words of a plain text, `spaces` being what is before the next one. -/
def plainWords (indent : Int) (spaces : List Char) : Nat → Scan (List Char)
  | 0 => failure
  | fuel + 1 => do
    if (← peek) == '#' then return []
    let s ← get
    let length := plainLength (s.depth != 0) s.rest
    if length = 0 then return []
    let word := s.rest.take length
    modify fun s => { s with mayBeKey := false }
    advance length
    let next ← plainSpaces
    let s ← get
    if next.isEmpty || (← peek) == '#' || (s.depth == 0 && (s.column : Int) < indent) then
      return spaces ++ word
    return spaces ++ word ++ (← plainWords indent next fuel)

def plainText : Scan String := do
  return String.ofList (← plainWords ((← get).indent + 1) [] (← turns))

/-- What becomes of the breaks at the end of a block: the first one is kept, or all, or none. -/
inductive Chomp
  | clip
  | keep
  | strip
deriving DecidableEq

def chomp? : Char → Option Chomp
  | '+' => some .keep
  | '-' => some .strip
  | _ => none

/-- The digit for the indentation of a block. Zero is none. -/
def blockIndent : Scan (Option Nat) := do
  let c ← peek
  if !c.isDigit then return none
  if c == '0' then failure
  advance 1
  return some (c.toNat - 48)

def blockChomp : Scan (Option Chomp) := do
  match chomp? (← peek) with
  | none => return none
  | some chomp =>
    advance 1
    return some chomp

def blockMarks : Scan (Chomp × Option Nat) := do
  match ← blockChomp with
  | some chomp => return (chomp, ← blockIndent)
  | none =>
    let indent ← blockIndent
    return ((← blockChomp).getD .clip, indent)

def restOfLine : Scan Unit := do
  let _ ← takeWhile (· == ' ')
  if (← peek) == '#' then let _ ← takeWhile fun c => !isBreakOrEnd c
  if !isBreakOrEnd (← peek) then failure
  let _ ← lineBreak

def blockStart (widest : Nat) : Nat → Scan (List Char × Nat)
  | 0 => failure
  | fuel + 1 => do
    let c ← peek
    if c == ' ' then
      advance 1
      blockStart (max widest (← get).column) fuel
    else match ← lineBreak with
      | [] => return ([], widest)
      | b =>
        let (breaks, widest) ← blockStart widest fuel
        return (b ++ breaks, widest)

def blockBreaks (indent : Nat) : Nat → Scan (List Char)
  | 0 => failure
  | fuel + 1 => do
    skipSpaces (indent - (← get).column)
    match ← lineBreak with
    | [] => return []
    | b => return b ++ (← blockBreaks indent fuel)

/-- The lines of a block, `breaks` being the empty lines in front: the text, the last break and the
empty lines after it. In a folded block a break between two lines that begin with a word is a
space. -/
def blockLines (foldLines : Bool) (indent : Nat) (breaks : List Char) :
    Nat → Scan (List Char × List Char × List Char)
  | 0 => failure
  | fuel + 1 => do
    if (← get).column ≠ indent || (← peek) == endMark then return ([], [], breaks)
    let isWord (c : Char) : Bool := c != ' ' && c != '\t'
    let startsWord := isWord (← peek)
    let line ← takeWhile fun c => !isBreakOrEnd c
    let b ← lineBreak
    let more ← blockBreaks indent (← turns)
    let start := breaks ++ line
    if (← get).column = indent && (← peek) ≠ endMark then
      let join := if foldLines && b == ['\n'] && startsWord && isWord (← peek)
        then (if more.isEmpty then [' '] else []) else b
      let (text, last, after) ← blockLines foldLines indent more fuel
      return (start ++ join ++ text, last, after)
    return (start, b, more)

def blockText (foldLines : Bool) : Scan String := do
  advance 1
  let (chomp, increment) ← blockMarks
  restOfLine
  let least := ((← get).indent + 1).toNat.max 1
  let (indent, breaks) ← match increment with
    | some n => do
      let indent := least + n - 1
      pure (indent, ← blockBreaks indent (← turns))
    | none => do
      let (breaks, widest) ← blockStart 0 (← turns)
      pure (max least widest, breaks)
  let (text, last, after) ← blockLines foldLines indent breaks (← turns)
  return String.ofList (match chomp with
    | .strip => text
    | .clip => text ++ last
    | .keep => text ++ last ++ after)

end FormatFuzz.Yaml.Scan
