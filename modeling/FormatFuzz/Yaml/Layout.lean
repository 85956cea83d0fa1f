import FormatFuzz.Yaml.ScalarText

/-!
# From text to tokens

Outside brackets the collections are told by indentation: an entry or a key that stands further to
the right than the collection around it begins a new collection, and what stands further to the left
ends those on the way. Inside brackets indentation does not count.
-/

namespace FormatFuzz.Yaml.Scan

/-- Possible keys that are on an earlier line or too far away are none. -/
def dropStaleKeys : Scan Unit := do
  let s ← get
  let stale (k : PossibleKey) : Bool := k.line != s.line || k.index + 1024 < s.index
  if s.keys.any fun (_, k) => stale k && k.required then failure
  set { s with keys := s.keys.filter fun (_, k) => !stale k }

def dropKey : Scan Unit := do
  let s ← get
  if (s.keys.lookup s.depth).any (·.required) then failure
  set { s with keys := s.keys.filter (·.1 != s.depth) }

/-- The token that follows may be a key. -/
def noteKey : Scan Unit := do
  if (← get).mayBeKey then
    dropKey
    modify fun s =>
      let required := s.depth == 0 && s.indent == s.column
      { s with keys := (s.depth, ⟨s.tokens.size, s.index, s.line, s.column, required⟩) :: s.keys }

def setMayBeKey (b : Bool) : Scan Unit := modify fun s => { s with mayBeKey := b }

def unindent (column : Int) : List Int → Scan Unit
  | [] => return ()
  | outer :: rest => do
    if column < (← get).indent then
      modify fun s => { s with indent := outer, outer := rest, tokens := s.tokens.push .blockEnd }
      unindent column rest

def unindentTo (column : Int) : Scan Unit := do
  let s ← get
  if s.depth == 0 then unindent column s.outer

/-- Begins a collection at a column, if it is further to the right: its token is put at a number. -/
def indentAt (column : Nat) (number : Nat) (t : Token) : Scan Unit :=
  modify fun s =>
    if s.indent < (column : Int) then
      { s with indent := column, outer := s.indent :: s.outer,
               tokens := s.tokens.insertIdx! number t }
    else s

/-- Begins a collection here, where a key can begin, or not at all inside brackets. -/
def indentHere (t : Token) : Scan Unit := do
  let s ← get
  if s.depth == 0 then
    if !s.mayBeKey then failure
    indentAt s.column s.tokens.size t

def someNameChars : Scan String := do
  let cs ← takeWhile isNameChar
  if cs.isEmpty then failure
  return String.ofList cs

def number : Scan Nat := do
  let cs ← takeWhile Char.isDigit
  if cs.isEmpty then failure
  return cs.foldl (fun n c => 10 * n + (c.toNat - 48)) 0

/-- The name of a group of tags: exclamation marks with a name or nothing between them. -/
def tagHandle : Scan String := do
  if (← peek) != '!' then failure
  advance 1
  if (← peek) == ' ' then return "!"
  let cs ← takeWhile isNameChar
  if (← peek) == '!' then
    advance 1
    return String.ofList ('!' :: cs ++ ['!'])
  failure

def isTagChar (c : Char) : Bool :=
  c.isAlphanum || "-;/?:@&=+$,_.!~*'()[]%".toList.contains c

/-- The name of a tag, a percent sign and two digits standing for a byte. -/
def tagName : Scan String := do
  let cs ← takeWhile isTagChar
  if cs.isEmpty then failure
  return String.ofList cs

def directive : Scan Token := do
  advance 1
  let name ← someNameChars
  if !isBreakOrEnd (← peek) && (← peek) != ' ' then failure
  let t ← match name with
    | "YAML" => do
      skipSpaces (← get).rest.length
      let major ← number
      if (← peek) != '.' then failure
      advance 1
      let _ ← number
      if !isBreakOrEnd (← peek) && (← peek) != ' ' then failure
      pure (Token.directive (some major) none)
    | "TAG" => do
      skipSpaces (← get).rest.length
      let handle ← tagHandle
      if (← peek) != ' ' then failure
      skipSpaces (← get).rest.length
      let space ← tagName
      if !isBreakOrEnd (← peek) && (← peek) != ' ' then failure
      pure (Token.directive none (some (handle, space)))
    | _ => do
      let _ ← takeWhile fun c => !isBreakOrEnd c
      pure (Token.directive none none)
  restOfLine
  return t

def mark : Scan String := do
  advance 1
  let name ← someNameChars
  let c ← peek
  if !(isBlankOrEnd c || "?:,]\x7d%@`".toList.contains c) then failure
  return name

def tag : Scan Token := do
  let next ← peek 1
  let t ← if next == '<' then do
      advance 2
      let name ← tagName
      if (← peek) != '>' then failure
      advance 1
      pure (Token.tag none name)
    else if isBlankOrEnd next then do
      advance 1
      pure (Token.tag none "!")
    else do
      let word := ((← get).rest.drop 1).takeWhile fun c => !(isBreakOrEnd c || c == ' ')
      let handle ← if word.contains '!' then tagHandle else do advance 1; pure "!"
      pure (Token.tag (some handle) (← tagName))
  if !isBreakOrEnd (← peek) && (← peek) != ' ' then failure
  return t

/-- Skips blanks, comments and empty lines. After a break outside brackets a key can begin. -/
def skipToToken : Nat → Scan Unit
  | 0 => failure
  | fuel + 1 => do
    let _ ← takeWhile (· == ' ')
    if (← peek) == '#' then let _ ← takeWhile fun c => !isBreakOrEnd c
    if !(← lineBreak).isEmpty then
      if (← get).depth == 0 then setMayBeKey true
      skipToToken fuel

def endAll : Scan Unit := do
  unindentTo (-1)
  dropKey
  setMayBeKey false

def opening (t : Token) : Scan Unit := do
  noteKey
  modify fun s => { s with depth := s.depth + 1, mayBeKey := true }
  advance 1
  push t

def closing (t : Token) : Scan Unit := do
  dropKey
  if (← get).depth == 0 then failure
  modify fun s => { s with depth := s.depth - 1, mayBeKey := false }
  advance 1
  push t

def keyLike (read : Scan Token) : Scan Unit := do
  noteKey
  setMayBeKey false
  push (← read)

/-- A colon. What stands before it is a key if it may be; its mark is put in front of it. -/
def colon : Scan Unit := do
  let s ← get
  match s.keys.lookup s.depth with
  | some k =>
    set { s with
      keys := s.keys.filter (·.1 != s.depth), tokens := s.tokens.insertIdx! k.number .key }
    if s.depth == 0 then indentAt k.column k.number .mappingStart
    setMayBeKey false
  | none =>
    indentHere .mappingStart
    setMayBeKey (s.depth == 0)
    dropKey
  advance 1
  push .value

def beginsPlain (inBrackets : Bool) (c next : Char) : Bool :=
  !(isBlankOrEnd c || "-?:,[]\x7b\x7d#&*!|>'\"%@`".toList.contains c) ||
    (!isBlankOrEnd next && (c == '-' || (!inBrackets && (c == '?' || c == ':'))))

def token : Scan Unit := do
  dropStaleKeys
  let s ← get
  unindentTo s.column
  let c ← peek
  let next ← peek 1
  let inBrackets := s.depth != 0
  let marks := isBlankOrEnd next
  if s.column == 0 && c == '%' then
    endAll
    push (← directive)
  else if s.column == 0 && (← atMark ['-', '-', '-']) then
    endAll
    advance 3
    push .documentStart
  else if s.column == 0 && (← atMark ['.', '.', '.']) then
    endAll
    advance 3
    push .documentEnd
  else match c with
    | '[' => opening .openSequence
    | '{' => opening .openMapping
    | ']' => closing .closeSequence
    | '}' => closing .closeMapping
    | ',' =>
      setMayBeKey true
      dropKey
      advance 1
      push .comma
    | '*' => keyLike (Token.alias <$> mark)
    | '&' => keyLike (Token.anchor <$> mark)
    | '!' => keyLike tag
    | '\'' => keyLike ((Token.scalar · false) <$> quotedText '\'')
    | '"' => keyLike ((Token.scalar · false) <$> quotedText '"')
    | _ =>
      if c == '-' && marks then
        indentHere .sequenceStart
        setMayBeKey true
        dropKey
        advance 1
        push .entry
      else if c == '?' && (inBrackets || marks) then
        indentHere .mappingStart
        setMayBeKey !inBrackets
        dropKey
        advance 1
        push .key
      else if c == ':' && (inBrackets || marks) then colon
      else if !inBrackets && (c == '|' || c == '>') then
        setMayBeKey true
        dropKey
        push (.scalar (← blockText (c == '>')) false)
      else if beginsPlain inBrackets c next then
        keyLike ((Token.scalar · true) <$> plainText)
      else failure

def allTokens : Nat → Scan Unit
  | 0 => failure
  | fuel + 1 => do
    skipToToken (← turns)
    if (← get).rest.isEmpty then
      dropStaleKeys
      endAll
    else
      token
      allTokens fuel

end Scan

def isAllowed (c : Char) : Bool :=
  let n := c.toNat
  n == 9 || n == 10 || n == 13 || (32 ≤ n && n ≤ 126) || n == 0x85 || (0xa0 ≤ n && n ≤ 0xd7ff) ||
    (0xe000 ≤ n && n ≤ 0xfffd) || 0x10000 ≤ n

/-- The tokens of a text, if it holds nothing else. A mark of the byte order in front does not
count. -/
def tokens? (text : String) : Option (List Token) := do
  let cs := text.toList
  if !cs.all isAllowed then failure
  let rest := if cs.head?.any (·.toNat == 0xfeff) then cs.drop 1 else cs
  let (_, s) ← (Scan.allTokens (rest.length + 2)).run { rest }
  return s.tokens.toList

end FormatFuzz.Yaml
