import FormatFuzz.Pattern.Item

/-!
# Reading a pattern

The written form of a pattern. A character stands for itself unless it is one of `.\[{()*+?^$|`; a
backslash and the character after it are one token. Reading fails with a problem and the position
of the token that shows it.

Groups that look ahead or behind, refer to other groups or give up choices are read, so that a fault
in them is found, but no pattern is made of them: they describe more than a set of stretches.
-/

namespace FormatFuzz

namespace PatternReader

def flagLetters : List Char := ['i', 'L', 'm', 's', 'x', 'a', 't', 'u']
def kindFlags : List Char := ['L', 'a', 'u']
def isAlphabetic (c : Char) : Bool := Text.isIdentifierStart c && c != '_'

/-- A further flag, or the problem with what stands in its place. -/
def flagOr (what : String) : Read Char := do
  match ← next with
  | none => fail (.missing what)
  | some [c] =>
    if flagLetters.contains c then return c
    fail (if isAlphabetic c then .unknownFlag else .missing what) 1
  | some t => fail (.missing what) t.length

/-- Flags turned on from `c` on, and the character that ends them. -/
def flagsOn (on : List Char) (c : Char) : Nat → Read (List Char × Char)
  | 0 => fail (.missing "-, : or )")
  | fuel + 1 => do
    if c == 'L' then fail .localeFlag
    let on := c :: on
    if kindFlags.contains c && kindFlags.any (fun k => k != c && on.contains k) then
      fail .flagsClash
    match ← peek with
    | some [e] => if e == ')' || e == '-' || e == ':' then let _ ← next; return (on, e)
    | _ => pure ()
    flagsOn on (← flagOr "-, : or )") fuel

def flagsOff (off : List Char) (c : Char) : Nat → Read (List Char)
  | 0 => fail (.missing ":")
  | fuel + 1 => do
    if kindFlags.contains c then fail .flagKindOff
    if ← accept ':' then return c :: off
    flagsOff (c :: off) (← flagOr ":") fuel

/-- The flags of a group from the first character on: those turned on and off, or none if they are
for the whole pattern. -/
def groupFlags (c : Char) : Read (Option (List Char × List Char)) := do
  let fuel := (← get).rest.length + 1
  let (on, stop) ← if c == '-' then pure ([], '-') else flagsOn [] c fuel
  if stop == ')' then
    modify fun s => { s with flags := on ++ s.flags }
    return none
  if on.contains 't' then fail .flagNotGlobalOn 1
  let off ← if stop == '-' then flagsOff [] (← flagOr "flag") fuel else pure []
  if off.contains 't' then fail .flagNotGlobalOff 1
  if on.any off.contains then fail .flagOnAndOff 1
  return some (on, off)

def allOf (items : List Item) : Pattern :=
  match items.reverse with
  | [] => .nothing
  | item :: more => more.foldl (fun p i => .sequence p i.pattern) item.pattern

def skipComment (start : Nat) : List Token → Read Unit
  | [] => failAt .openComment start
  | t :: ts => do
    let _ ← next
    if t != [')'] then skipComment start ts

def skipNote : List Token → Read Unit
  | [] => return ()
  | t :: ts => do
    let _ ← next
    if t != ['\n'] then skipNote ts

def close (start : Nat) : Read Unit := do
  if !(← accept ')') then failAt .openGroup start

def openGroup (name : Option String) : Read Nat := do
  let s ← get
  let number := s.groups + 1
  if let some n := name then
    if let some earlier := s.names.lookup n then
      fail (.nameTaken n number earlier) (n.length + 1)
  let names := match name with
    | some n => (n, number) :: s.names
    | none => s.names
  modify fun s => { s with groups := number, stillOpen := number :: s.stillOpen, names }
  return number

def conditionGroup : Read Unit := do
  let n ← name ')' "group name"
  let back := n.length + 1
  if isIdentifier n then
    if ((← get).names.lookup n).isNone then fail (.unknownName n) back
  else
    if !n.toList.all isAsciiDigit then fail (.badName n) back
    let number := numeral 10 n.toList
    if number == 0 then fail .groupZero back
    let s ← get
    let references :=
      if s.references.any (·.1 == number) then s.references
      else s.references ++ [(number, s.position - back)]
    set { s with references }

def isWhitespace (c : Char) : Bool :=
  c == ' ' || c == '\t' || c == '\n' || c == '\r' || c == '\x0b' || c == '\x0c'

mutual

/-- Sequences between bars. The flags in force are those of the group, or outside of all groups those
for the whole pattern, which must come first. -/
def choice (fuel : Nat) (scope : Option (List Char)) (isFirst : Bool) : Read Pattern :=
  match fuel with
  | 0 => throw .unsupported
  | fuel + 1 => do
    let p ← items fuel scope (isFirst && scope.isNone) []
    if ← accept '|' then return .either p (← choice fuel scope false) else return p

/-- The items of a sequence up to a bar, a closing parenthesis or the end, the last ones first. -/
def items (fuel : Nat) (scope : Option (List Char)) (isFirst : Bool) (before : List Item) :
    Read Pattern :=
  match fuel with
  | 0 => throw .unsupported
  | fuel + 1 => do
    let start := (← get).position
    let flags := scope.getD (← get).flags
    let go := items fuel scope isFirst
    match ← peek with
    | none => return allOf before
    | some ['|'] => return allOf before
    | some [')'] => return allOf before
    | some token =>
      let _ ← next
      match token with
      | ['\\', c] => go ((← escape flags c) :: before)
      | [c] =>
        if flags.contains 'x' && isWhitespace c then go before
        else if flags.contains 'x' && c == '#' then skipNote (← get).rest; go before
        else match c with
          | '[' => go ((← characterSet flags) :: before)
          | '?' => go (← repeated start before 0 (some 1))
          | '*' => go (← repeated start before 0 none)
          | '+' => go (← repeated start before 1 none)
          | '{' =>
            match ← bounds with
            | some (least, most) => go (← repeated start before least most)
            | none => go (literal flags c.toNat :: before)
          | '.' => go (⟨.leaf (.char (.any (flags.contains 's'))), .plain⟩ :: before)
          | '^' =>
            let place := if flags.contains 'm' then .lineStart else .textStart
            go (⟨.leaf (.anchor place), .place⟩ :: before)
          | '$' =>
            let place := if flags.contains 'm' then .lineEnd else .lastLineEnd
            go (⟨.leaf (.anchor place), .place⟩ :: before)
          | '(' =>
            match ← group fuel start flags (isFirst && before.isEmpty) with
            | some item => go (item :: before)
            | none => go before
          | c => go (literal flags c.toNat :: before)
      | _ => fail .danglingEscape

/-- What an opening parenthesis begins, the parenthesis taken before: an item, or nothing. -/
def group (fuel : Nat) (start : Nat) (flags : List Char) (isFirst : Bool) : Read (Option Item) :=
  match fuel with
  | 0 => throw .unsupported
  | fuel + 1 => do
    if !(← accept '?') then return some (← numbered fuel start flags none)
    let some token ← next | fail .patternEnds
    match token with
    | ['P'] =>
      if ← accept '<' then
        let n ← name '>' "group name"
        if !isIdentifier n then fail (.badName n) (n.length + 1)
        return some (← numbered fuel start flags (some n))
      else if ← accept '=' then
        let n ← name ')' "group name"
        if !isIdentifier n then fail (.badName n) (n.length + 1)
        match (← get).names.lookup n with
        | some number => return some (← refer number (n.length + 1))
        | none => fail (.unknownName n) (n.length + 1)
      else
        let some t ← next | fail .patternEnds
        fail (.unknownExtension (String.ofList ('P' :: t))) (t.length + 2)
    | [':'] => return some (← enclosed fuel start flags)
    | ['#'] => skipComment start (← get).rest; return none
    | ['='] => let _ ← enclosed fuel start flags; return some (← beyondPatterns)
    | ['!'] => let _ ← enclosed fuel start flags; return some (← beyondPatterns)
    | ['>'] => let _ ← enclosed fuel start flags; return some (← beyondPatterns)
    | ['<'] =>
      let some t ← next | fail .patternEnds
      if t != ['='] && t != ['!'] then
        fail (.unknownExtension (String.ofList ('<' :: t))) (t.length + 2)
      let _ ← enclosed fuel start flags
      return some (← beyondPatterns)
    | ['('] =>
      conditionGroup
      let _ ← items fuel (some flags) false []
      if ← accept '|' then
        let _ ← items fuel (some flags) false []
        if (← peek) == some ['|'] then fail .manyBranches
      close start
      return some (← beyondPatterns)
    | _ =>
      match token with
      | [c] =>
        if flagLetters.contains c || c == '-' then
          match ← groupFlags c with
          | none => if !isFirst then failAt .lateFlags start
                    return none
          | some (on, off) =>
            return some (← enclosed fuel start ((on ++ flags).filter fun f => !off.contains f))
        else fail (.unknownExtension (String.ofList token)) (token.length + 1)
      | _ => fail (.unknownExtension (String.ofList token)) (token.length + 1)

def enclosed (fuel : Nat) (start : Nat) (flags : List Char) : Read Item :=
  match fuel with
  | 0 => throw .unsupported
  | fuel + 1 => do
    let p ← choice fuel (some flags) false
    close start
    return ⟨p, .plain⟩

def numbered (fuel : Nat) (start : Nat) (flags : List Char) (name : Option String) : Read Item :=
  match fuel with
  | 0 => throw .unsupported
  | fuel + 1 => do
    let number ← openGroup name
    let item ← enclosed fuel start flags
    modify fun s => { s with stillOpen := s.stillOpen.filter (· != number) }
    return item

end

def pattern : Read Pattern := do
  checkEscape
  let p ← choice (5 * (← get).rest.length + 5) none true
  if (← peek).isSome then fail .extraClose
  let s ← get
  if let some (number, position) := s.references.find? (s.groups < ·.1) then
    failAt (.noGroup number) position
  if s.beyond || s.flags.contains 'a' || s.flags.contains 't' then throw .unsupported
  return p

end PatternReader

def Pattern.read (text : String) : Except PatternError Pattern :=
  (PatternReader.pattern.run { text, rest := PatternReader.tokens text.toList }).map (·.1)

end FormatFuzz
