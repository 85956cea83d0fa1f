import FormatFuzz.Yaml.Layout

namespace FormatFuzz.Yaml

inductive Node
  | scalar (tag : Option String) (text : String) (plain : Bool)
  | sequence (tag : Option String) (items : List Node)
  | mapping (tag : Option String) (entries : List (Node × Node))
deriving Repr, Inhabited

/-- What is left to read, the groups of tags and the nodes that are marked. A mark without a node is
that of a node that is still being read. -/
structure ReadState where
  rest : List Token
  handles : List (String × String) := []
  anchors : List (String × Option Node) := []

abbrev Read := StateT ReadState Option

namespace Node

def peek : Read (Option Token) := return (← get).rest.head?

def skip : Read Unit := modify fun s => { s with rest := s.rest.drop 1 }

def accept (t : Token) : Read Bool := do
  if (← peek) == some t then skip; return true else return false

def expect (t : Token) : Read Unit := do
  if !(← accept t) then failure

def atAny (ts : List Token) : Read Bool := return (← peek).any ts.contains

def nothing : Node := .scalar none "" true

def standardHandles : List (String × String) := [("!", "!"), ("!!", "tag:yaml.org,2002:")]

/-- An anchor and a tag in front of a node, in either order. -/
def marks : Read (Option String × Option String) := do
  let anchor : Read (Option String) := do
    match ← peek with
    | some (.anchor name) => skip; return some name
    | _ => return none
  let tag : Read (Option String) := do
    match ← peek with
    | some (.tag none suffix) => skip; return some suffix
    | some (.tag (some handle) suffix) =>
      skip
      match ((← get).handles ++ standardHandles).lookup handle with
      | some space => return some (space ++ suffix)
      | none => failure
    | _ => return none
  match ← anchor with
  | some name => return (some name, ← tag)
  | none =>
    let t ← tag
    if t.isSome then return (← anchor, t) else return (none, none)

/-- Marks the node that is to be read. A name marks one node only. -/
def markNode (anchor : Option String) : Read Unit := do
  if let some name := anchor then
    if ((← get).anchors.lookup name).isSome then failure
    modify fun s => { s with anchors := (name, none) :: s.anchors }

def setNode (anchor : Option String) (n : Node) : Read Node := do
  if let some name := anchor then
    modify fun s => { s with anchors := (name, some n) :: s.anchors }
  return n

mutual

/-- A node. Outside brackets it may be told by indentation; `loose` allows the entries of a sequence
without indentation of their own, as the value of a key. -/
def node (block loose : Bool) : Nat → Read Node
  | 0 => failure
  | fuel + 1 => do
    if let some (.alias name) ← peek then
      skip
      match (← get).anchors.lookup name with
      | some (some n) => return n
      | some none => return nothing
      | none => failure
    let (anchor, tag) ← marks
    markNode anchor
    let n ← match ← peek with
      | some (.scalar text plain) =>
        skip
        pure (if tag == some "!" then .scalar none text true
          else .scalar tag text plain)
      | some .openSequence => skip; .sequence tag <$> bracketItems fuel true
      | some .openMapping => skip; .mapping tag <$> braceEntries fuel true
      | some .entry =>
        if loose then .sequence tag <$> looseItems fuel
        else if anchor.isSome || tag.isSome then pure (.scalar tag "" true) else failure
      | some .sequenceStart =>
        if block then skip; .sequence tag <$> blockItems fuel
        else if anchor.isSome || tag.isSome then pure (.scalar tag "" true) else failure
      | some .mappingStart =>
        if block then skip; .mapping tag <$> blockEntries fuel
        else if anchor.isSome || tag.isSome then pure (.scalar tag "" true) else failure
      | _ => if anchor.isSome || tag.isSome then pure (.scalar tag "" true) else failure
    setNode anchor n

def nodeUnless (stops : List Token) (block loose : Bool) : Nat → Read Node
  | 0 => failure
  | fuel + 1 => do if ← atAny stops then return nothing else node block loose fuel

def blockItems : Nat → Read (List Node)
  | 0 => failure
  | fuel + 1 => do
    if ← accept .entry then
      let n ← nodeUnless [.entry, .blockEnd] true false fuel
      return n :: (← blockItems fuel)
    expect .blockEnd
    return []

/-- The items of a sequence without indentation of its own. -/
def looseItems : Nat → Read (List Node)
  | 0 => failure
  | fuel + 1 => do
    if ← accept .entry then
      let n ← nodeUnless [.entry, .key, .value, .blockEnd] true false fuel
      return n :: (← looseItems fuel)
    return []

def blockEntries : Nat → Read (List (Node × Node))
  | 0 => failure
  | fuel + 1 => do
    let stops := [.key, .value, .blockEnd]
    if ← accept .key then
      let k ← nodeUnless stops true true fuel
      let v ← if ← accept .value then nodeUnless stops true true fuel else pure nothing
      return (k, v) :: (← blockEntries fuel)
    expect .blockEnd
    return []

/-- The items of a sequence in brackets. A pair alone is a mapping. -/
def bracketItems (fuel : Nat) (isFirst : Bool) : Read (List Node) :=
  match fuel with
  | 0 => failure
  | fuel + 1 => do
    if ← accept .closeSequence then return []
    if !isFirst then expect .comma
    if ← accept .key then
      let k ← nodeUnless [.value, .comma, .closeSequence] false false fuel
      let v ← if ← accept .value
        then nodeUnless [.comma, .closeSequence] false false fuel else pure nothing
      return .mapping none [(k, v)] :: (← bracketItems fuel false)
    if ← accept .closeSequence then return []
    let n ← node false false fuel
    return n :: (← bracketItems fuel false)

/-- The entries of a mapping in braces. A key alone has nothing as its value. -/
def braceEntries (fuel : Nat) (isFirst : Bool) : Read (List (Node × Node)) :=
  match fuel with
  | 0 => failure
  | fuel + 1 => do
    if ← accept .closeMapping then return []
    if !isFirst then expect .comma
    if ← accept .key then
      let k ← nodeUnless [.value, .comma, .closeMapping] false false fuel
      let v ← if ← accept .value
        then nodeUnless [.comma, .closeMapping] false false fuel else pure nothing
      return (k, v) :: (← braceEntries fuel false)
    if ← accept .closeMapping then return []
    let k ← node false false fuel
    return (k, nothing) :: (← braceEntries fuel false)

end

/-- Directives in front of a document. The version is told at most once, and so is every group. -/
def directives (versionTold : Bool) : Nat → Read Unit
  | 0 => failure
  | fuel + 1 => do
    match ← peek with
    | some (.directive version handle) =>
      skip
      if let some major := version then
        if versionTold || major ≠ 1 then failure
      if let some (h, space) := handle then
        if ((← get).handles.lookup h).isSome then failure
        modify fun s => { s with handles := (h, space) :: s.handles }
      directives (versionTold || version.isSome) fuel
    | _ => return ()

def skipEnds : Nat → Read Unit
  | 0 => failure
  | fuel + 1 => do if ← accept .documentEnd then skipEnds fuel

def document : Read (Option Node) := do
  let fuel := 4 * (← get).rest.length + 8
  let isStart (t : Token) : Bool := match t with
    | .directive .. | .documentStart => true
    | _ => false
  let isEnd (t : Option Token) : Bool := t.all fun t => isStart t || t == .documentEnd
  let first ← peek
  let n ← if first.any fun t => !isStart t then
      some <$> node true false fuel
    else do
      skipEnds fuel
      if (← peek).isNone then pure none
      else do
        directives false fuel
        expect .documentStart
        if isEnd (← peek) then pure (some nothing) else some <$> node true false fuel
  skipEnds fuel
  if (← peek).isSome then failure
  return n

def ofText? (text : String) : Option (Option Node) := do
  let tokens ← tokens? text
  let (n, _) ← document.run { rest := tokens }
  return n

end Node

end FormatFuzz.Yaml
