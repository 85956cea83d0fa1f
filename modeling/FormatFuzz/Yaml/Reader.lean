import FormatFuzz.Yaml.Node
import FormatFuzz.Yaml.Plain
import FormatFuzz.Text.Base64

/-!
# Reading YAML

The data of a document. A tag says what kind of value a node must be; without one a plain text has
the value that it looks like, and a text in quotes stands for itself. The keys of a mapping have no
parts. The key `<<` adds the entries of another mapping, or of several, which its own
entries and earlier mappings override.
-/

namespace FormatFuzz.Yaml

def tagSpace : String := "tag:yaml.org,2002:"

/-- The text of a tag's kind, if it is one of the common kinds. -/
def kindOfTag? (tag : String) : Option String :=
  if tag.startsWith tagSpace then some ((tag.drop tagSpace.length).toString) else none

/-- A tag that leaves the kind open counts as none. -/
def openTag (tag : Option String) : Option String := if tag == some "!" then none else tag

def scalarValue (tag : Option String) (text : String) (plain : Bool) : Except YamlError Data :=
  match openTag tag with
  | none => if plain then Plain.value text else .ok (.str text)
  | some tag =>
    match kindOfTag? tag with
    | some "str" => .ok (.str text)
    | some "null" => .ok .null
    | some "int" => (Plain.integer text).map .int
    | some "float" => (Plain.float text).map .float
    | some "bool" =>
      let lower := String.ofList (text.toList.map Char.toLower)
      if Plain.trueNames.contains lower then .ok (.bool true)
      else if Plain.falseNames.contains lower then .ok (.bool false)
      else .error (.value "KeyError" (Text.quoted lower))
    | some "binary" =>
      match Text.base64Bytes? text.toList with
      | some bytes => .ok (.other "bytes" (Text.quotedBytes bytes))
      | none => .error .malformed
    | some "timestamp" =>
      match Timestamp.ofText? text.toList with
      | some (t, _) => Plain.timestamp t
      | none => .error (.value "AttributeError" "'NoneType' object has no attribute 'groupdict'")
    | _ => .error .malformed

/-- Whether a key adds the entries of its value. -/
def isMergeKey : Node → Bool
  | .scalar tag text plain =>
    (openTag tag == none && plain && text == "<<") || tag == some (tagSpace ++ "merge")
  | _ => false

/-- Whether a key is the reserved sign, which as a key is a text. -/
def isReservedKey : Node → Bool
  | .scalar tag text plain => openTag tag == none && plain && text == "="
  | _ => false

def mergedEntries (entries : List (Data × Data)) : List (Data × Data) :=
  entries.foldl (fun es (k, v) => Data.insert es k v) []

def isKey : Data → Bool
  | .list _ | .dict _ | .other "set" _ => false
  | _ => true

/-- Whether a sequence with a tag is made of pairs. -/
def holdsPairs (tag : Option String) : Bool :=
  match (openTag tag).map kindOfTag? with
  | some (some "omap") | some (some "pairs") => true
  | _ => false

def sequenceValue (tag : Option String) (items : List Data) : Except YamlError Data :=
  match (openTag tag).map kindOfTag? with
  | none | some (some "seq") => .ok (.list items)
  | _ => .error .malformed

def pair (first second : Data) : Data :=
  .other "tuple" ("(" ++ first.repr ++ ", " ++ second.repr ++ ")")

def setOf (keys : List Data) : Data :=
  match keys with
  | [] => .other "set" "set()"
  | keys => .other "set" ("\x7b" ++ ", ".intercalate (keys.map Data.repr) ++ "\x7d")

def mappingValue (tag : Option String) (entries : List (Data × Data)) : Except YamlError Data :=
  match (openTag tag).map kindOfTag? with
  | none | some (some "map") => .ok (.dict (mergedEntries entries))
  | some (some "set") => .ok (setOf ((mergedEntries entries).map Prod.fst))
  | _ => .error .malformed

mutual

def nodeValue : Node → Except YamlError Data
  | .scalar tag text plain => scalarValue tag text plain
  | .sequence tag items =>
    if holdsPairs tag then (pairValues items).map .list
    else do sequenceValue tag (← itemValues items)
  | .mapping tag entries => do
    let (added, own) ← entryValues entries
    mappingValue tag (added ++ own)

def itemValues : List Node → Except YamlError (List Data)
  | [] => .ok []
  | n :: ns => do
    let v ← nodeValue n
    return v :: (← itemValues ns)

/-- Pairs, each told by a mapping with one entry. -/
def pairValues : List Node → Except YamlError (List Data)
  | [] => .ok []
  | .mapping _ [(k, v)] :: rest => do
    let first ← nodeValue k
    let second ← nodeValue v
    return pair first second :: (← pairValues rest)
  | _ :: _ => .error .malformed

def entryValues : List (Node × Node) →
    Except YamlError (List (Data × Data) × List (Data × Data))
  | [] => .ok ([], [])
  | (k, v) :: rest => do
    if isMergeKey k then
      let here ← addedEntries v
      let (added, own) ← entryValues rest
      return (here ++ added, own)
    else
      let key ← if isReservedKey k then pure (.str "=") else nodeValue k
      if !isKey key then throw .malformed
      let value ← nodeValue v
      let (added, own) ← entryValues rest
      return (added, (key, value) :: own)

/-- The entries that a mapping or a sequence of mappings adds; those of earlier mappings come last. -/
def addedEntries : Node → Except YamlError (List (Data × Data))
  | .mapping _ entries => do
    let (added, own) ← entryValues entries
    return added ++ own
  | .sequence _ items => addedItems items
  | .scalar .. => .error .malformed

def addedItems : List Node → Except YamlError (List (Data × Data))
  | [] => .ok []
  | .mapping _ entries :: rest => do
    let (added, own) ← entryValues entries
    return (← addedItems rest) ++ added ++ own
  | _ :: _ => .error .malformed

end

def read (text : String) : Except YamlError Data :=
  match Node.ofText? text with
  | none => .error .malformed
  | some none => .ok .null
  | some (some n) => nodeValue n

end FormatFuzz.Yaml
