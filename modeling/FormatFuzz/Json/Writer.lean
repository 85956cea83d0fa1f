import FormatFuzz.Value

namespace FormatFuzz.Json

def escapeChar (c : Char) : List Char :=
  if c = '"' then ['\\', '"']
  else if c = '\\' then ['\\', '\\']
  else if c = '\x08' then ['\\', 'b']
  else if c = '\x0c' then ['\\', 'f']
  else if c = '\n' then ['\\', 'n']
  else if c = '\r' then ['\\', 'r']
  else if c = '\t' then ['\\', 't']
  else if c.toNat < 32 then '\\' :: 'u' :: Text.hex 4 c.toNat
  else [c]

def quote (s : String) : String := String.ofList ('"' :: s.toList.flatMap escapeChar ++ ['"'])

def writePrimitive : Primitive → String
  | .null => "null"
  | .bool true => "true"
  | .bool false => "false"
  | .int n => toString n
  | .float x => Decimal.storedStyle.write x
  | .str s => quote s

mutual

/-- Data on one line. The keys of mappings are written as texts. -/
def write : Data → String
  | .prim (.float x) => if x.isFinite then Decimal.plainStyle.write x else "NaN"
  | .prim v => writePrimitive v
  | .list items => "[" ++ ", ".intercalate (writeItems items) ++ "]"
  | .dict entries => "\x7b" ++ ", ".intercalate (writeEntries entries) ++ "\x7d"
  | .other _ t => quote t

def writeItems : List Data → List String
  | [] => []
  | v :: vs => write v :: writeItems vs

def writeEntries : List (Data × Data) → List String
  | [] => []
  | (k, v) :: rest => (quote k.text ++ ": " ++ write v) :: writeEntries rest

end

end FormatFuzz.Json
