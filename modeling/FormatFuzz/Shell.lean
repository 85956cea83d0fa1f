namespace FormatFuzz.Shell

def isHarmless (c : Char) : Bool :=
  c.isAlphanum || ['_', '@', '%', '+', '=', ':', ',', '.', '/', '-'].contains c

/-- A character between single quotes. A single quote ends them, stands between double quotes and
begins them again. -/
def quoteChar (c : Char) : List Char :=
  if c = '\'' then ['\'', '"', '\'', '"', '\''] else [c]

def quoteWord (word : List Char) : List Char :=
  if !word.isEmpty && word.all isHarmless then word
  else '\'' :: word.flatMap quoteChar ++ ['\'']

def commandLine (words : List String) : String :=
  " ".intercalate (words.map fun w => String.ofList (quoteWord w.toList))

end FormatFuzz.Shell
