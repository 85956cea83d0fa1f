import FormatFuzz.Pattern.Reader
import FormatFuzz.Pattern.Search

namespace FormatFuzz

/-- Programs that hold nothing but blanks and semicolons, or that declare a name as global or
nonlocal. -/
def defaultBoringPattern : String := "^[\\s;]*$|\\b(?:global|nonlocal)\\b"

/-- Programs that are unlikely to show anything about a formatter, told by any test on their texts. -/
structure BoringFilter where
  isBoring : String → Bool

namespace BoringFilter

def ofText (pattern : String) : Except PatternError BoringFilter :=
  (Pattern.read pattern).map fun p => ⟨p.occursIn⟩

def discards (f : BoringFilter) (reproduce : Bool) (source : String) : Bool :=
  !reproduce && f.isBoring source

end BoringFilter

end FormatFuzz
