namespace FormatFuzz

structure Span where
  start : Nat
  stop : Nat
  style : String
deriving DecidableEq, Repr

structure StyledText where
  text : String
  style : String := ""
  spans : List Span := []
deriving DecidableEq, Repr

def isCursorControl (c : Char) : Bool :=
  c == '\x07' || c == '\x08' || c == '\x0b' || c == '\x0c' || c == '\r'

def withoutControls (s : String) : String :=
  String.ofList (s.toList.filter fun c => !isCursorControl c)

theorem withoutControls_append (s t : String) :
    withoutControls (s ++ t) = withoutControls s ++ withoutControls t := by
  simp [withoutControls]

theorem withoutControls_eq_self {s : String} (h : ∀ c ∈ s.toList, isCursorControl c = false) :
    withoutControls s = s := by
  rw [withoutControls, List.filter_eq_self.2 fun c hc => by simp [h c hc], String.ofList_toList]

namespace StyledText

def empty : StyledText := ⟨"", "", []⟩

def plain (s : String) (style : String := "") : StyledText := ⟨withoutControls s, style, []⟩

/-- A text with a piece after it. A piece without style, or without characters, has no span. -/
def append (t : StyledText) (piece : String) (style : String := "") : StyledText :=
  let added := withoutControls piece
  let span : Span := ⟨t.text.length, t.text.length + added.length, style⟩
  { t with
    text := t.text ++ added
    spans := if piece.isEmpty || style.isEmpty then t.spans else t.spans ++ [span] }

end StyledText

end FormatFuzz
