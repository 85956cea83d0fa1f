namespace FormatFuzz.Text

def occursIn (needle : List Char) : List Char → Bool
  | [] => needle.isEmpty
  | c :: cs => needle.isPrefixOf (c :: cs) || occursIn needle cs

/-- Every occurrence replaced, from left to right, the first `skip` characters left out. -/
def replaceFrom (needle new : List Char) : (skip : Nat) → List Char → List Char
  | _, [] => []
  | skip + 1, _ :: cs => replaceFrom needle new skip cs
  | 0, c :: cs =>
    if needle.isPrefixOf (c :: cs) then new ++ replaceFrom needle new (needle.length - 1) cs
    else c :: replaceFrom needle new 0 cs

/-- Every occurrence replaced, from left to right; the empty text occurs around every character. -/
def replaceAll (needle new text : List Char) : List Char :=
  if needle.isEmpty then new ++ text.flatMap fun c => c :: new else replaceFrom needle new 0 text

def splitAt (sep : Char → Bool) : List Char → List (List Char)
  | [] => [[]]
  | c :: cs =>
    match splitAt sep cs with
    | [] => [[c]]
    | part :: parts => if sep c then [] :: part :: parts else (c :: part) :: parts

/-- There is always a part, of an empty text as well. -/
theorem splitAt_ne_nil (sep : Char → Bool) (cs : List Char) : splitAt sep cs ≠ [] := by
  cases cs with
  | nil => simp [splitAt]
  | cons c cs =>
    rw [splitAt]
    split
    · simp
    · split
      · simp
      · simp

end FormatFuzz.Text
