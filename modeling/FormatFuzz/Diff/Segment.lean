import FormatFuzz.Diff.Stretch

namespace FormatFuzz

inductive Change
  | equal
  | insert
  | delete
deriving DecidableEq, Repr

namespace Change

def name : Change → String
  | equal => "equal"
  | insert => "insert"
  | delete => "delete"

def ofName? : String → Option Change
  | "equal" => some equal
  | "insert" => some insert
  | "delete" => some delete
  | _ => none

end Change

structure Segment where
  change : Change
  text : String
deriving DecidableEq, Repr

namespace Segment

def ofChars (change : Change) (cs : List Char) : List Segment :=
  if cs.isEmpty then [] else [⟨change, String.ofList cs⟩]

def between (before after : List Char) : List Segment :=
  let s := Stretch.longest before after
  if h : 0 < s.size ∧ s.first + s.size ≤ before.length then
    have := h
    between (before.take s.first) (after.take s.second) ++
      ofChars .equal ((before.drop s.first).take s.size) ++
      between (before.drop (s.first + s.size)) (after.drop (s.second + s.size))
  else ofChars .delete before ++ ofChars .insert after
termination_by before.length
decreasing_by
  · simp only [List.length_take, s] at *; omega
  · simp only [List.length_drop, s] at *; omega

end Segment

def diffChars (before after : String) : List Segment :=
  Segment.between before.toList after.toList

end FormatFuzz
