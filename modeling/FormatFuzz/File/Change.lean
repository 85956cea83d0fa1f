import FormatFuzz.File.Tree

namespace FormatFuzz

inductive FileChange
  | remove (place : Place)
  | makeDirectory (place : Place)
  | write (place : Place) (bytes : List UInt8)
deriving DecidableEq, Repr

namespace FileTree

def isFile (t : FileTree) (p : Place) : Bool :=
  match t.node? p with
  | some (.file _) => true
  | _ => false

def removals (before after : FileTree) : List FileChange :=
  before.entries.filterMap fun (p, _) =>
    if before.isFile p && !after.isFile p then some (.remove p) else none

def newDirectories (before after : FileTree) : List Place :=
  (after.entries.filterMap fun (p, n) =>
    if n = .directory ∧ before.node? p ≠ some .directory then some p else none).mergeSort
      fun p q => decide (p.length ≤ q.length)

def writings (before after : FileTree) : List FileChange :=
  after.entries.filterMap fun (p, n) =>
    match n with
    | .directory => none
    | .file bytes => if before.node? p = some n then none else some (.write p bytes)

/-- The changes from one tree to another, in an order in which they can be made. -/
def changes (before after : FileTree) : List FileChange :=
  before.removals after ++ (before.newDirectories after).map .makeDirectory ++
    before.writings after

end FileTree

end FormatFuzz
