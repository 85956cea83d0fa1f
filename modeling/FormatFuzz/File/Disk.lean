import FormatFuzz.File.Tree
import FormatFuzz.Text.Utf8

/-!
# Writing files

A disk carries out one action on its files after the other. It can be interrupted: with a credit only
so many actions are carried out, and every further one fails. What was done before stays done.

A file is replaced as a whole: its new content is written to a temporary file beside it, which then
takes its place. If anything fails on the way, the temporary file is taken away again.
-/

namespace FormatFuzz

structure Disk where
  tree : FileTree
  /-- How many more actions are carried out, if not all. -/
  credit : Option Nat := none
deriving DecidableEq, Repr

/-- The bytes that a text is stored as. Half of a surrogate pair has none, and neither has a text with
such a half in it. -/
abbrev Stored := Option (List UInt8)

abbrev DiskM := ExceptT FileError (StateM Disk)

namespace Disk

def act (action : FileTree → Except FileError FileTree) : DiskM Unit := fun d =>
  if d.credit = some 0 then (.error .interrupted, d)
  else match action d.tree with
    | .error e => (.error e, d)
    | .ok tree => (.ok (), ⟨tree, d.credit.map (· - 1)⟩)

/-- Takes a file away, interrupted or not. -/
def clear (p : Place) : DiskM Unit := fun d => (.ok (), { d with tree := d.tree.erase p })

/-- The place of a temporary file beside a file, where there is nothing yet. -/
def temporary (t : FileTree) (p : Place) : Place :=
  let candidate (n : Nat) : Place :=
    p.dropLast ++ ["." ++ p.getLast?.getD "" ++ "." ++ toString n ++ ".tmp"]
  ((List.range (t.entries.length + 1)).map candidate).find? (fun c => !t.exists? c)
    |>.getD (candidate 0)

def fill (p : Place) (content : Stored) : DiskM Unit :=
  act fun t => match content with
    | none => .error .unencodable
    | some bytes => t.write p bytes

/-- The file at a temporary place filled and moved to its own place, or taken away. -/
def fillAndMove (temporary p : Place) (content : Stored) : DiskM Unit :=
  tryCatch (do
    fill temporary content
    act fun t => t.rename temporary p) fun e => do
      clear temporary
      throw e

/-- A file with a new content. Missing directories on the way to it are made. -/
def replace (p : Place) (content : Stored) : DiskM Unit := do
  act fun t => t.makeDirectories p.dropLast
  let spare := temporary (← get).tree p
  act fun t => t.write spare []
  fillAndMove spare p content

def atomicWrite (p : Place) (text : String) : DiskM Unit := replace p (some (Text.encodeUtf8 text))

end Disk

end FormatFuzz
