import FormatFuzz.File.Path

namespace FormatFuzz

abbrev Place := List String

/-- The place of an absolute path; two dots lead back to the directory before. -/
def Path.place (p : Path) : Place :=
  p.names.foldl (fun names n => if n == ".." then names.dropLast else names ++ [n]) []

inductive FileNode
  | directory
  | file (bytes : List UInt8)
deriving DecidableEq, Repr

/-- Why a file system refuses an action, that a text has no bytes to be stored as, or that the action
was interrupted. -/
inductive FileError
  | notFound
  | notDirectory
  | isDirectory
  | alreadyThere
  | unencodable
  | interrupted
deriving DecidableEq, Repr

def FileError.errorClass : FileError → String
  | notFound => "FileNotFoundError"
  | notDirectory => "NotADirectoryError"
  | isDirectory => "IsADirectoryError"
  | alreadyThere => "FileExistsError"
  | unencodable => "UnicodeEncodeError"
  | interrupted => "KeyboardInterrupt"

structure FileTree where
  entries : List (Place × FileNode)
deriving DecidableEq, Repr

namespace FileTree

def node? (t : FileTree) (p : Place) : Option FileNode :=
  if p.isEmpty then some .directory else t.entries.lookup p

def put (t : FileTree) (p : Place) (n : FileNode) : FileTree :=
  ⟨(p, n) :: t.entries.filter fun e => e.1 != p⟩

def erase (t : FileTree) (p : Place) : FileTree := ⟨t.entries.filter fun e => e.1 != p⟩

def eraseAll (t : FileTree) (p : Place) : FileTree :=
  ⟨t.entries.filter fun e => !p.isPrefixOf e.1⟩

def exists? (t : FileTree) (p : Place) : Bool := (t.node? p).isSome

/-- Walks along the names of a way after those `done`, all but the last of which must be directories. -/
def walk (t : FileTree) (done : Place) : Place → Except FileError Unit
  | [] | [_] => .ok ()
  | n :: rest =>
    match t.node? (done ++ [n]) with
    | none => .error .notFound
    | some (.file _) => .error .notDirectory
    | some .directory => walk t (done ++ [n]) rest

def read (t : FileTree) (p : Place) : Except FileError (List UInt8) := do
  t.walk [] p
  match t.node? p with
  | none => .error .notFound
  | some .directory => .error .isDirectory
  | some (.file bytes) => .ok bytes

def write (t : FileTree) (p : Place) (bytes : List UInt8) : Except FileError FileTree := do
  t.walk [] p
  match t.node? p with
  | some .directory => .error .isDirectory
  | _ => .ok (t.put p (.file bytes))

def makeFrom (t : FileTree) (done : Place) : Place → Except FileError FileTree
  | [] => .ok t
  | n :: rest =>
    let here := done ++ [n]
    match t.node? here with
    | none => makeFrom (t.put here .directory) here rest
    | some .directory => makeFrom t here rest
    | some (.file _) => .error (if rest.isEmpty then .alreadyThere else .notDirectory)

def makeDirectories (t : FileTree) (p : Place) : Except FileError FileTree := t.makeFrom [] p

/-- A tree in which a file has moved to another place, over the file there. -/
def rename (t : FileTree) (source target : Place) : Except FileError FileTree := do
  let bytes ← t.read source
  (t.erase source).write target bytes

end FileTree

end FormatFuzz
