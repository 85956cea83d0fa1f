import FormatFuzz.Text.Search

namespace FormatFuzz

structure Path where
  root : String
  names : List String
deriving DecidableEq, Repr, Inhabited

namespace Path

def namesOf (cs : List Char) : List String :=
  ((Text.splitAt (· == '/') cs).map String.ofList).filter fun n => n != "" && n != "."

def ofString (s : String) : Path :=
  let cs := s.toList
  let root := match cs.takeWhile (· == '/') with
    | [] => ""
    | ['/', '/'] => "//"
    | _ => "/"
  ⟨root, namesOf cs⟩

/-- The written form; a relative path without names is a dot. -/
def toString (p : Path) : String :=
  if p.root.isEmpty && p.names.isEmpty then "." else p.root ++ "/".intercalate p.names

def isAbsolute (p : Path) : Bool := p.root != ""

def join (base p : Path) : Path :=
  if p.isAbsolute then p else { base with names := base.names ++ p.names }

def child (p : Path) (name : String) : Path := p.join (ofString name)

/-- Where the one user lives that every system has. -/
def superuserHome : String := "/root"

/-- A path with a tilde in front of its first name replaced by a home directory. Without a home there
is none. -/
def expandHome (p : Path) (home : String) : Option Path :=
  let inside (home : Path) (rest : List String) : Path := { home with names := home.names ++ rest }
  match p.root.isEmpty, p.names with
  | true, first :: rest =>
    if first == "~" then
      let trimmed := String.ofList (home.toList.reverse.dropWhile (· == '/')).reverse
      some (inside (ofString (if trimmed.isEmpty then "/" else trimmed)) rest)
    else if first == "~root" then some (inside (ofString superuserHome) rest)
    else if first.startsWith "~" then none
    else some p
  | _, _ => some p

def noHomeMessage : String := "Could not determine home directory."

end Path

end FormatFuzz
