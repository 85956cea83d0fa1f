namespace FormatFuzz

structure Registry (α : Type) where
  entries : List (String × α)

structure UnknownBackend where
  kind : String
  name : String
  available : List String
deriving DecidableEq, Repr

def UnknownBackend.message (e : UnknownBackend) : String :=
  "Unknown " ++ e.kind ++ " '" ++ e.name ++ "' (available: " ++ ", ".intercalate e.available ++ ")"

namespace Registry

variable {α : Type}

def insert (r : Registry α) (name : String) (a : α) : Registry α :=
  ⟨(name, a) :: r.entries.filter (·.1 != name)⟩

def names (r : Registry α) : List String := (r.entries.map (·.1)).mergeSort fun a b => a ≤ b

def find (r : Registry α) (kind name : String) : Except UnknownBackend α :=
  match r.entries.lookup name with
  | some a => .ok a
  | none => .error ⟨kind, name, r.names⟩

end Registry

end FormatFuzz
