/-!
# Command line arguments

Options begin with two dashes and a name or with one dash and a letter. The value of an option is the
argument after it, what follows an equals sign behind its name, or what follows its letter. Several
letters can stand behind one dash. Two dashes alone end the options. An option that is not known is a
mistake or is left among the other arguments.
-/

namespace FormatFuzz

structure OptionRule where
  names : List String
  hasValue : Bool
deriving Repr

/-- The first name of an option is the one that it goes by. -/
def OptionRule.key (r : OptionRule) : String := r.names.headD ""

structure Arguments where
  options : List (String × String) := []
  others : List String := []
deriving Repr

namespace Arguments

def withOption (a : Arguments) (key value : String) : Arguments :=
  { a with options := a.options ++ [(key, value)] }

def withOther (a : Arguments) (arg : String) : Arguments := { a with others := a.others ++ [arg] }

def value? (a : Arguments) (key : String) : Option String :=
  (a.options.reverse.find? (·.1 == key)).map (·.2)

def has (a : Arguments) (key : String) : Bool := (a.value? key).isSome

def find? (rules : List OptionRule) (name : String) : Option OptionRule :=
  rules.find? fun r => r.names.contains name

/-- The letters behind one dash: the options that they are, and the letters that are none. The last
option takes what follows as its value, or the next argument. Nothing is the answer if the value is
missing; else the arguments that are left come with it. -/
def letters (rules : List OptionRule) (next : List String) (a : Arguments) (unknown : List Char) :
    List Char → Option (Arguments × List Char × List String)
  | [] => some (a, unknown, next)
  | c :: cs =>
    match find? rules (String.ofList ['-', c]) with
    | none => letters rules next a (unknown ++ [c]) cs
    | some r =>
      if !r.hasValue then letters rules next (a.withOption r.key "") unknown cs
      else if !cs.isEmpty then some (a.withOption r.key (String.ofList cs), unknown, next)
      else match next with
        | [] => none
        | v :: next => some (a.withOption r.key v, unknown, next)

def splitValue (arg : String) : String × Option String :=
  let cs := arg.toList
  let value := cs.dropWhile (· != '=')
  (String.ofList (cs.takeWhile (· != '=')),
    if value.isEmpty then none else some (String.ofList (value.drop 1)))

/-- Reads arguments. `keepUnknown` leaves unknown options among the others; otherwise they are a
mistake. `untilFirst` stops in front of the first argument that is no option. -/
def readFrom (rules : List OptionRule) (keepUnknown untilFirst : Bool) :
    (fuel : Nat) → Arguments → List String → Option Arguments
  | 0, _, _ => none
  | _, a, [] => some a
  | fuel + 1, a, arg :: next =>
    let go := readFrom rules keepUnknown untilFirst fuel
    if arg == "--" then some { a with others := a.others ++ next }
    else if !(arg.startsWith "-" && 1 < arg.length) then
      if untilFirst then some { a with others := a.others ++ arg :: next }
      else go (a.withOther arg) next
    else
      let (name, value) := splitValue arg
      match if name.startsWith "--" then find? rules name else none with
      | some r =>
        match r.hasValue, value, next with
        | true, some v, next => go (a.withOption r.key v) next
        | true, none, v :: next => go (a.withOption r.key v) next
        | true, none, [] => none
        | false, some _, _ => none
        | false, none, next => go (a.withOption r.key "") next
      | none =>
        if arg.startsWith "--" then
          if keepUnknown then go (a.withOther arg) next else none
        else match letters rules next a [] (arg.toList.drop 1) with
          | none => none
          | some (a, [], next) => go a next
          | some (a, unknown, next) =>
            if keepUnknown then go (a.withOther (String.ofList ('-' :: unknown))) next
            else none

def read (rules : List OptionRule) (keepUnknown untilFirst : Bool) (args : List String) :
    Option Arguments :=
  readFrom rules keepUnknown untilFirst (args.length + 1) {} args

end Arguments

end FormatFuzz
