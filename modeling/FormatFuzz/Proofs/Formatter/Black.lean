import FormatFuzz.Formatter.Black
import FormatFuzz.Proofs.Command.Arguments
import FormatFuzz.Proofs.Text.Integer
import Mathlib.Tactic.FinCases

namespace FormatFuzz.Black

open Arguments

/-- The options of the command line. Two of them turn off what is on by default. -/
def rules : List OptionRule :=
  [⟨["--diff"], false⟩, ⟨["--line-length"], true⟩, ⟨["--skip-string-normalization"], false⟩,
    ⟨["--skip-magic-trailing-comma"], false⟩, ⟨["--preview"], false⟩, ⟨["--pyi"], false⟩]

theorem known_of_mem {r : OptionRule} {value : Option String} (hr : r ∈ rules)
    (hvalue : r.hasValue = value.isSome) : Known rules (r.key, value) := by
  have hfound : ∀ r ∈ rules, IsLong r.key ∧ find? rules r.key = some r := by
    intro r hr
    fin_cases hr <;> exact ⟨⟨by decide, by decide, by decide⟩, rfl⟩
  obtain ⟨hlong, hrule⟩ := hfound r hr
  exact ⟨hlong, r, hrule, rfl, hvalue⟩

def settings? (given : Arguments) : Option Mode := do
  let length ← match given.value? "--line-length" with
    | none => some defaultLineLength
    | some text => (Text.integer? text).toOption
  return {
    lineLength := length
    stringNormalization := !given.has "--skip-string-normalization"
    magicTrailingComma := !given.has "--skip-magic-trailing-comma"
    preview := given.has "--preview"
    isStub := given.has "--pyi" }

/-- The settings and the path of a command. Its last word is the path, whatever it looks like, and between
the name of the formatter and the path stand options only. -/
def readCommand? : List String → Option (Mode × String)
  | "black" :: words => do
    let path ← words.getLast?
    let given ← Arguments.read rules false false words.dropLast
    let m ← if given.others.isEmpty then settings? given else none
    return (m, path)
  | _ => none

namespace Mode

def switches (m : Mode) : List String :=
  (if m.stringNormalization then [] else ["--skip-string-normalization"]) ++
    (if m.magicTrailingComma then [] else ["--skip-magic-trailing-comma"]) ++
    (if m.preview then ["--preview"] else []) ++ (if m.isStub then ["--pyi"] else [])

def given (m : Mode) : List (String × Option String) :=
  ("--diff", none) :: ("--line-length", some (toString m.lineLength)) ::
    m.switches.map fun name => (name, none)

def command (path : String) (m : Mode) : List String :=
  "black" :: (m.given.map written ++ [path])

theorem mem_switches {m : Mode} {name : String} :
    name ∈ m.switches ↔
      (m.stringNormalization = false ∧ name = "--skip-string-normalization") ∨
        (m.magicTrailingComma = false ∧ name = "--skip-magic-trailing-comma") ∨
        (m.preview = true ∧ name = "--preview") ∨ (m.isStub = true ∧ name = "--pyi") := by
  simp [switches]

theorem known_given (m : Mode) : ∀ o ∈ m.given, Known rules o := by
  have hswitch : ∀ name ∈ m.switches, ⟨[name], false⟩ ∈ rules := by
    intro name hname
    obtain ⟨-, rfl⟩ | ⟨-, rfl⟩ | ⟨-, rfl⟩ | ⟨-, rfl⟩ := mem_switches.1 hname <;> simp [rules]
  rw [given, List.forall_mem_cons, List.forall_mem_cons, List.forall_mem_map]
  refine ⟨?_, ?_, fun name hname => known_of_mem (hswitch name hname) rfl⟩
  · exact known_of_mem (r := ⟨["--diff"], false⟩) (by simp [rules]) rfl
  · exact known_of_mem (r := ⟨["--line-length"], true⟩) (by simp [rules]) rfl

theorem map_written_given (m : Mode) : m.given.map written =
    "--diff" :: ("--line-length=" ++ toString m.lineLength) :: m.switches := by
  simp [given, written, Function.comp_def]

theorem map_kept_given (m : Mode) : m.given.map kept =
    [("--diff", "")] ++ ("--line-length", toString m.lineLength) ::
      m.switches.map fun name => (name, "") := by
  simp [given, kept]

theorem value?_given (m : Mode) :
    (⟨m.given.map kept, []⟩ : Arguments).value? "--line-length" = some (toString m.lineLength) := by
  refine value?_of_split m.map_kept_given ?_
  simp [mem_switches]

theorem has_given {m : Mode} {name : String} (hdiff : name ≠ "--diff")
    (hlength : name ≠ "--line-length") :
    (⟨m.given.map kept, []⟩ : Arguments).has name = decide (name ∈ m.switches) := by
  rw [Bool.eq_iff_iff, has_eq_true_iff, decide_eq_true_iff, map_kept_given]
  simp [hdiff, hlength]

theorem settings?_given {m : Mode} (h : (Primitive.int m.lineLength).hasText = true) :
    settings? ⟨m.given.map kept, []⟩ = some m := by
  have hlength := Text.integer?_toString h
  rw [Int.toString_eq_repr] at hlength
  simp [settings?, value?_given, has_given, mem_switches, hlength, Except.toOption]

/-- Whatever the settings and the path are, both are read from the command. -/
theorem readCommand?_command (path : String) {m : Mode}
    (h : (Primitive.int m.lineLength).hasText = true) :
    readCommand? (m.command path) = some (m, path) := by
  simp [readCommand?, command, read_map_written m.known_given, settings?_given h]

theorem command_inj {path : String} {m m' : Mode} (h : (Primitive.int m.lineLength).hasText = true)
    (h' : (Primitive.int m'.lineLength).hasText = true) :
    m.command path = m'.command path ↔ m = m' := by
  refine ⟨fun heq => ?_, congrArg _⟩
  have hread := readCommand?_command path h
  rw [heq, readCommand?_command path h'] at hread
  exact congrArg Prod.fst (Option.some.inj hread).symm

end Mode

/-- The length of lines is not given, or it is an integer. -/
def HasWholeLength (options : Options) : Prop :=
  ∀ v, options.get? "line_length" = some v → ∃ n, v = .int n

def modeWith (n : Int) (options : Options) : Mode where
  lineLength := n
  stringNormalization := flag options "string_normalization" true
  magicTrailingComma := flag options "magic_trailing_comma" true
  preview := flag options "preview" false
  isStub := isStub options

variable {options others : Options} {n : Int}

theorem HasWholeLength.exists_int (h : HasWholeLength options) :
    ∃ n, lineLength options = .int n := by
  unfold lineLength Options.getD
  cases hget : options.get? "line_length" with
  | none => exact ⟨_, rfl⟩
  | some v =>
    obtain ⟨n, rfl⟩ := h v hget
    exact ⟨n, rfl⟩

theorem mode_eq (h : lineLength options = .int n) : mode options = .ok (modeWith n options) := by
  rw [mode, h]
  rfl

/-- Both ways to say what an option means agree, as far as the length of lines has a text. -/
theorem command_eq (path : String) (h : lineLength options = .int n) : command path options =
    (Fault.printed [.int n] ("--line-length=" ++ toString n)).map
      fun _ => (modeWith n options).command path := by
  have htext : (Primitive.int n).text = toString n := rfl
  rw [Mode.command, Mode.map_written_given, command, h, htext, Mode.switches]
  unfold Fault.printed
  split
  · -- the fields of the settings are what the command tests of the options
    simp only [bind, Except.bind, Except.map, List.append_assoc, List.cons_append, List.nil_append]
    rfl
  · rfl

theorem command_eq_ok_iff {path : String} {words : List String} (h : lineLength options = .int n) :
    command path options = .ok words ↔
      (Primitive.int n).hasText = true ∧ words = (modeWith n options).command path := by
  have hall : [Data.int n].all Data.hasText = (Primitive.int n).hasText := by
    simp only [List.all_cons, List.all_nil, Bool.and_true, Data.hasText]
  rw [command_eq path h, Fault.printed, hall]
  cases (Primitive.int n).hasText with
  | true => simp [Except.map, eq_comm]
  | false => simp [Except.map]

/-- The command for options asks for the settings that they stand for. There is one exactly if the length
of lines has a text, and two rows of options with commands have the same exactly if they have the same
settings. -/
theorem command_tells_mode :
    (∀ path options, HasWholeLength options → ∃ m, mode options = .ok m ∧
      ((∃ words, command path options = .ok words) ↔ (Primitive.int m.lineLength).hasText = true) ∧
      ∀ words, command path options = .ok words → readCommand? words = some (m, path)) ∧
      ∀ path options others words words', HasWholeLength options → HasWholeLength others →
        command path options = .ok words → command path others = .ok words' →
          (words = words' ↔ mode options = mode others) := by
  constructor
  · intro path options h
    obtain ⟨n, hn⟩ := h.exists_int
    refine ⟨modeWith n options, mode_eq hn, ⟨?_, fun htext => ?_⟩, fun words hwords => ?_⟩
    · rintro ⟨words, hwords⟩
      exact ((command_eq_ok_iff hn).1 hwords).1
    · exact ⟨_, (command_eq_ok_iff hn).2 ⟨htext, rfl⟩⟩
    · obtain ⟨htext, rfl⟩ := (command_eq_ok_iff hn).1 hwords
      exact Mode.readCommand?_command path htext
  · intro path options others words words' h hothers hwords hwords'
    obtain ⟨n, hn⟩ := h.exists_int
    obtain ⟨k, hk⟩ := hothers.exists_int
    obtain ⟨htext, rfl⟩ := (command_eq_ok_iff hn).1 hwords
    obtain ⟨htext', rfl⟩ := (command_eq_ok_iff hk).1 hwords'
    have hsame : (modeWith n options).command path = (modeWith k others).command path ↔
        modeWith n options = modeWith k others := Mode.command_inj htext htext'
    rw [hsame, mode_eq hn, mode_eq hk, Except.ok.injEq]

/-- Options that count as true or false without being truth values. -/
def stubOptions : Options :=
  ⟨[("string_normalization", .str ""), ("magic_trailing_comma", .float ⟨0x8000000000000000⟩),
    ("preview", .str "no"), ("dialect", .str "pyi")]⟩

/-- Other options with the same settings, the default length of lines among them. -/
def wideOptions : Options :=
  ⟨[("dialect", .str "pyi"), ("line_length", .int 88), ("preview", .int (-1)),
    ("magic_trailing_comma", .null), ("string_normalization", .int 0)]⟩

/-- The two rows of options say the same in different ways. -/
theorem command_tells_mode_stubOptions :
    HasWholeLength stubOptions ∧ HasWholeLength wideOptions ∧ ∃ words,
      command "fuzz dir/random.py" stubOptions = .ok words ∧
      words = ["black", "--diff", "--line-length=88", "--skip-string-normalization",
        "--skip-magic-trailing-comma", "--preview", "--pyi", "fuzz dir/random.py"] ∧
      mode stubOptions = .ok ⟨88, false, false, true, true⟩ ∧
      readCommand? words = some (⟨88, false, false, true, true⟩, "fuzz dir/random.py") ∧
      command "fuzz dir/random.py" wideOptions = .ok words := by
  have hstub : HasWholeLength stubOptions := fun _ hget => nomatch hget
  have hwide : HasWholeLength wideOptions := fun _ hget => ⟨88, (Option.some.inj hget).symm⟩
  have hmode : mode stubOptions = .ok ⟨88, false, false, true, true⟩ := rfl
  have hsame : mode stubOptions = mode wideOptions := rfl
  have htext : (Primitive.int 88).hasText = true := by decide +kernel
  obtain ⟨hreads, hcommands⟩ := command_tells_mode
  obtain ⟨m, hm, hexists, hread⟩ := hreads "fuzz dir/random.py" stubOptions hstub
  obtain ⟨m', hm', hexists', -⟩ := hreads "fuzz dir/random.py" wideOptions hwide
  rw [hmode] at hm
  rw [← hsame, hmode] at hm'
  cases hm
  cases hm'
  obtain ⟨words, hwords⟩ := hexists.2 htext
  obtain ⟨words', hwords'⟩ := hexists'.2 htext
  obtain rfl := (hcommands _ _ _ _ _ hstub hwide hwords hwords').2 hsame
  refine ⟨hstub, hwide, words, hwords, ?_, hmode, hread _ hwords, hwords'⟩
  rw [((command_eq_ok_iff (n := 88) rfl).1 hwords).2]
  rfl

/-- Not for all options with an integer as the length of lines there is a command. -/
theorem not_forall_command_tells_mode :
    ¬ ∀ path options, HasWholeLength options → ∃ m words, mode options = .ok m ∧
      command path options = .ok words ∧ readCommand? words = some (m, path) := by
  intro h
  have hlength : ∀ n : Int, lineLength ⟨[("line_length", .int n)]⟩ = .int n := fun _ => rfl
  obtain ⟨m, words, -, hwords, -⟩ := h "random.py" ⟨[("line_length", .int (10 ^ Text.maxDigits))]⟩
    fun _ hget => ⟨_, (Option.some.inj hget).symm⟩
  have htext := ((command_eq_ok_iff (hlength _)).1 hwords).1
  have hlong : (Primitive.int (10 ^ Text.maxDigits)).hasText = false := by decide +kernel
  rw [hlong] at htext
  cases htext

end FormatFuzz.Black
