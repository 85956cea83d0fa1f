import FormatFuzz.Command.Arguments
import FormatFuzz.Command.Outcome
import FormatFuzz.Random.Twister
import FormatFuzz.Registry
import FormatFuzz.Shell

namespace FormatFuzz

open FormatFuzz.Random

structure RunArguments where
  generator : Option String := none
  maxDepth : Option Int := none
  showParseErrors : Bool := false
  showSuccesses : Bool := false
  reproduce : Bool := false
  seed : Option Int := none
  maxTries : Option Int := none
  corpusDir : Option String := none
  oracle : Option String := none
  width : Option Int := none
  /-- Arguments that are no options of the command. -/
  others : List String := []
deriving DecidableEq, Repr

namespace RunArguments

def rules : List OptionRule := [
  ⟨["--generator", "--fuzzer", "-g"], true⟩, ⟨["--max-depth", "-d"], true⟩,
  ⟨["--show-initial-parse-errors"], false⟩, ⟨["--show-successes"], false⟩,
  ⟨["--reproduce"], false⟩, ⟨["--seed"], true⟩, ⟨["--max-tries"], true⟩,
  ⟨["--corpus-dir"], true⟩, ⟨["--oracle"], true⟩, ⟨["--width"], true⟩, ⟨["--no-color"], false⟩,
  ⟨["--verbose", "-v"], false⟩, ⟨["--help"], false⟩]

/-- The integer that an option has as its value, at least a given one. Nothing is the answer if it
has another value. -/
def integer? (a : Arguments) (key : String) (least : Option Int) : Option (Option Int) :=
  match a.value? key with
  | none => some none
  | some text =>
    match Text.integer? text with
    | .error _ => none
    | .ok n => if least.any (n < ·) then none else some (some n)

def given? (a : Arguments) (key : String) : Option String :=
  match a.value? key with
  | some "" => none
  | v => v

def ofArguments (a : Arguments) : Option RunArguments := do
  let maxDepth ← integer? a "--max-depth" none
  let seed ← integer? a "--seed" none
  let maxTries ← integer? a "--max-tries" (some 1)
  let width ← integer? a "--width" (some 1)
  return {
    generator := given? a "--generator"
    maxDepth, seed, maxTries, width
    showParseErrors := a.has "--show-initial-parse-errors"
    showSuccesses := a.has "--show-successes"
    reproduce := a.has "--reproduce"
    corpusDir := (a.value? "--corpus-dir").map fun s => (Path.ofString s).toString
    oracle := given? a "--oracle"
    others := a.others }

def ignoredMessages (a : RunArguments) : List String :=
  (a.others.filter (·.startsWith "-")).filterMap fun arg =>
    (Markup.print ("[yellow]Ignored unknown option: " ++ Markup.escape arg ++ "[/yellow]")).toOption

end RunArguments

/-- Why a text of the configuration is no test: it is mistaken as a pattern, or reading it raised a
fault. -/
inductive TestError
  | mistaken (message : String)
  | raised (fault : Fault)

def Pattern.test (text : String) : Except TestError (String → Bool) :=
  match Pattern.read text with
  | .ok p => .ok p.occursIn
  | .error .repetitionTooLarge =>
    .error (.raised (.make "OverflowError" [.str PatternError.repetitionTooLarge.message]))
  | .error (.tooManyDigits n) =>
    .error (.raised (.make "ValueError" [.str (PatternError.tooManyDigits n).message]))
  | .error e => .error (.mistaken e.message)

/-- The registered generators and formatters, each with the state that it starts in, and how the
patterns of a configuration are made into tests. -/
structure Backends (γ φ σ : Type) where
  generators : Registry (Generator γ σ × γ)
  formatters : Registry (Formatter φ × φ)
  test : String → Except TestError (String → Bool) := Pattern.test

structure Surroundings where
  cwd : Path
  home : String
  terminalWidth : Nat
  freshSeed : Int
  /-- How deep lists and mappings can be nested inside the options that are read. -/
  levels : Nat := 900

structure PreparedRun (γ φ σ : Type) where
  run : Loop γ φ σ
  start : LoopState γ φ σ
  store : CorpusStore
  maxTries : Option Int
  width : Nat

namespace PreparedRun

variable {γ φ : Type}

/-- What a saved entry is refused for if its options have no place in the space. Tags in the name of
the formatter count. -/
def misfitMessage (store : CorpusStore) (oracle : String) : String :=
  "Invalid options file " ++ Markup.escape store.optionsPath.toString ++
    ": options do not fit the " ++ oracle ++ " option space"

/-- The exit code that an error asks for: an interruption, the end of the input, and the error that
ends a program, with the last byte of its number if it has one and without failure if it has no
argument. -/
def exitCode? (f : Fault) : Option Nat :=
  if f.errorClass.isA "KeyboardInterrupt" then some interruptedCode
  else if f.errorClass.isA "EOFError" then some foundCode
  else if f.errorClass.isA "SystemExit" then
    match f.args with
    | [] => some 0
    | [.prim .null] => some 0
    | [.prim v] => some (v.integer?.elim foundCode fun n => (n % 256).toNat)
    | _ => some foundCode
  else none

def escaped (f : Fault) : CommandEnd :=
  match exitCode? f with
  | some code => .done code ""
  | none => .crash (.raised f)

def spaceMessage (message : String) : String := "Invalid option space: " ++ message

/-- The test that a text of the configuration stands for. Faults of values are told as if they came from
the option space, which is set up in the same place. -/
def configTest (test : String → Except TestError (String → Bool)) (text : String) :
    Except CommandEnd (String → Bool) :=
  (test text).mapError fun e =>
    match e with
    | .mistaken message => .refused ("Invalid pattern in config: " ++ message)
    | .raised fault =>
      if fault.errorClass.isA "ValueError" then
        match fault.message with
        | .ok message => .refused (spaceMessage message)
        | .error other => escaped other
      else escaped fault

def savedEntry (store : CorpusStore) (sampler : Sampler) (oracle : String) (t : FileTree) :
    Except CommandEnd Replay := do
  let entry ← (store.load t).mapError fun e =>
    match e with
    | .file _ | .encoding _ | .limit _ => .crash (.corpus e)
    | _ => .refused e.message
  match sampler.contains entry.options with
  | .ok true => return entry
  | .ok false => throw (CommandEnd.refusedAs (misfitMessage store oracle))
  | .error e => throw (.crash (.step (.sampling (.spec e))))

def prepare (backends : Backends γ φ Twister) (around : Surroundings) (t : FileTree)
    (a : RunArguments) : Except CommandEnd (PreparedRun γ φ Twister) := do
  let config ← (Config.load t around.cwd (Path.ofString around.home)).mapError
    fun e => .crash (.config e)
  let settings : RunSettings := {
    maxDepth := a.maxDepth.getD config.maxDepth
    generator := a.generator.getD config.generator
    showParseErrors := a.showParseErrors
    showSuccesses := a.showSuccesses }
  if settings.maxDepth ≤ 0 then throw (.refused "--max-depth must be positive")
  let unknown (e : UnknownBackend) : CommandEnd := .refused e.message
  let (formatter, formatterState) ←
    (backends.formatters.find "oracle" (a.oracle.getD config.oracle)).mapError unknown
  let (generator, generatorState) ←
    (backends.generators.find "generator" settings.generator).mapError unknown
  let some directory :=
      Config.corpusDirectory (a.corpusDir <|> config.corpusDir) around.cwd around.home
    | throw (.crash .noHome)
  let store : CorpusStore := ⟨directory, around.levels⟩
  let sampler ← (Sampler.ofSpace (formatter.space.override config.optionSpace)).mapError
    fun e => .refused (spaceMessage e.message)
  let rejected ← configTest backends.test config.syntaxErrorPattern
  let boring ← configTest backends.test config.boringPattern
  let replay ← if a.reproduce then some <$> savedEntry store sampler formatter.name t
    else pure none
  let seed := a.seed.getD around.freshSeed
  return {
    run := {
      generator, sampler, settings, replay
      checker := ⟨formatter, rejected⟩
      filter := ⟨boring⟩ }
    start := {
      generator := generatorState, formatter := formatterState, random := Twister.ofSeed seed }
    store
    maxTries := a.maxTries
    width := (a.width.map Int.toNat).getD around.terminalWidth }

def command (p : PreparedRun γ φ Twister) (options : Options) : Except Fault String :=
  (p.run.checker.formatter.command p.store.inputPath.toString options).map Shell.commandLine

def saving (p : PreparedRun γ φ Twister) (r : RunResult) : DiskM Unit :=
  if p.run.replay.isSome then p.store.saveOutputs r.first r.second
  else p.store.save (CorpusEntry.ofResult r)

def broken (e : StepError) : CommandEnd :=
  let fault := match e with
    | .interrupted f | .generator (.fault f) => some f
    | _ => none
  match fault.bind exitCode? with
  | some code => .done code ""
  | none => .crash (.step e)

/-- The end of a run with a result. The command line is made first: if there is none, nothing is said or
saved. -/
def finish (p : PreparedRun γ φ Twister) (r : RunResult) (d : Disk) : CommandEnd × Disk :=
  match p.command r.options with
  | .error fault => (escaped fault, d)
  | .ok command =>
    match p.saving r d with
    | (.error e, d) => (.crash (.file e), d)
    | (.ok (), d) =>
      (.done (if r.verdict = .success then 0 else foundCode)
        (Report.render r p.width p.run.replay.isSome (some command)), d)

def budget (p : PreparedRun γ φ Twister) (patience : Nat) : Nat :=
  match p.maxTries with
  | none => patience
  | some n => n.toNat

/-- Runs to the end, unless more tries than `patience` are needed and no bound was given. -/
def complete (p : PreparedRun γ φ Twister) (patience : Nat) (d : Disk) :
    Option (CommandEnd × Disk) :=
  match p.run.runFor (p.budget patience) p.start with
  | (.error e, _) => some (broken e, d)
  | (.ok (some r), _) => some (p.finish r d)
  | (.ok none, s) =>
    if p.maxTries.isSome then
      some (.saying usageCode ["[yellow]" ++ Markup.escape (exhaustedMessage s.tries) ++
        "[/yellow]"], d)
    else none

end PreparedRun

/-- The command with its arguments. Without a bound on the tries it may need more than `patience` of
them, and then there is no end. -/
def runCommand {γ φ : Type} (backends : Backends γ φ Twister) (around : Surroundings)
    (patience : Nat) (a : RunArguments) (d : Disk) : Option (CommandEnd × Disk) :=
  match PreparedRun.prepare backends around d.tree a with
  | .error e => some (e, d)
  | .ok p => p.complete patience d

end FormatFuzz
