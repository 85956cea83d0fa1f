import FormatFuzz.Proofs.Command.Prepare
import FormatFuzz.Proofs.Corpus.Keep
import FormatFuzz.Proofs.Fuzz.Replay
import FormatFuzz.Proofs.Space

/-!
# A saved entry can be replayed

A run that reports a result saves it. The same command with the same configuration that is asked for
a replay finds the program and the options again, has nothing against the options, and reports the
same outcomes in its first try.
-/

namespace FormatFuzz

open FormatFuzz.Random

namespace PreparedRun

variable {γ φ : Type} {backends : Backends γ φ Twister} {around around' : Surroundings}
  {t t' : FileTree} {a : RunArguments} {p : PreparedRun γ φ Twister} {config : Config}

def replaying (p : PreparedRun γ φ Twister) (entry : Replay) (random : Twister) (width levels : Nat) :
    PreparedRun γ φ Twister :=
  { p with
    run := { p.run with replay := some entry }
    start := { p.start with random := random }
    store := ⟨p.store.directory, levels⟩
    width := width }

/-- The same command that is asked for a replay is prepared in the same way if the configuration is
the same and there is an entry that fits. -/
theorem MadeFrom.replaying {entry : Replay} {random : Twister} {width : Nat}
    (h : p.MadeFrom backends around t a config)
    (hcwd : around'.cwd = around.cwd) (hhome : around'.home = around.home)
    (hconfig : Config.load t' around.cwd (.ofString around.home) =
      Config.load t around.cwd (.ofString around.home))
    (hentry : savedEntry ⟨p.store.directory, around'.levels⟩ p.run.sampler
      p.run.checker.formatter.name t' = .ok entry)
    (hrandom : random = Twister.ofSeed (a.seed.getD around'.freshSeed))
    (hwidth : width = (a.width.map Int.toNat).getD around'.terminalWidth) :
    (p.replaying entry random width around'.levels).MadeFrom backends around' t'
      { a with reproduce := true } config := by
  refine ⟨?_, h.settings, h.depth, h.formatter, h.generator, ?_, rfl, h.sampler, h.rejected, h.boring,
    ?_, hrandom, h.tries, h.log, h.maxTries, hwidth⟩
  · rw [hcwd, hhome, hconfig]
    exact h.loaded
  · rw [hcwd, hhome]
    exact h.directory
  · rw [if_pos rfl]
    exact ⟨entry, hentry, rfl⟩

theorem MadeFrom.prepare_replay_error {ending : CommandEnd}
    (h : p.MadeFrom backends around t a config)
    (hcwd : around'.cwd = around.cwd) (hhome : around'.home = around.home)
    (hconfig : Config.load t' around.cwd (.ofString around.home) =
      Config.load t around.cwd (.ofString around.home))
    (hentry : savedEntry ⟨p.store.directory, around'.levels⟩ p.run.sampler
      p.run.checker.formatter.name t' = .error ending) :
    prepare backends around' t' { a with reproduce := true } = .error ending := by
  have hloaded := h.loaded
  have hdepth := h.depth
  have hgenerator := h.generator
  rw [← hconfig] at hloaded
  rw [h.settings] at hdepth hgenerator
  unfold prepare
  simp only [hcwd, hhome, hloaded, if_neg hdepth, h.formatter, hgenerator, h.directory, h.sampler,
    h.rejected, h.boring, Except.mapError, bind, Except.bind, hentry]
  rfl

theorem savedEntry_eq_ok {store : CorpusStore} {sampler : Sampler} {entry : Replay}
    (hload : store.load t = .ok entry) (hcontains : sampler.contains entry.options = .ok true)
    (oracle : String) : savedEntry store sampler oracle t = .ok entry := by
  unfold savedEntry
  rw [hload]
  simp only [Except.mapError, bind, Except.bind, hcontains]
  rfl

/-- A limit at which an entry is not read is not dealt with. -/
theorem savedEntry_of_limit {store : CorpusStore} {limit : Json.Limit}
    (hload : store.load t = .error (.limit limit)) (sampler : Sampler) (oracle : String) :
    savedEntry store sampler oracle t = .error (.crash (.corpus (.limit limit))) := by
  unfold savedEntry
  rw [hload]
  rfl

end PreparedRun

open PreparedRun

/-- A command that reports a result and saves it: what was prepared, the result, the state of the loop
at the end, the exit code and the disk afterwards. -/
structure Reports {γ φ : Type} (backends : Backends γ φ Twister) (around : Surroundings)
    (patience : Nat) (a : RunArguments) (d : Disk) (p : PreparedRun γ φ Twister) (r : RunResult)
    (s : LoopState γ φ Twister) (code : Nat) (d' : Disk) : Prop where
  prepared : prepare backends around d.tree a = .ok p
  found : p.run.runFor (p.budget patience) p.start = (.ok (some r), s)
  finished : ∃ line, p.command r.options = .ok line ∧
    p.finish r d = (.done code (Report.render r p.width p.run.replay.isSome (some line)), d')

variable {γ φ : Type} {backends : Backends γ φ Twister} {around around' : Surroundings}
  {patience : Nat} {a : RunArguments} {d d' : Disk} {p : PreparedRun γ φ Twister} {r : RunResult}
  {s : LoopState γ φ Twister} {code : Nat}

theorem Reports.runCommand_eq (h : Reports backends around patience a d p r s code d') :
    ∃ text, runCommand backends around patience a d = some (.done code text, d') := by
  obtain ⟨line, -, hfinish⟩ := h.finished
  refine ⟨Report.render r p.width p.run.replay.isSome (some line), ?_⟩
  unfold runCommand complete
  simp only [h.prepared, h.found, hfinish]

/-- What is reported is saved, and the exit code tells whether it is a success. -/
theorem Reports.saving_eq (h : Reports backends around patience a d p r s code d') :
    p.saving r d = (.ok (), d') ∧ code = if r.verdict = .success then 0 else foundCode := by
  obtain ⟨line, hline, hfinish⟩ := h.finished
  unfold finish at hfinish
  rw [hline] at hfinish
  cases hsaving : p.saving r d with
  | mk answer d₁ =>
    rw [hsaving] at hfinish
    cases answer with
    | error e => cases hfinish
    | ok u =>
      obtain ⟨hend, hdisk⟩ := Prod.mk.inj hfinish
      exact ⟨by rw [hdisk], (CommandEnd.done.inj hend).1.symm⟩

theorem finish_of_saving {line : String} (hline : p.command r.options = .ok line)
    (h : p.saving r d = (.ok (), d')) :
    p.finish r d = (.done (if r.verdict = .success then 0 else foundCode)
      (Report.render r p.width p.run.replay.isSome (some line)), d') := by
  unfold finish
  rw [hline, h]

/-- The options of a report without an entry to replay were drawn from the space. -/
theorem fits_of_reported {l : Loop γ φ Twister} (hreported : l.Reported r) (hreplay : l.replay = none)
    (hnames : (l.sampler.space.map Prod.fst).Nodup)
    (hcheck : ∀ e ∈ l.sampler.space, e.2.check e.1 = .ok ())
    (hspace : ∀ e ∈ l.sampler.space, e.2.Storable) : Sampler.Fits r.options l.sampler.space := by
  obtain ⟨t, ht⟩ := hreported.options
  unfold Loop.nextOptions at ht
  rw [hreplay] at ht
  exact Sampler.sample_yields hnames hcheck hspace t.random r.options (mapError_eq_ok.1 ht)

/-- Without an entry to replay the five files of the entry are on the disk. -/
theorem Reports.keeps (h : Reports backends around patience a d p r s code d')
    (hnone : p.run.replay = none) : p.store.Keeps d'.tree.node? (CorpusEntry.ofResult r) := by
  have hsaving := h.saving_eq.1
  unfold saving at hsaving
  rw [hnone] at hsaving
  exact CorpusStore.keeps_of_save hsaving

/-- The replay of an entry that was reported reports the same, and saves its outputs in place of
themselves. -/
theorem Reports.again {config : Config} (h : Reports backends around patience a d p r s code d')
    (hmade : p.MadeFrom backends around d.tree a config) (hnone : p.run.replay = none)
    (hformatter : p.run.checker.formatter.Stateless)
    (hcwd : around'.cwd = around.cwd) (hhome : around'.home = around.home)
    (hconfig : Config.load d'.tree around.cwd (.ofString around.home) =
      Config.load d.tree around.cwd (.ofString around.home))
    (hentry : savedEntry ⟨p.store.directory, around'.levels⟩ p.run.sampler
      p.run.checker.formatter.name d'.tree = .ok ⟨r.program.source, r.options⟩) :
    ∃ p' r' s' d'',
      Reports backends around' patience { a with reproduce := true } ⟨d'.tree, none⟩ p' r' s' code
          d'' ∧
        p'.run.replay = some ⟨r.program.source, r.options⟩ ∧
        r'.program.source = r.program.source ∧ r'.options = r.options ∧
        s'.tries = 1 ∧ r'.tries = 1 ∧ r'.first = r.first ∧ r'.second = r.second ∧
        r'.verdict = r.verdict ∧ r'.diff = r.diff ∧
        d''.tree.node? = d'.tree.node? ∧
        p.store.Keeps d''.tree.node? (CorpusEntry.ofResult r) := by
  obtain ⟨hreported, hpositive⟩ := Loop.runFor_report h.found
  obtain ⟨line, hline, -⟩ := h.finished
  obtain ⟨-, rfl⟩ := h.saving_eq
  have hkeeps := h.keeps hnone
  obtain ⟨random, hrandom⟩ : ∃ random, random = Twister.ofSeed (a.seed.getD around'.freshSeed) :=
    ⟨_, rfl⟩
  have hprepared := (hmade.replaying hcwd hhome hconfig hentry hrandom rfl).prepare_eq
  generalize hp' : p.replaying _ random _ _ = p' at hprepared
  have hrun : p'.run = { p.run with replay := some ⟨r.program.source, r.options⟩ } := by
    rw [← hp']
    rfl
  -- its check comes to the same passes in every state of the formatter
  have hpasses : ∀ t, (p'.run.checker.check false r.program.source r.options t).1 =
      .ok (some ⟨r.first, r.second⟩) := by
    obtain ⟨t, ht⟩ := hreported.passes
    rw [hrun]
    exact Checker.check_keeping hformatter ht
  have hreplay : p'.run.replay = some ⟨r.program.source, r.options⟩ := by rw [hrun]
  obtain ⟨n, hn⟩ := Nat.exists_eq_add_one_of_ne_zero hpositive.ne'
  obtain ⟨s', hfound, hs'⟩ := Loop.runFor_replay hreplay hpasses hreported.verdict p'.start n
  have htries : p'.start.tries = 0 := by
    rw [← hp']
    exact hmade.tries
  rw [htries] at hfound hs'
  have hbudget : p'.budget patience = n + 1 := by
    rw [← hn, ← hp']
    rfl
  -- the outputs are saved in place of themselves
  obtain ⟨t, hwrite, hsame⟩ := hkeeps.writeOutputs (d := ⟨d'.tree, none⟩) rfl
  have houtputs : p.store.saveOutputs r.first r.second ⟨d'.tree, none⟩ = (.ok (), ⟨t, none⟩) := by
    rw [CorpusStore.saveOutputs_eq]
    exact hwrite
  have hsaved : p'.saving (p'.run.replayResult (0 + 1) ⟨r.program.source, r.options⟩
      ⟨r.first, r.second⟩ r.verdict) ⟨d'.tree, none⟩ = (.ok (), ⟨t, none⟩) := by
    unfold saving
    rw [hreplay, ← hp']
    exact houtputs
  have hline' : p'.command r.options = .ok line := by
    rw [← hp']
    exact hline
  refine ⟨p', p'.run.replayResult (0 + 1) ⟨r.program.source, r.options⟩ ⟨r.first, r.second⟩ r.verdict,
    s', ⟨t, none⟩, ⟨hprepared, ?_, line, hline', finish_of_saving hline' hsaved⟩, hreplay, rfl, rfl, hs',
    rfl, rfl, rfl, rfl, hreported.diff.symm, hsame, ?_⟩
  · rw [hbudget]
    exact hfound
  · rw [hsame]
    exact hkeeps

/-- An entry whose options hold an integer of too many digits cannot be read. -/
theorem Reports.crashes {config : Config} (around' : Surroundings)
    (h : Reports backends around patience a d p r s code d')
    (hmade : p.MadeFrom backends around d.tree a config) (hnone : p.run.replay = none)
    (hstorable : ∀ m ∈ r.options.entries, m.2.Storable)
    (hlong : ∃ m ∈ r.options.entries, m.2.hasText = false)
    (hcwd : around'.cwd = around.cwd) (hhome : around'.home = around.home)
    (hconfig : Config.load d'.tree around.cwd (.ofString around.home) =
      Config.load d.tree around.cwd (.ofString around.home)) :
    ∃ n, Text.maxDigits < n ∧ ∀ patience', runCommand backends around' patience'
      { a with reproduce := true } ⟨d'.tree, none⟩ =
        some (.crash (.corpus (.limit (.digits n))), ⟨d'.tree, none⟩) := by
  have hkeeps : CorpusStore.Keeps ⟨p.store.directory, around'.levels⟩ d'.tree.node?
      (CorpusEntry.ofResult r) := h.keeps hnone
  obtain ⟨n, hn, hload⟩ := hkeeps.load_of_not_hasText hstorable hlong
  refine ⟨n, hn, fun patience' => ?_⟩
  have hentry := savedEntry_of_limit hload p.run.sampler p.run.checker.formatter.name
  unfold runCommand
  rw [hmade.prepare_replay_error hcwd hhome hconfig hentry]

/-- If its options have texts, a replay of what a run has reported finds the entry and has nothing against
it, makes one try, reports the same outcomes, verdict and difference with the same exit code, and leaves
the entry and everything else on the disk as it is. If an integer of its options has too many digits, the
entry cannot be read, and the replay crashes and changes nothing. -/
theorem replay_reports (ha : a.reproduce = false)
    (h : Reports backends around patience a d p r s code d')
    (hformatter : p.run.checker.formatter.Stateless)
    (hnames : (p.run.checker.formatter.space.map Prod.fst).Nodup)
    (hspace : ∀ e ∈ p.run.sampler.space, e.2.Storable)
    (hcwd : around'.cwd = around.cwd) (hhome : around'.home = around.home)
    (hconfig : Config.load d'.tree around.cwd (.ofString around.home) =
      Config.load d.tree around.cwd (.ofString around.home)) :
    ((∀ m ∈ r.options.entries, m.2.hasText = true) → ∃ p' r' s' d'',
      Reports backends around' patience { a with reproduce := true } ⟨d'.tree, none⟩ p' r' s' code
          d'' ∧
        p'.run.replay = some ⟨r.program.source, r.options⟩ ∧
        r'.program.source = r.program.source ∧ r'.options = r.options ∧
        s'.tries = 1 ∧ r'.tries = 1 ∧ r'.first = r.first ∧ r'.second = r.second ∧
        r'.verdict = r.verdict ∧ r'.diff = r.diff ∧
        d''.tree.node? = d'.tree.node? ∧
        p.store.Keeps d''.tree.node? (CorpusEntry.ofResult r)) ∧
      ((∃ m ∈ r.options.entries, m.2.hasText = false) → ∃ n, Text.maxDigits < n ∧
        ∀ patience', runCommand backends around' patience' { a with reproduce := true }
          ⟨d'.tree, none⟩ = some (.crash (.corpus (.limit (.digits n))), ⟨d'.tree, none⟩)) := by
  obtain ⟨config, hmade⟩ := prepare_eq_ok_iff.1 h.prepared
  obtain ⟨hoverride, hcheck⟩ := Sampler.ofSpace_eq_ok hmade.sampler
  have hdistinct : (p.run.sampler.space.map Prod.fst).Nodup := by
    rw [hoverride]
    exact Space.nodup_override config.optionSpace hnames
  have hnone := hmade.replay_eq_none ha
  have hfits := fits_of_reported (Loop.runFor_report h.found).1 hnone hdistinct hcheck hspace
  constructor
  · intro htext
    -- the levels of the replay have no part in where the files are
    have hkeeps : CorpusStore.Keeps ⟨p.store.directory, around'.levels⟩ d'.tree.node?
        (CorpusEntry.ofResult r) := h.keeps hnone
    have hload := hkeeps.load
      (CorpusStore.readOptions_toJson hfits.names hfits.noValues hfits.storable htext _)
    exact h.again hmade hnone hformatter hcwd hhome hconfig
      (savedEntry_eq_ok hload (Sampler.contains_of_fits hfits) p.run.checker.formatter.name)
  · exact fun hlong => h.crashes around' hmade hnone hfits.storable hlong hcwd hhome hconfig

def widthSpace (n : Int) : Space := [("width", ⟨[(.str "values", .list [.int n])]⟩)]

/-- The formatter that puts a mark behind programs. -/
def markingFormatter (n : Int) : Formatter Unit where
  name := "marking"
  rejections := []
  space := widthSpace n
  format source _ s := (.ok (source ++ "#"), s)
  command _ _ := .ok []

def markingBackends (n : Int) : Backends Nat Unit Twister where
  generators := ⟨[("ast", (Generator.cycling ["x\n"], 0))]⟩
  formatters := ⟨[("black", (markingFormatter n, ()))]⟩

def rootSurroundings : Surroundings where
  cwd := .ofString "/"
  home := "/"
  terminalWidth := 80
  freshSeed := 0

def oneTry : RunArguments := { maxTries := some 1 }

theorem markingFormatter_stateless (n : Int) : (markingFormatter n).Stateless := fun _ _ _ _ => rfl

theorem widthSpace_storable (n : Int) : ∀ e ∈ widthSpace n, e.2.Storable := by
  intro e he items hitems v hv
  obtain rfl := List.mem_singleton.1 he
  cases hitems
  exact ⟨.int n, List.mem_singleton.1 hv, trivial⟩

theorem ofSpace_widthSpace (n : Int) : Sampler.ofSpace ((widthSpace n).override []) = .ok ⟨widthSpace n⟩ :=
  rfl

theorem sample_widthSpace (n : Int) (t : Twister) :
    ((⟨widthSpace n⟩ : Sampler).sample t).1 = .ok ⟨[("width", .int n)]⟩ := by
  obtain ⟨entries, halong, hsample⟩ :=
    Sampler.sample_yields_along (Sampler.ofSpace_eq_ok (ofSpace_widthSpace n)).2 (widthSpace_storable n) t
  obtain ⟨m, rest, hm, hrest, rfl⟩ := List.forall₂_cons_left_iff.1 halong
  cases hrest
  obtain ⟨name, v⟩ := m
  obtain ⟨rfl, -, hcontains⟩ := hm
  have hany : [Data.int n].any (Spec.same (.prim v)) = true := Except.ok.inj hcontains
  rw [List.any_cons, List.any_nil, Bool.or_false] at hany
  cases Spec.same_int_iff.1 hany
  rw [hsample]
  rfl

theorem exists_tests : ∃ rejected boring,
    configTest Pattern.test defaultSyntaxErrorPattern = .ok rejected ∧
      configTest Pattern.test defaultBoringPattern = .ok boring ∧ boring "x\n" = false := by
  have hcheck : (match configTest Pattern.test defaultSyntaxErrorPattern,
      configTest Pattern.test defaultBoringPattern with
      | .ok _, .ok boring => !boring "x\n"
      | _, _ => false) = true := by decide +kernel
  split at hcheck
  · next rejected boring hrejected hboring =>
    exact ⟨rejected, boring, hrejected, hboring, by simpa using hcheck⟩
  · cases hcheck

def rootStateStore : CorpusStore where
  directory := Config.stateDirectory rootSurroundings.cwd
  levels := rootSurroundings.levels

def markedEntry (n : Int) : CorpusEntry := ⟨"x\n", "x\n#", "x\n##", ⟨[("width", .int n)]⟩⟩

theorem Config.place_file (base : Path) :
    ((Config.stateDirectory base).child Config.fileName).place =
      (Config.stateDirectory base).place ++ ["config.yaml"] :=
  CorpusStore.place_child (by decide) (by decide)

theorem config_of_node? {t : FileTree}
    (h : t.node? (rootStateStore.directory.place ++ ["config.yaml"]) = none) :
    Config.load t rootSurroundings.cwd (.ofString rootSurroundings.home) = .ok {} := by
  have hplace : ((Config.stateDirectory rootSurroundings.cwd).child Config.fileName).place =
      rootStateStore.directory.place ++ ["config.yaml"] := Config.place_file _
  have hnone : Config.place? t rootSurroundings.cwd (.ofString rootSurroundings.home) = none := by
    have hhome : Path.ofString rootSurroundings.home = rootSurroundings.cwd := rfl
    simp [Config.place?, hhome, hplace, FileTree.exists?_eq, h]
  unfold Config.load
  rw [hnone]

theorem load_emptyDisk :
    Config.load ⟨[]⟩ rootSurroundings.cwd (.ofString rootSurroundings.home) = .ok {} :=
  config_of_node? (FileTree.node?_nil (by simp))

theorem exists_save_markedEntry (n : Int) :
    ∃ d', rootStateStore.save (markedEntry n) ⟨⟨[]⟩, none⟩ = (.ok (), d') ∧
      Config.load d'.tree rootSurroundings.cwd (.ofString rootSurroundings.home) = .ok {} := by
  obtain ⟨d', hsave⟩ := rootStateStore.exists_save_nil (markedEntry n)
  refine ⟨d', hsave, config_of_node? ?_⟩
  rw [CorpusStore.save_eq_writeAll] at hsave
  rw [Disk.writeAll_eq_ok (List.cons_ne_nil _ _) CorpusStore.files_in_directory CorpusStore.nodup_files
    hsave, FileTree.Nodes.withFiles_of_notMem, FileTree.Nodes.withDirectories, if_neg]
  · exact FileTree.node?_nil (by simp)
  · intro hpre
    simpa using hpre.length_le
  · simp [CorpusStore.laterFiles, CorpusStore.outputFiles, CorpusStore.place_inputPath,
      CorpusStore.place_backupPath, CorpusStore.place_firstOutputPath,
      CorpusStore.place_secondOutputPath, CorpusStore.place_optionsPath]

def markingRun (n : Int) (rejected boring : String → Bool) (random : Twister) :
    PreparedRun Nat Unit Twister where
  run := {
    generator := Generator.cycling ["x\n"]
    sampler := ⟨widthSpace n⟩
    checker := ⟨markingFormatter n, rejected⟩
    filter := ⟨boring⟩ }
  start := { generator := 0, formatter := (), random := random }
  store := rootStateStore
  maxTries := some 1
  width := 80

theorem markingRun_madeFrom {rejected boring : String → Bool} {random : Twister} {t : FileTree} (n : Int)
    (hrejected : configTest Pattern.test defaultSyntaxErrorPattern = .ok rejected)
    (hboring : configTest Pattern.test defaultBoringPattern = .ok boring)
    (hrandom : random = Twister.ofSeed 0)
    (hconfig : Config.load t rootSurroundings.cwd (.ofString rootSurroundings.home) = .ok {}) :
    (markingRun n rejected boring random).MadeFrom (markingBackends n) rootSurroundings t oneTry {} := by
  refine ⟨hconfig, rfl, ?_, rfl, rfl, rfl, rfl, ofSpace_widthSpace n, hrejected, hboring, ?_, hrandom,
    rfl, rfl, rfl, rfl⟩
  · change ¬ (7 : Int) ≤ 0
    decide
  · rw [if_neg (by decide)]
    rfl

/-- The first try reports that the outputs differ. -/
theorem exists_reports_marking (n : Int) : ∃ p r s d',
    Reports (markingBackends n) rootSurroundings 1 oneTry ⟨⟨[]⟩, none⟩ p r s foundCode d' ∧
      p.run.checker.formatter = markingFormatter n ∧ p.run.sampler.space = widthSpace n ∧
      r.options = ⟨[("width", .int n)]⟩ ∧
      Config.load d'.tree rootSurroundings.cwd (.ofString rootSurroundings.home) = .ok {} := by
  obtain ⟨rejected, boring, hrejected, hboring, hinteresting⟩ := exists_tests
  obtain ⟨random, hrandom⟩ : ∃ random, random = Twister.ofSeed 0 := ⟨_, rfl⟩
  obtain ⟨d', hsave, hconfig⟩ := exists_save_markedEntry n
  have hmade := markingRun_madeFrom n hrejected hboring hrandom load_emptyDisk
  let p := markingRun n rejected boring random
  have hprogram : p.run.nextProgram { p.start with tries := 1 } =
      (.ok ⟨"x\n", 7, "ast"⟩, { p.start with generator := 1, tries := 1 }) := rfl
  have hdiscards : p.run.filter.discards p.run.replay.isSome "x\n" = false := hinteresting
  have hoptions : p.run.nextOptions { p.start with generator := 1, tries := 1 } =
      (.ok (markedEntry n).options, { p.start with
        generator := 1, tries := 1, random := ((⟨widthSpace n⟩ : Sampler).sample random).2 }) := by
    have hsample := congrArg (Except.mapError StepError.sampling) (sample_widthSpace n random)
    exact congrArg (Prod.mk · _) hsample
  have hpasses : ∀ t, (p.run.checker.check p.run.discardsRejected "x\n" (markedEntry n).options t).1 =
      .ok (some ⟨.success "x\n#", some (.success "x\n##")⟩) := fun _ => rfl
  have hverdict : Passes.verdict ⟨.success "x\n#", some (.success "x\n##")⟩ = .ok .diff := rfl
  obtain ⟨t, hattempt, -⟩ :=
    Loop.attempt_eq_report hprogram hdiscards hoptions (hpasses _) hverdict rfl
  obtain ⟨s, hfound, -⟩ := Loop.runFor_of_attempt hattempt 0
  generalize hr : RunResult.mk _ _ _ _ _ _ _ = r at hfound
  have hsaving : p.saving r ⟨⟨[]⟩, none⟩ = (.ok (), d') := by
    rw [← hr]
    exact hsave
  have hfinish := finish_of_saving (rfl : p.command r.options = .ok "") hsaving
  have hverdict : r.verdict ≠ .success := by
    rw [← hr]
    exact nofun
  rw [if_neg hverdict] at hfinish
  exact ⟨p, r, s, d', ⟨hmade.prepare_eq, hfound, "", rfl, hfinish⟩, rfl, rfl, by rw [← hr]; rfl, hconfig⟩

/-- The run can be replayed if the candidate has a text. -/
theorem replay_reports_marking : ∃ p r s d' p' r' s' d'',
    Reports (markingBackends 80) rootSurroundings 1 oneTry ⟨⟨[]⟩, none⟩ p r s foundCode d' ∧
      Reports (markingBackends 80) rootSurroundings 1 { oneTry with reproduce := true } ⟨d'.tree, none⟩
        p' r' s' foundCode d'' ∧
      p'.run.replay = some ⟨r.program.source, r.options⟩ ∧ s'.tries = 1 ∧
      r'.verdict = r.verdict ∧ d''.tree.node? = d'.tree.node? := by
  obtain ⟨p, r, s, d', hreports, hformatter, hspace, hoptions, hconfig⟩ := exists_reports_marking 80
  have hstateless : p.run.checker.formatter.Stateless := by
    rw [hformatter]
    exact markingFormatter_stateless 80
  have hnames : (p.run.checker.formatter.space.map Prod.fst).Nodup := by
    rw [hformatter]
    exact List.nodup_singleton _
  have hstorable : ∀ e ∈ p.run.sampler.space, e.2.Storable := by
    rw [hspace]
    exact widthSpace_storable 80
  have htext : ∀ m ∈ r.options.entries, m.2.hasText = true := by
    rw [hoptions]
    decide +kernel
  obtain ⟨p', r', s', d'', hagain, hentry, -, -, htries, -, -, -, hverdict, -, hsame, -⟩ :=
    (replay_reports rfl hreports hstateless hnames hstorable rfl rfl
      (hconfig.trans load_emptyDisk.symm)).1 htext
  exact ⟨p, r, s, d', p', r', s', d'', hreports, hagain, hentry, htries, hverdict, hsame⟩

/-- With a candidate of too many digits the run reports, and its entry cannot be replayed. -/
theorem not_forall_replay_reports :
    ¬ ∀ (backends : Backends Nat Unit Twister) (around : Surroundings) (patience : Nat) (a : RunArguments)
      (d d' : Disk) (p : PreparedRun Nat Unit Twister) (r : RunResult) (s : LoopState Nat Unit Twister)
      (code : Nat), a.reproduce = false → Reports backends around patience a d p r s code d' →
        p.run.checker.formatter.Stateless → (p.run.checker.formatter.space.map Prod.fst).Nodup →
        (∀ e ∈ p.run.sampler.space, e.2.Storable) →
        Config.load d'.tree around.cwd (.ofString around.home) =
          Config.load d.tree around.cwd (.ofString around.home) →
        ∃ p' r' s' d'', Reports backends around patience { a with reproduce := true } ⟨d'.tree, none⟩
          p' r' s' code d'' := by
  intro h
  obtain ⟨p, r, s, d', hreports, hformatter, hspace, hoptions, hconfig⟩ :=
    exists_reports_marking (10 ^ Text.maxDigits)
  have hsame := hconfig.trans load_emptyDisk.symm
  obtain ⟨p', r', s', d'', hagain⟩ := h _ _ _ _ _ d' p r s _ rfl hreports
    (by rw [hformatter]; exact markingFormatter_stateless _)
    (by rw [hformatter]; exact List.nodup_singleton _) (by rw [hspace]; exact widthSpace_storable _) hsame
  obtain ⟨config, hmade⟩ := prepare_eq_ok_iff.1 hreports.prepared
  have hlong : ∃ m ∈ r.options.entries, m.2.hasText = false := by
    rw [hoptions]
    exact ⟨("width", .int (10 ^ Text.maxDigits)), List.mem_singleton_self _, Options.not_hasText_long⟩
  obtain ⟨n, -, hcrash⟩ := hreports.crashes rootSurroundings hmade (hmade.replay_eq_none rfl)
    (by simp [hoptions, Primitive.Storable]) hlong rfl rfl hsame
  obtain ⟨text, hdone⟩ := hagain.runCommand_eq
  rw [hcrash] at hdone
  cases hdone

end FormatFuzz
