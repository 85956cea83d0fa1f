import FormatFuzz.Proofs.Command.Replay
import FormatFuzz.Proofs.Corpus.Damaged
import FormatFuzz.Proofs.Json.Limit
import FormatFuzz.Proofs.Report.Markup

namespace FormatFuzz

open FormatFuzz.Random

namespace PreparedRun

variable {γ φ : Type} {backends : Backends γ φ Twister} {around : Surroundings} {t : FileTree}
  {a : RunArguments} {p : PreparedRun γ φ Twister} {store : CorpusStore} {error : CorpusError}

theorem savedEntry_expected (hexpected : error.Expected) (hload : store.load t = .error error)
    (sampler : Sampler) (oracle : String) :
    savedEntry store sampler oracle t = .error (.refused error.message) := by
  unfold savedEntry
  rw [hload]
  cases error with
  | notFound directory => rfl
  | json path e => rfl
  | options path issues => rfl
  | file e => cases hexpected
  | encoding e => cases hexpected
  | limit l => cases hexpected

theorem savedEntry_encoding {e : Text.Utf8Error} (hload : store.load t = .error (.encoding e))
    (sampler : Sampler) (oracle : String) :
    savedEntry store sampler oracle t = .error (.crash (.corpus (.encoding e))) := by
  unfold savedEntry
  rw [hload]
  rfl

end PreparedRun

open PreparedRun

variable {γ φ : Type} {backends : Backends γ φ Twister} {around : Surroundings} {patience : Nat}
  {a : RunArguments} {d : Disk} {p : PreparedRun γ φ Twister} {ending : CommandEnd}

theorem runCommand_replay_error
    (h : prepare backends around d.tree { a with reproduce := false } = .ok p)
    (hentry : savedEntry p.store p.run.sampler p.run.checker.formatter.name d.tree = .error ending) :
    runCommand backends around patience { a with reproduce := true } d = some (ending, d) := by
  obtain ⟨config, hmade⟩ := prepare_eq_ok_iff.1 h
  have hstore : p.store = ⟨p.store.directory, around.levels⟩ := by rw [← hmade.levels]
  rw [hstore] at hentry
  unfold runCommand
  rw [hmade.prepare_replay_error rfl rfl rfl hentry]

/-- A limit is met only where the options hold a text that is long enough for it. -/
theorem CorpusStore.metBy_of_load {s : CorpusStore} {t : FileTree} {l : Json.Limit}
    (hinput : t.NothingOrFile s.inputPath.place) (hoptions : t.NothingOrFile s.optionsPath.place)
    (h : s.load t = .error (.limit l)) : ∃ bytes text, t.read s.optionsPath.place = .ok bytes ∧
      Text.decodeUtf8 bytes = .ok text ∧ l.MetBy (s.levels + 1) (Text.unifyLineEnds text.toList) := by
  obtain ⟨bytes₁, bytes₂, text, hholds, -, hdecode, hread⟩ :=
    (CorpusStore.load_eq_limit_iff hinput hoptions l).1 h
  have hmet := Json.metBy_of_read hread
  rw [String.toList_ofList] at hmet
  exact ⟨bytes₂, text, (CorpusStore.holds_iff_read.1 hholds).2, hdecode, hmet⟩

/-- Where the files of an entry are missing or can be read, the entry is loaded, or it is said that one
of them is missing, exactly if one is, or that they hold no options; else they are there, and one of them
is no text, or both are texts and reading the options meets a limit, for which they must be long enough.
The command that would replay the entry says the same and ends with the exit code of a command that could
not be carried out, but files that are no text and limits make it crash. In any case it changes nothing. -/
theorem replay_damaged (s : CorpusStore) (d : Disk) (hinput : d.tree.NothingOrFile s.inputPath.place)
    (hoptions : d.tree.NothingOrFile s.optionsPath.place) :
    (s.load d.tree = .error (.notFound s.directory) ↔ s.Lacks d.tree.node?) ∧
      ((∃ e, s.load d.tree = .error (.encoding e)) ↔ s.HoldsNoText d.tree.node?) ∧
      (∀ l, s.load d.tree = .error (.limit l) ↔ s.HoldsBeyond d.tree.node? l) ∧
      (∀ l, s.load d.tree = .error (.limit l) → ∃ bytes text,
        d.tree.read s.optionsPath.place = .ok bytes ∧ Text.decodeUtf8 bytes = .ok text ∧
          l.MetBy (s.levels + 1) (Text.unifyLineEnds text.toList)) ∧
      (∀ error, s.load d.tree = .error error →
        error.Expected ∨ (∃ e, error = .encoding e) ∨ ∃ l, error = .limit l) ∧
      ∀ (γ φ : Type) (backends : Backends γ φ Twister) (around : Surroundings) (patience : Nat)
        (a : RunArguments) (p : PreparedRun γ φ Twister),
        prepare backends around d.tree { a with reproduce := false } = .ok p → p.store = s →
          (∀ error : CorpusError, error.Expected → s.load d.tree = .error error →
            ∃ text, CommandEnd.refused error.message = .done usageCode text ∧
              runCommand backends around patience { a with reproduce := true } d =
                some (.done usageCode text, d)) ∧
          (∀ e, s.load d.tree = .error (.encoding e) →
            runCommand backends around patience { a with reproduce := true } d =
              some (.crash (.corpus (.encoding e)), d)) ∧
          ∀ l, s.load d.tree = .error (.limit l) →
            runCommand backends around patience { a with reproduce := true } d =
              some (.crash (.corpus (.limit l)), d) := by
  refine ⟨CorpusStore.load_eq_notFound_iff hinput hoptions,
    CorpusStore.load_eq_encoding_iff hinput hoptions, CorpusStore.load_eq_limit_iff hinput hoptions,
    fun l => CorpusStore.metBy_of_load hinput hoptions,
    fun error => CorpusStore.expected_of_load hinput hoptions, ?_⟩
  rintro γ φ backends around patience a p hprepared rfl
  refine ⟨fun error hexpected hload => ?_, fun e hload => ?_, fun l hload => ?_⟩
  · obtain ⟨text, htext⟩ := CommandEnd.exists_refused_eq_done error.message
    have hentry := savedEntry_expected hexpected hload p.run.sampler p.run.checker.formatter.name
    exact ⟨text, htext, htext ▸ runCommand_replay_error hprepared hentry⟩
  · exact runCommand_replay_error hprepared (savedEntry_encoding hload _ _)
  · exact runCommand_replay_error hprepared (savedEntry_of_limit hload _ _)

def damagedDisk : Disk := ⟨⟨[([".idemfuzz"], .directory),
  ([".idemfuzz", "random.py"], .file (Text.encodeUtf8 "x\n")),
  ([".idemfuzz", "options.json"], .file [0xff])]⟩, none⟩

theorem damagedDisk_input : damagedDisk.tree.NothingOrFile rootStateStore.inputPath.place :=
  .inr ⟨Text.encodeUtf8 "x\n", by rfl⟩

theorem damagedDisk_options : damagedDisk.tree.NothingOrFile rootStateStore.optionsPath.place :=
  .inr ⟨[0xff], by rfl⟩

theorem load_damagedDisk :
    rootStateStore.load damagedDisk.tree = .error (.encoding ⟨0xff, 0, 1, .invalidStart⟩) := by
  have hholds : rootStateStore.Holds damagedDisk.tree.node? (Text.encodeUtf8 "x\n") [0xff] :=
    CorpusStore.holds_iff_read.2 ⟨by rfl, by rfl⟩
  rw [CorpusStore.load_eq_loadBytes hholds, CorpusStore.loadBytes_eq, Text.decodeUtf8_encodeUtf8]
  rfl

theorem config_damagedDisk :
    Config.load damagedDisk.tree rootSurroundings.cwd (.ofString rootSurroundings.home) = .ok {} :=
  config_of_node? (by decide +kernel)

/-- The command that would replay the program crashes. -/
theorem replay_damaged_noText :
    rootStateStore.HoldsNoText damagedDisk.tree.node? ∧
      runCommand (markingBackends 80) rootSurroundings 1 { oneTry with reproduce := true } damagedDisk =
        some (.crash (.corpus (.encoding ⟨0xff, 0, 1, .invalidStart⟩)), damagedDisk) := by
  obtain ⟨rejected, boring, hrejected, hboring, -⟩ := exists_tests
  have hmade := markingRun_madeFrom 80 hrejected hboring rfl config_damagedDisk
  obtain ⟨-, hencoding, -, -, -, hcommand⟩ :=
    replay_damaged rootStateStore damagedDisk damagedDisk_input damagedDisk_options
  exact ⟨hencoding.1 ⟨_, load_damagedDisk⟩,
    (hcommand _ _ (markingBackends 80) rootSurroundings 1 oneTry _ hmade.prepare_eq rfl).2.1 _
      load_damagedDisk⟩

/-- Not every error that an entry raises is expected. -/
theorem not_forall_load_expected :
    ¬ ∀ (s : CorpusStore) (t : FileTree), t.NothingOrFile s.inputPath.place →
      t.NothingOrFile s.optionsPath.place →
        ∀ error, s.load t = .error error → error.Expected :=
  fun h => h rootStateStore damagedDisk.tree damagedDisk_input damagedDisk_options _ load_damagedDisk

end FormatFuzz
