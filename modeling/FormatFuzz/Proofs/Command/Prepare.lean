import FormatFuzz.Command.Run
import Mathlib.Tactic.Common

namespace FormatFuzz

open FormatFuzz.Random

theorem bind_eq_ok {ε α β : Type} {x : Except ε α} {f : α → Except ε β} {b : β} :
    (x >>= f) = .ok b ↔ ∃ a, x = .ok a ∧ f a = .ok b := by
  constructor
  · intro h
    cases x with
    | error e => cases h
    | ok a => exact ⟨a, rfl, h⟩
  · rintro ⟨a, rfl, h⟩
    exact h

theorem mapError_eq_ok {ε ε' α : Type} {x : Except ε α} {f : ε → ε'} {a : α} :
    x.mapError f = .ok a ↔ x = .ok a := by
  cases x <;> simp [Except.mapError]

namespace PreparedRun

variable {γ φ : Type}

/-- The parts of a run and where each of them comes from. -/
structure MadeFrom (p : PreparedRun γ φ Twister) (backends : Backends γ φ Twister)
    (around : Surroundings) (t : FileTree) (a : RunArguments) (config : Config) : Prop where
  loaded : Config.load t around.cwd (.ofString around.home) = .ok config
  settings : p.run.settings = {
    maxDepth := a.maxDepth.getD config.maxDepth
    generator := a.generator.getD config.generator
    showParseErrors := a.showParseErrors
    showSuccesses := a.showSuccesses }
  depth : ¬ p.run.settings.maxDepth ≤ 0
  formatter : backends.formatters.find "oracle" (a.oracle.getD config.oracle) =
    .ok (p.run.checker.formatter, p.start.formatter)
  generator : backends.generators.find "generator" p.run.settings.generator =
    .ok (p.run.generator, p.start.generator)
  directory : Config.corpusDirectory (a.corpusDir <|> config.corpusDir) around.cwd around.home =
    some p.store.directory
  levels : p.store.levels = around.levels
  sampler : Sampler.ofSpace (p.run.checker.formatter.space.override config.optionSpace) =
    .ok p.run.sampler
  rejected : configTest backends.test config.syntaxErrorPattern = .ok p.run.checker.rejected
  boring : configTest backends.test config.boringPattern = .ok p.run.filter.isBoring
  replay : if a.reproduce then
      ∃ entry, savedEntry p.store p.run.sampler p.run.checker.formatter.name t = .ok entry ∧
        p.run.replay = some entry
    else p.run.replay = none
  random : p.start.random = Twister.ofSeed (a.seed.getD around.freshSeed)
  tries : p.start.tries = 0
  log : p.start.log = []
  maxTries : p.maxTries = a.maxTries
  width : p.width = (a.width.map Int.toNat).getD around.terminalWidth

variable {backends : Backends γ φ Twister} {around : Surroundings} {t : FileTree}
  {a : RunArguments} {p : PreparedRun γ φ Twister}

theorem MadeFrom.prepare_eq {config : Config} (h : p.MadeFrom backends around t a config) :
    prepare backends around t a = .ok p := by
  have hdepth := h.depth
  have hgenerator := h.generator
  have hreplay := h.replay
  rw [h.settings] at hdepth hgenerator
  unfold prepare
  simp only [h.loaded, if_neg hdepth, h.formatter, hgenerator, h.directory, h.sampler, h.rejected,
    h.boring, Except.mapError, bind, Except.bind]
  rw [← h.random, ← h.settings, ← h.maxTries, ← h.width, ← h.levels]
  split
  · next ha =>
    rw [if_pos ha] at hreplay
    obtain ⟨entry, hentry, hreplay⟩ := hreplay
    rw [hentry]
    simp only [Functor.map, Except.map]
    rw [← hreplay, ← h.tries, ← h.log]
    rfl
  · next ha =>
    rw [if_neg ha] at hreplay
    simp only [pure, Except.pure]
    rw [← hreplay, ← h.tries, ← h.log]

theorem madeFrom_of_prepare (h : prepare backends around t a = .ok p) :
    ∃ config, p.MadeFrom backends around t a config := by
  unfold prepare at h
  obtain ⟨config, hloaded, h⟩ := bind_eq_ok.1 h
  simp only at h
  split at h
  · cases h
  next hdepth =>
  obtain ⟨formatter, hformatter, h⟩ := bind_eq_ok.1 h
  obtain ⟨generator, hgenerator, h⟩ := bind_eq_ok.1 h
  split at h
  swap
  · cases h
  next directory hdirectory =>
  obtain ⟨sampler, hsampler, h⟩ := bind_eq_ok.1 h
  obtain ⟨rejected, hrejected, h⟩ := bind_eq_ok.1 h
  obtain ⟨boring, hboring, h⟩ := bind_eq_ok.1 h
  rw [mapError_eq_ok] at hloaded hformatter hgenerator hsampler
  refine ⟨config, ?_⟩
  split at h
  · next ha =>
    obtain ⟨replay, hreplay, h⟩ := bind_eq_ok.1 h
    cases hentry : savedEntry ⟨directory, around.levels⟩ sampler formatter.1.name t with
    | error e =>
      rw [hentry] at hreplay
      cases hreplay
    | ok entry =>
      rw [hentry] at hreplay
      cases hreplay
      cases h
      refine ⟨hloaded, rfl, hdepth, hformatter, hgenerator, hdirectory, rfl, hsampler, hrejected,
        hboring, ?_, ?_, rfl, rfl, rfl, rfl⟩
      · rw [if_pos ha]
        exact ⟨entry, hentry, rfl⟩
      · with_reducible rfl
  · next ha =>
    cases h
    refine ⟨hloaded, rfl, hdepth, hformatter, hgenerator, hdirectory, rfl, hsampler, hrejected,
      hboring, ?_, ?_, rfl, rfl, rfl, rfl⟩
    · rw [if_neg ha]
    · with_reducible rfl

theorem MadeFrom.replay_eq_none {config : Config} (h : p.MadeFrom backends around t a config)
    (ha : a.reproduce = false) : p.run.replay = none := by
  have hreplay := h.replay
  rwa [ha] at hreplay

/-- A run can be prepared exactly if its parts can be had. -/
theorem prepare_eq_ok_iff :
    prepare backends around t a = .ok p ↔ ∃ config, p.MadeFrom backends around t a config :=
  ⟨madeFrom_of_prepare, fun ⟨_, h⟩ => h.prepare_eq⟩

end PreparedRun

end FormatFuzz
