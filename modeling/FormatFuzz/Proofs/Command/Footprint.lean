import FormatFuzz.Command.Reach
import FormatFuzz.Proofs.Command.Replay

namespace FormatFuzz

open FormatFuzz.Random FileTree

/-- A replacement of some files leaves other places as they are. -/
theorem Disk.kept_of_replaceAll {dir q : Place} {files : List (Place × Stored)}
    (hfiles : ∀ e ∈ files, e.1.dropLast = dir) (hnodup : (files.map Prod.fst).Nodup) (d : Disk)
    (hq : q ∉ files.map Prod.fst) :
    Nodes.Kept d.tree.node? (replaceAll files d).2.tree.node? dir q := by
  obtain ⟨done, rest, rfl, -, hreplaced⟩ := replaceAll_cases hfiles hnodup d
  refine hreplaced.kept q fun hdone => hq ?_
  rw [List.map_append]
  exact List.mem_append_left _ hdone

namespace CorpusStore

variable {s : CorpusStore} {d : Disk} {q : Place}

def places (s : CorpusStore) : List Place := s.paths.map Path.place

def outputPlaces (s : CorpusStore) : List Place := [s.firstOutputPath.place, s.secondOutputPath.place]

theorem outputPlaces_subset (hq : q ∉ s.places) : q ∉ s.outputPlaces := by
  simp only [places, paths, outputPlaces, List.map_cons, List.map_nil, List.mem_cons, List.not_mem_nil,
    or_false, not_or] at hq ⊢
  exact ⟨hq.2.2.1, hq.2.2.2.1⟩

theorem kept_of_save (e : CorpusEntry) (d : Disk) (hq : q ∉ s.places) :
    Nodes.Kept d.tree.node? (s.save e d).2.tree.node? s.directory.place q := by
  rw [save, saveStored_eq_replaceAll]
  exact Disk.kept_of_replaceAll (s.storedFiles_in_directory _) (s.nodup_storedFiles _) d hq

theorem replaced_of_save {e : CorpusEntry} {d' : Disk} (h : s.save e d = (.ok (), d')) :
    Nodes.Replaced d.tree.node? d'.tree.node? s.directory.place (s.storedFiles e.stored) := by
  rw [save, saveStored_eq_replaceAll] at h
  obtain ⟨done, rest, hsplit, hok, hreplaced⟩ :=
    Disk.replaceAll_cases (s.storedFiles_in_directory _) (s.nodup_storedFiles _) d
  rw [h] at hok hreplaced
  obtain rfl := hok.1 rfl
  rw [hsplit, List.append_nil]
  exact hreplaced

theorem kept_of_saveOutputs (first : Outcome) (second : Option Outcome) (d : Disk)
    (hq : q ∉ s.outputPlaces) :
    Nodes.Kept d.tree.node? (s.saveOutputs first second d).2.tree.node? s.directory.place q := by
  rw [saveOutputs_eq, writeOutputs_eq_writeAll, Disk.writeAll]
  refine Disk.kept_of_replaceAll (List.forall_mem_map.2 (outputFiles_in_directory s _ _)) ?_ d ?_
  · rw [Disk.map_fst_storedText]
    exact nodup_outputFiles s _ _
  · rw [Disk.map_fst_storedText]
    exact hq

end CorpusStore

namespace PreparedRun

variable {γ φ : Type} {p : PreparedRun γ φ Twister} {r : RunResult} {d d' : Disk} {q : Place}
  {ending : CommandEnd} {patience : Nat}

theorem kept_of_saving (p : PreparedRun γ φ Twister) (r : RunResult) (d : Disk)
    (hq : q ∉ p.store.places) :
    Nodes.Kept d.tree.node? (p.saving r d).2.tree.node? p.store.directory.place q := by
  unfold saving
  split
  · exact CorpusStore.kept_of_saveOutputs r.first r.second d (CorpusStore.outputPlaces_subset hq)
  · exact CorpusStore.kept_of_save _ d hq

/-- A run with a result changes nothing, because there is no command line for it, or it ends with what was
saved, and not with the exit code of a command that could not be carried out. -/
theorem finish_cases (h : p.finish r d = (ending, d')) :
    d' = d ∨ d' = (p.saving r d).2 ∧ ending.exitCode ≠ usageCode := by
  unfold finish at h
  cases hline : p.command r.options with
  | error fault =>
    rw [hline] at h
    cases h
    exact .inl rfl
  | ok line =>
    rw [hline] at h
    cases hsaving : p.saving r d with
    | mk answer d₁ =>
      rw [hsaving] at h
      cases answer with
      | error e =>
        cases h
        refine .inr ⟨rfl, ?_⟩
        cases e <;> decide
      | ok u =>
        cases h
        refine .inr ⟨rfl, ?_⟩
        change (if r.verdict = .success then 0 else foundCode) ≠ usageCode
        split <;> decide

theorem complete_cases (h : p.complete patience d = some (ending, d')) :
    d' = d ∨ ∃ r, p.finish r d = (ending, d') := by
  unfold complete at h
  split at h
  · obtain ⟨-, rfl⟩ := Prod.mk.inj (Option.some.inj h)
    exact .inl rfl
  · next r s hfound => exact .inr ⟨r, Option.some.inj h⟩
  · split at h
    · obtain ⟨-, rfl⟩ := Prod.mk.inj (Option.some.inj h)
      exact .inl rfl
    · cases h

end PreparedRun

def RunArguments.parse? (args : List String) : Option RunArguments := do
  let a ← Arguments.read rules true false args
  if a.has "--help" then none else ofArguments a

open PreparedRun

variable {γ φ : Type} {backends : Backends γ φ Twister} {around : Surroundings} {patience : Nat}
  {args : List String} {a : RunArguments} {d d' : Disk} {e : ProgramEnd} {ending : CommandEnd}

theorem program_run (backends : Backends γ φ Twister) (around : Surroundings) (patience : Nat)
    (args : List String) (d : Disk) :
    program backends around patience ("run" :: args) d = runWith backends around patience args d := by
  have hread : Arguments.read [helpRule] false true ("run" :: args) = some ⟨[], "run" :: args⟩ := by
    simp [Arguments.read, Arguments.readFrom]
  have hhelp : Arguments.has ⟨[], "run" :: args⟩ "--help" = false := rfl
  simp [program, hread, hhelp]

theorem runWith_eq (backends : Backends γ φ Twister) (around : Surroundings) (patience : Nat)
    (args : List String) (d : Disk) :
    (∃ code, runWith backends around patience args d = some ⟨.usage code, [], d⟩) ∧
        RunArguments.parse? args = none ∨
      ∃ a ignored, RunArguments.parse? args = some a ∧
        runWith backends around patience args d =
          (runCommand backends around patience a d).map fun (e, d) => ⟨e, ignored, d⟩ := by
  unfold runWith RunArguments.parse?
  cases Arguments.read RunArguments.rules true false args with
  | none => exact .inl ⟨⟨_, rfl⟩, rfl⟩
  | some b =>
    simp only [Option.bind_eq_bind, Option.bind_some]
    split
    · exact .inl ⟨⟨_, rfl⟩, rfl⟩
    · cases RunArguments.ofArguments b with
      | none => exact .inl ⟨⟨_, rfl⟩, rfl⟩
      | some a => exact .inr ⟨a, a.ignoredMessages, rfl, rfl⟩

theorem runCommand_cases (h : runCommand backends around patience a d = some (ending, d')) :
    d' = d ∨ ∃ p r, prepare backends around d.tree a = .ok p ∧ p.finish r d = (ending, d') := by
  unfold runCommand at h
  split at h
  · obtain ⟨-, rfl⟩ := Prod.mk.inj (Option.some.inj h)
    exact .inl rfl
  · next p hprepared =>
    rcases complete_cases h with rfl | ⟨r, hfinish⟩
    · exact .inl rfl
    · exact .inr ⟨p, r, hprepared, hfinish⟩

/-- A command changes nothing, or it saves what it reports and does not end as one that could not be
carried out. -/
theorem runWith_cases (h : runWith backends around patience args d = some e) :
    e.disk = d ∨ e.finish.exitCode ≠ usageCode ∧ ∃ a p, RunArguments.parse? args = some a ∧
      prepare backends around d.tree a = .ok p ∧ ∀ q, q ∉ p.store.places →
        Nodes.Kept d.tree.node? e.disk.tree.node? p.store.directory.place q := by
  rcases runWith_eq backends around patience args d with ⟨⟨code, husage⟩, -⟩ | ⟨a, ignored, hargs, hrun⟩
  · rw [husage] at h
    cases h
    exact .inl rfl
  · rw [hrun] at h
    obtain ⟨⟨ending, d'⟩, hcommand, rfl⟩ := Option.map_eq_some_iff.1 h
    rcases runCommand_cases hcommand with rfl | ⟨p, r, hprepared, hfinish⟩
    · exact .inl rfl
    · rcases finish_cases hfinish with rfl | ⟨rfl, hcode⟩
      · exact .inl rfl
      · exact .inr ⟨hcode, a, p, hargs, hprepared, fun q hq => kept_of_saving p r d hq⟩

theorem configPath_notMem (s : CorpusStore) {path : Path} (h : path ∈ around.configPaths) :
    path.place ∉ s.places := by
  obtain ⟨base, -, rfl⟩ := List.mem_map.1 h
  rw [Config.place_file]
  simp [CorpusStore.places, CorpusStore.paths, CorpusStore.place_inputPath, CorpusStore.place_backupPath,
    CorpusStore.place_firstOutputPath, CorpusStore.place_secondOutputPath,
    CorpusStore.place_optionsPath]

theorem load_of_savedEntry {store : CorpusStore} {sampler : Sampler} {oracle : String} {t : FileTree}
    {entry : Replay} (h : savedEntry store sampler oracle t = .ok entry) :
    ∃ r, store.load t = .ok r := by
  obtain ⟨r, hr, -⟩ := bind_eq_ok.1 h
  exact ⟨r, mapError_eq_ok.1 hr⟩

variable {p : PreparedRun γ φ Twister} {r : RunResult} {s : LoopState γ φ Twister} {code : Nat}

/-- A replay that reports has loaded its entry, so the directories on the way are there already. -/
theorem Reports.replayed (h : Reports backends around patience a d p r s code d')
    (ha : a.reproduce = true) :
    ∀ q, q ∉ p.store.outputPlaces → d'.tree.node? q = d.tree.node? q := by
  intro q hq
  obtain ⟨config, hmade⟩ := prepare_eq_ok_iff.1 h.prepared
  have hreplay := hmade.replay
  rw [if_pos ha] at hreplay
  obtain ⟨entry, hentry, hreplay⟩ := hreplay
  obtain ⟨loaded, hload⟩ := load_of_savedEntry hentry
  obtain ⟨bytes₁, bytes₂, hdirectory, -⟩ := CorpusStore.holds_of_load_eq_ok hload
  have hsaving : p.store.saveOutputs r.first r.second d = (.ok (), d') := by
    have hsaving := h.saving_eq.1
    unfold saving at hsaving
    rwa [hreplay] at hsaving
  have hkept := CorpusStore.kept_of_saveOutputs r.first r.second d hq
  rw [hsaving] at hkept
  exact hkept.eq_of_hasDirectories hdirectory

/-- Any other run that reports has replaced all files of its entry. -/
theorem Reports.saved (h : Reports backends around patience a d p r s code d')
    (ha : a.reproduce = false) :
    Nodes.Replaced d.tree.node? d'.tree.node? p.store.directory.place
      (p.store.storedFiles (CorpusEntry.ofResult r).stored) := by
  obtain ⟨config, hmade⟩ := prepare_eq_ok_iff.1 h.prepared
  have hsaving := h.saving_eq.1
  unfold saving at hsaving
  rw [hmade.replay_eq_none ha] at hsaving
  exact CorpusStore.replaced_of_save hsaving

/-- A command that ends with the exit code for commands that could not be carried out has changed
nothing. However a command ends, only the files of its entry have changed, and directories have been
made on the way to them, so configuration files are as they were. A command that reports ends without a
failure exactly if the verdict is a success. As a replay it has changed the two outputs at most, and
otherwise it has replaced the five files of the entry. -/
theorem run_footprint (backends : Backends γ φ Twister) (around : Surroundings) (patience : Nat)
    (args : List String) (d : Disk) :
    (∀ e, program backends around patience ("run" :: args) d = some e →
      (e.finish.exitCode = usageCode → e.disk = d) ∧
      (e.disk = d ∨ ∃ a p, RunArguments.parse? args = some a ∧
        prepare backends around d.tree a = .ok p ∧ ∀ q, q ∉ p.store.places →
          Nodes.Kept d.tree.node? e.disk.tree.node? p.store.directory.place q) ∧
      ∀ path ∈ around.configPaths, ∀ bytes,
        e.disk.tree.node? path.place = some (.file bytes) ↔
          d.tree.node? path.place = some (.file bytes)) ∧
    ∀ a p r s code d', RunArguments.parse? args = some a →
      Reports backends around patience a d p r s code d' →
        (∃ e, program backends around patience ("run" :: args) d = some e ∧
          e.finish.exitCode = code ∧ e.disk = d') ∧
        (code = 0 ↔ r.verdict = .success) ∧
        (code = foundCode ↔ r.verdict = .error ∨ r.verdict = .diff) ∧
        (a.reproduce = true → ∀ q, q ∉ p.store.outputPlaces → d'.tree.node? q = d.tree.node? q) ∧
        (a.reproduce = false → Nodes.Replaced d.tree.node? d'.tree.node? p.store.directory.place
          (p.store.storedFiles (CorpusEntry.ofResult r).stored)) := by
  rw [program_run]
  constructor
  · intro e h
    rcases runWith_cases h with hdisk | ⟨hcode, a, p, hargs, hprepared, hkept⟩
    · exact ⟨fun _ => hdisk, .inl hdisk, fun _ _ _ => by rw [hdisk]⟩
    · refine ⟨fun husage => absurd husage hcode, .inr ⟨a, p, hargs, hprepared, hkept⟩, ?_⟩
      intro path hpath bytes
      exact (hkept _ (configPath_notMem p.store hpath)).file_iff
  · intro a p r s code d' hargs h
    obtain ⟨text, hcommand⟩ := h.runCommand_eq
    have hrun : ∃ ignored, runWith backends around patience args d =
        some ⟨.done code text, ignored, d'⟩ := by
      rcases runWith_eq backends around patience args d with ⟨-, hnone⟩ | ⟨a', ignored, hargs', hrun⟩
      · rw [hargs] at hnone
        cases hnone
      · rw [hargs] at hargs'
        cases hargs'
        exact ⟨ignored, by rw [hrun, hcommand]; rfl⟩
    obtain ⟨ignored, hrun⟩ := hrun
    refine ⟨⟨_, hrun, rfl, rfl⟩, ?_, ?_, h.replayed, h.saved⟩
    · rw [h.saving_eq.2]
      cases r.verdict <;> decide
    · rw [h.saving_eq.2]
      cases r.verdict <;> decide

/-- One try that finds outputs that differ, on an empty disk. -/
theorem run_footprint_marking : ∃ (e : ProgramEnd) (p : PreparedRun Nat Unit Twister) (r : RunResult),
    program (markingBackends 80) rootSurroundings 1 ["run", "--max-tries", "1"] ⟨⟨[]⟩, none⟩ = some e ∧
      (e.finish.exitCode = foundCode ↔ r.verdict = .error ∨ r.verdict = .diff) ∧
      Nodes.Replaced (FileTree.mk []).node? e.disk.tree.node? p.store.directory.place
        (p.store.storedFiles (CorpusEntry.ofResult r).stored) ∧
      ∀ path ∈ rootSurroundings.configPaths, ∀ bytes,
        e.disk.tree.node? path.place ≠ some (.file bytes) := by
  obtain ⟨p, r, s, d', hreports, -⟩ := exists_reports_marking 80
  have hargs : RunArguments.parse? ["--max-tries", "1"] = some oneTry := by decide +kernel
  obtain ⟨hend, hreport⟩ := run_footprint (markingBackends 80) rootSurroundings 1 ["--max-tries", "1"]
    ⟨⟨[]⟩, none⟩
  obtain ⟨⟨e, hprogram, hcode, hdisk⟩, -, hfound, -, hsaved⟩ :=
    hreport oneTry p r s foundCode d' hargs hreports
  subst hdisk
  obtain ⟨-, -, hconfig⟩ := hend e hprogram
  refine ⟨e, p, r, hprogram, hcode ▸ hfound, hsaved rfl, fun path hpath bytes hfile => ?_⟩
  have hbefore := (hconfig path hpath bytes).1 hfile
  unfold FileTree.node? at hbefore
  split at hbefore <;> cases hbefore

end FormatFuzz
