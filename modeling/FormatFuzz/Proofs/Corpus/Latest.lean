import FormatFuzz.Proofs.Corpus.Keep
import FormatFuzz.Proofs.Corpus.Save
import FormatFuzz.Proofs.Options
import Mathlib.Data.List.Induction

namespace FormatFuzz

open FileTree

/-- What is saved in a store: an entry, or the outputs of two passes alone. -/
inductive StoreCall
  | save (e : CorpusEntry)
  | outputs (first : Outcome) (second : Option Outcome)
deriving DecidableEq, Repr

namespace StoreCall

def saved? : StoreCall → Option CorpusEntry
  | save e => some e
  | outputs _ _ => none

def texts : StoreCall → String × String
  | save e => (e.firstOutput, e.secondOutput)
  | outputs first second => (CorpusEntry.outputOf first, CorpusEntry.outputOf second)

def lastSaved? (calls : List StoreCall) : Option CorpusEntry := (calls.filterMap saved?).getLast?

theorem lastSaved?_save (calls : List StoreCall) (e : CorpusEntry) :
    lastSaved? (calls ++ [save e]) = some e := by
  simp [lastSaved?, saved?]

theorem lastSaved?_outputs (calls : List StoreCall) (first : Outcome) (second : Option Outcome) :
    lastSaved? (calls ++ [outputs first second]) = lastSaved? calls := by
  simp [lastSaved?, saved?]

def files (s : CorpusStore) : StoreCall → List (Place × String)
  | save e => s.files e
  | outputs first second => s.outputFiles (CorpusEntry.outputOf first) (CorpusEntry.outputOf second)

variable {s : CorpusStore} {c : StoreCall}

theorem files_in_directory : ∀ file ∈ c.files s, file.1 ≠ [] ∧ file.1.dropLast = s.directory.place := by
  cases c with
  | save e => exact CorpusStore.files_in_directory
  | outputs first second =>
    exact fun file hfile =>
      CorpusStore.files_in_directory file (s.outputFiles_subset ⟨"", _, _, ⟨[]⟩⟩ file hfile)

theorem nodup_files : ((c.files s).map Prod.fst).Nodup := by
  cases c with
  | save e => exact CorpusStore.nodup_files
  | outputs first second => exact s.nodup_outputFiles _ _

theorem outputFiles_subset : ∀ file ∈ s.outputFiles c.texts.1 c.texts.2, file ∈ c.files s := by
  cases c with
  | save e => exact s.outputFiles_subset e
  | outputs first second => exact fun file hfile => hfile

theorem files_ne_nil : c.files s ≠ [] := by
  have hmem : (s.firstOutputPath.place, c.texts.1) ∈ c.files s :=
    outputFiles_subset _ List.mem_cons_self
  exact List.ne_nil_of_mem hmem

end StoreCall

namespace CorpusStore

def call (s : CorpusStore) : StoreCall → DiskM Unit
  | .save e => s.save e
  | .outputs first second => s.saveOutputs first second

def callAll (s : CorpusStore) : List StoreCall → DiskM Unit
  | [] => pure ()
  | c :: calls => do
    s.call c
    s.callAll calls

variable {s : CorpusStore} {c : StoreCall} {calls : List StoreCall} {e : CorpusEntry} {d d' : Disk}

theorem call_eq_writeAll : s.call c = Disk.writeAll (c.files s) := by
  cases c with
  | save e => exact save_eq_writeAll
  | outputs first second => exact (saveOutputs_eq _ _).trans (writeOutputs_eq_writeAll _ _)

theorem nodes_of_call (h : s.call c d = (.ok (), d')) : d'.tree.node? =
    (Nodes.withDirectories d.tree.node? s.directory.place).withFiles (c.files s) := by
  rw [call_eq_writeAll] at h
  exact Disk.writeAll_eq_ok StoreCall.files_ne_nil StoreCall.files_in_directory StoreCall.nodup_files h

theorem read_outputs_of_call (h : s.call c d = (.ok (), d')) :
    d'.tree.read s.firstOutputPath.place = .ok (Text.encodeUtf8 c.texts.1) ∧
      d'.tree.read s.secondOutputPath.place = .ok (Text.encodeUtf8 c.texts.2) := by
  have hread : ∀ file ∈ s.outputFiles c.texts.1 c.texts.2,
      d'.tree.read file.1 = .ok (Text.encodeUtf8 file.2) := by
    intro file hfile
    have hmem := StoreCall.outputFiles_subset file hfile
    rw [read_eq_ok_iff, (StoreCall.files_in_directory file hmem).2, nodes_of_call h]
    exact ⟨(Nodes.hasDirectories_withDirectories _ _).withFiles StoreCall.files_in_directory,
      Nodes.withFiles_of_mem StoreCall.nodup_files hmem⟩
  exact ⟨hread (s.firstOutputPath.place, _) List.mem_cons_self,
    hread (s.secondOutputPath.place, _) (List.mem_cons_of_mem _ List.mem_cons_self)⟩

theorem files_cases {first second : String} {file : Place × String}
    (h : file ∈ s.files { e with firstOutput := first, secondOutput := second }) :
    file ∈ s.outputFiles first second ∨
      file ∈ s.files e ∧ file.1 ∉ (s.outputFiles first second).map Prod.fst := by
  simp only [files, laterFiles, List.mem_cons, List.mem_append, List.not_mem_nil, or_false] at h ⊢
  rcases h with rfl | rfl | houtput | rfl
  · exact .inr ⟨by simp, by simp [outputFiles, place_inputPath, place_firstOutputPath,
      place_secondOutputPath]⟩
  · exact .inr ⟨by simp, by simp [outputFiles, place_backupPath, place_firstOutputPath,
      place_secondOutputPath]⟩
  · exact .inl houtput
  · exact .inr ⟨by simp, by simp [outputFiles, place_optionsPath, place_firstOutputPath,
      place_secondOutputPath]⟩

/-- Outputs that are saved alone take the place of the outputs of the entry. -/
theorem Keeps.of_outputs {first : Outcome} {second : Option Outcome} (hkeeps : s.Keeps d.tree.node? e)
    (h : s.call (.outputs first second) d = (.ok (), d')) : s.Keeps d'.tree.node?
      { e with
        firstOutput := CorpusEntry.outputOf first, secondOutput := CorpusEntry.outputOf second } := by
  obtain ⟨hdir, hfiles⟩ := hkeeps
  rw [nodes_of_call h, Nodes.withDirectories_of_hasDirectories hdir]
  refine ⟨hdir.withFiles StoreCall.files_in_directory, fun file hfile => ?_⟩
  rcases files_cases hfile with houtput | ⟨hfile, hother⟩
  · exact Nodes.withFiles_of_mem StoreCall.nodup_files houtput
  · exact (Nodes.withFiles_of_notMem hother).trans (hfiles file hfile)

theorem callAll_concat_eq_ok : s.callAll (calls ++ [c]) d = (.ok (), d') ↔
    ∃ d₁, s.callAll calls d = (.ok (), d₁) ∧ s.call c d₁ = (.ok (), d') := by
  induction calls generalizing d with
  | nil =>
    have hlast : (s.call c >>= fun _ => pure ()) = s.call c := bind_pure _
    simp only [List.nil_append, callAll, hlast]
    constructor
    · exact fun h => ⟨d, rfl, h⟩
    · rintro ⟨_, ⟨⟩, h⟩
      exact h
  | cons c' calls ih =>
    simp only [List.cons_append, callAll, DiskM.bind_apply]
    rcases s.call c' d with ⟨error | _, d₁⟩
    · constructor
      · rintro ⟨⟩
      · rintro ⟨_, ⟨⟩, -⟩
    · exact ih

/-- Calls that have saved an entry leave it in the directory, with the outputs of the last call. -/
theorem keeps_of_callAll (h : s.callAll calls d = (.ok (), d'))
    (hentry : StoreCall.lastSaved? calls = some e) :
    ∃ first second, s.Keeps d'.tree.node? { e with firstOutput := first, secondOutput := second } := by
  induction calls using List.reverseRecOn generalizing d' with
  | nil => cases hentry
  | append_singleton calls c ih =>
    obtain ⟨d₁, hcalls, hcall⟩ := callAll_concat_eq_ok.1 h
    cases c with
    | save e' =>
      rw [StoreCall.lastSaved?_save] at hentry
      cases hentry
      exact ⟨_, _, keeps_of_save hcall⟩
    | outputs first second =>
      rw [StoreCall.lastSaved?_outputs] at hentry
      obtain ⟨first', second', hkeeps⟩ := ih hcalls hentry
      exact ⟨_, _, hkeeps.of_outputs hcall⟩

theorem read_outputs_of_callAll (h : s.callAll calls d = (.ok (), d'))
    (hlast : calls.getLast? = some c) :
    d'.tree.read s.firstOutputPath.place = .ok (Text.encodeUtf8 c.texts.1) ∧
      d'.tree.read s.secondOutputPath.place = .ok (Text.encodeUtf8 c.texts.2) := by
  obtain ⟨before, rfl⟩ := List.getLast?_eq_some_iff.1 hlast
  obtain ⟨d₁, -, hcall⟩ := callAll_concat_eq_ok.1 h
  exact read_outputs_of_call hcall

/-- If entries and outputs are saved in turn and nothing fails, then the program and the options of the
last entry are loaded, or none can be loaded because an integer of its options has too many digits. Its
program is there twice, and the outputs of the last call are there. For the outputs it does not matter
whether a result is saved as an entry or its outputs are saved alone. -/
theorem load_latest (h : s.callAll calls d = (.ok (), d')) (hentry : StoreCall.lastSaved? calls = some e)
    (hnames : (e.options.entries.map Prod.fst).Nodup)
    (hvalues : "values" ∉ e.options.entries.map Prod.fst)
    (hstorable : ∀ m ∈ e.options.entries, m.2.Storable) :
    ((∀ m ∈ e.options.entries, m.2.hasText = true) → s.load d'.tree = .ok ⟨e.source, e.options⟩) ∧
      ((∃ m ∈ e.options.entries, m.2.hasText = false) →
        ∃ n, Text.maxDigits < n ∧ s.load d'.tree = .error (.limit (.digits n))) ∧
      d'.tree.read s.inputPath.place = .ok (Text.encodeUtf8 e.source) ∧
      d'.tree.read s.backupPath.place = .ok (Text.encodeUtf8 e.source) ∧
      (∃ c, calls.getLast? = some c ∧
        d'.tree.read s.firstOutputPath.place = .ok (Text.encodeUtf8 c.texts.1) ∧
        d'.tree.read s.secondOutputPath.place = .ok (Text.encodeUtf8 c.texts.2)) ∧
      ∀ r d₁ d₂ d₁' d₂', s.save (.ofResult r) d₁ = (.ok (), d₁') →
        s.saveOutputs r.first r.second d₂ = (.ok (), d₂') →
        d₁'.tree.read s.firstOutputPath.place = d₂'.tree.read s.firstOutputPath.place ∧
          d₁'.tree.read s.secondOutputPath.place = d₂'.tree.read s.secondOutputPath.place := by
  obtain ⟨first, second, hkeeps⟩ := keeps_of_callAll h hentry
  have hread : ∀ file ∈ s.files { e with firstOutput := first, secondOutput := second },
      d'.tree.read file.1 = .ok (Text.encodeUtf8 file.2) := by
    intro file hfile
    rw [read_eq_ok_iff, (files_in_directory file hfile).2]
    exact ⟨hkeeps.1, hkeeps.2 file hfile⟩
  have hne : calls ≠ [] := by
    rintro rfl
    cases hentry
  refine ⟨fun htext => hkeeps.load (readOptions_toJson hnames hvalues hstorable htext s),
    fun hlong => hkeeps.load_of_not_hasText hstorable hlong,
    hread (s.inputPath.place, e.source) (by simp [files]),
    hread (s.backupPath.place, e.source) (by simp [files, laterFiles]),
    ⟨calls.getLast hne, List.getLast?_eq_getLast_of_ne_nil hne,
      read_outputs_of_callAll h (List.getLast?_eq_getLast_of_ne_nil hne)⟩, ?_⟩
  intro r d₁ d₂ d₁' d₂' hsave houtputs
  obtain ⟨hfirst, hsecond⟩ := read_outputs_of_call (c := .save (.ofResult r)) hsave
  obtain ⟨hfirst', hsecond'⟩ := read_outputs_of_call (c := .outputs r.first r.second) houtputs
  exact ⟨hfirst.trans hfirst'.symm, hsecond.trans hsecond'.symm⟩

/-- Outputs before there is an entry, an entry without a last line end, and the output of a first pass
whose second one is missing. -/
def windowsCalls : List StoreCall :=
  [.outputs (.success "a") (some (.success "b")),
    .save ⟨"a\r\nb\r", "a\nb\n", "a\nb\n", ⟨[("wide", .bool true), ("n", .int (-2))]⟩⟩,
    .outputs (.success "c\n") none]

theorem load_latest_windowsCalls : ∃ d', rootStore.callAll windowsCalls ⟨⟨[]⟩, none⟩ = (.ok (), d') ∧
    rootStore.load d'.tree = .ok ⟨"a\r\nb\r", ⟨[("wide", .bool true), ("n", .int (-2))]⟩⟩ ∧
    d'.tree.read rootStore.firstOutputPath.place = .ok (Text.encodeUtf8 "c\n") ∧
    d'.tree.read rootStore.secondOutputPath.place = .ok (Text.encodeUtf8 "<error>") := by
  have hsaved : (rootStore.callAll windowsCalls ⟨⟨[]⟩, none⟩).1.toBool = true := by decide +kernel
  generalize hcalls : rootStore.callAll windowsCalls ⟨⟨[]⟩, none⟩ = x at hsaved
  obtain ⟨error | _, d'⟩ := x
  · cases hsaved
  · obtain ⟨hload, -, -, -, ⟨c, hlast, hfirst, hsecond⟩, -⟩ := load_latest
      (e := ⟨"a\r\nb\r", "a\nb\n", "a\nb\n", ⟨[("wide", .bool true), ("n", .int (-2))]⟩⟩)
      hcalls rfl (by decide) (by decide) (by simp [Primitive.Storable])
    cases hlast
    exact ⟨d', rfl, hload (by decide +kernel), hfirst, hsecond⟩

/-- An entry whose options hold the least integer with too many digits. -/
def longEntry : CorpusEntry := ⟨"a\n", "a\n", "a\n", Options.longOptions⟩

/-- An entry that was saved last can be one that is not loaded. -/
theorem not_forall_load_latest :
    ¬ ∀ (s : CorpusStore) (calls : List StoreCall) (e : CorpusEntry) (d d' : Disk),
      s.callAll calls d = (.ok (), d') → StoreCall.lastSaved? calls = some e →
        (e.options.entries.map Prod.fst).Nodup → "values" ∉ e.options.entries.map Prod.fst →
        (∀ m ∈ e.options.entries, m.2.Storable) → s.load d'.tree = .ok ⟨e.source, e.options⟩ := by
  intro h
  obtain ⟨d', hsave⟩ := rootStore.exists_save_nil longEntry
  have hcalls : rootStore.callAll ([] ++ [.save longEntry]) ⟨⟨[]⟩, none⟩ = (.ok (), d') :=
    callAll_concat_eq_ok.2 ⟨_, rfl, hsave⟩
  have hload := h rootStore _ longEntry _ d' hcalls rfl (by simp [longEntry, Options.longOptions])
    (by simp [longEntry, Options.longOptions])
    (by simp [longEntry, Options.longOptions, Primitive.Storable])
  obtain ⟨n, -, hlimit⟩ := (keeps_of_save hsave).load_of_not_hasText
    (by simp [longEntry, Options.longOptions, Primitive.Storable])
    ⟨_, List.mem_singleton_self _, Options.not_hasText_long⟩
  rw [hlimit] at hload
  cases hload

end CorpusStore

end FormatFuzz
