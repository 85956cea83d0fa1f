import FormatFuzz.Proofs.Corpus.Files
import FormatFuzz.Proofs.Options

namespace FormatFuzz.CorpusStore

open FileTree

variable {s : CorpusStore} {e : CorpusEntry} {d d' : Disk} {t : FileTree}

/-- The five files of an entry stand in the directory. -/
def Keeps (s : CorpusStore) (f : Nodes) (e : CorpusEntry) : Prop :=
  f.HasDirectories s.directory.place ∧
    ∀ file ∈ s.files e, f file.1 = some (.file (Text.encodeUtf8 file.2))

theorem keeps_of_save (h : s.save e d = (.ok (), d')) : s.Keeps d'.tree.node? e := by
  rw [save_eq_writeAll] at h
  rw [Disk.writeAll_eq_ok (List.cons_ne_nil _ _) files_in_directory nodup_files h]
  constructor
  · exact (Nodes.hasDirectories_withDirectories _ _).withFiles files_in_directory
  · intro file hfile
    exact Nodes.withFiles_of_mem nodup_files hfile

theorem Keeps.load_eq (h : s.Keeps t.node? e) :
    s.load t = (s.readOptions e.options.toJson).map (⟨e.source, ·⟩) := by
  obtain ⟨hdir, hfiles⟩ := h
  have hinput := hfiles (s.inputPath.place, e.source) List.mem_cons_self
  have hlast := List.mem_of_getLast? (getLast?_laterFiles (s := s) (e := e))
  have hjson := hfiles _ (List.mem_cons_of_mem _ hlast)
  rw [load_eq_loadBytes ⟨hdir, hinput, hjson⟩, loadBytes_encodeUtf8_encodeUtf8]

theorem Keeps.load (h : s.Keeps t.node? e)
    (hoptions : s.readOptions e.options.toJson = .ok e.options) :
    s.load t = .ok ⟨e.source, e.options⟩ := by
  rw [h.load_eq, hoptions]
  rfl

theorem Keeps.load_of_not_hasText (h : s.Keeps t.node? e)
    (hstorable : ∀ m ∈ e.options.entries, m.2.Storable)
    (hlong : ∃ m ∈ e.options.entries, m.2.hasText = false) :
    ∃ n, Text.maxDigits < n ∧ s.load t = .error (.limit (.digits n)) := by
  obtain ⟨n, hn, hread⟩ := readOptions_toJson_of_not_hasText hstorable hlong s
  exact ⟨n, hn, by rw [h.load_eq, hread]; rfl⟩

theorem outputFiles_subset (s : CorpusStore) (e : CorpusEntry) :
    ∀ file ∈ s.outputFiles e.firstOutput e.secondOutput, file ∈ s.files e := by
  intro file hfile
  apply List.mem_cons_of_mem
  apply List.mem_cons_of_mem
  exact List.mem_append_left _ hfile

theorem Keeps.writeOutputs (h : s.Keeps d.tree.node? e) (hc : d.credit = none) :
    ∃ t, s.writeOutputs (some (Text.encodeUtf8 e.firstOutput)) (some (Text.encodeUtf8 e.secondOutput)) d =
        (.ok (), ⟨t, none⟩) ∧
      t.node? = d.tree.node? := by
  obtain ⟨hdir, hfiles⟩ := h
  have hsubset := outputFiles_subset s e
  have hplaces : ∀ file ∈ s.outputFiles e.firstOutput e.secondOutput,
      file.1 ≠ [] ∧ file.1.dropLast = s.directory.place :=
    fun file hfile => files_in_directory file (hsubset file hfile)
  have hnodes : ∀ file ∈ s.outputFiles e.firstOutput e.secondOutput,
      d.tree.node? file.1 ≠ some .directory := by
    intro file hfile
    simp [hfiles file (hsubset file hfile)]
  obtain ⟨t, ht⟩ := Disk.exists_writeAll_eq_ok hc hdir.isOpen hplaces hnodes
  refine ⟨t, by rw [writeOutputs_eq_writeAll, ht], ?_⟩
  have hafter := Disk.writeAll_eq_ok (List.cons_ne_nil _ _) hplaces (nodup_outputFiles s _ _) ht
  rw [Nodes.withDirectories_of_hasDirectories hdir] at hafter
  rw [hafter]
  exact Nodes.withFiles_eq_self fun file hfile => hfiles file (hsubset file hfile)

end FormatFuzz.CorpusStore
