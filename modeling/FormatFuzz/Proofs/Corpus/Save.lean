import FormatFuzz.Proofs.Corpus.Files

namespace FormatFuzz.CorpusStore

open FileTree

variable {s : CorpusStore} {e : StoredEntry} {d d' : Disk} {old new : Replay} {bytes₁ bytes₂ : List UInt8}

def laterStoredFiles (s : CorpusStore) (e : StoredEntry) : List (Place × Stored) :=
  (s.storedFiles e).tail

theorem saveStored_apply (s : CorpusStore) (e : StoredEntry) (d : Disk) :
    s.saveStored e d = match Disk.replace s.inputPath.place e.source d with
      | (.ok (), d') => Disk.replaceAll (s.laterStoredFiles e) d'
      | (.error err, d') => (.error err, d') := by
  rw [saveStored_eq_replaceAll, storedFiles, Disk.replaceAll, DiskM.bind_apply]
  rcases Disk.replace s.inputPath.place e.source d with ⟨_ | _, d'⟩ <;> rfl

theorem inputPath_notMem_laterStoredFiles :
    s.inputPath.place ∉ (s.laterStoredFiles e).map Prod.fst :=
  (List.nodup_cons.1 (s.nodup_storedFiles e)).1

/-- A first part of the files that is not all of them leaves the options out. -/
theorem optionsPath_notMem {done rest : List (Place × Stored)}
    (hsplit : s.laterStoredFiles e = done ++ rest) (hrest : rest ≠ []) :
    s.optionsPath.place ∉ done.map Prod.fst := by
  have hnodup : ((s.laterStoredFiles e).map Prod.fst).Nodup :=
    (List.nodup_cons.1 (s.nodup_storedFiles e)).2
  have hlast : (s.laterStoredFiles e).getLast? = some (s.optionsPath.place, e.options) := rfl
  rw [hsplit, List.getLast?_append_of_ne_nil _ hrest] at hlast
  have hmem : s.optionsPath.place ∈ rest.map Prod.fst :=
    List.mem_map_of_mem (List.mem_of_getLast? hlast)
  rw [hsplit, List.map_append, List.nodup_append] at hnodup
  exact fun h => hnodup.2.2 _ h _ hmem rfl

theorem Holds.of_failed {err : FileError} (h : s.Holds d.tree.node? bytes₁ bytes₂)
    (hfirst : Disk.replace s.inputPath.place e.source d = (.error err, d')) :
    s.Holds d'.tree.node? bytes₁ bytes₂ := by
  have hkept := (Disk.replaced_of_failed hfirst).kept
  have hplace : s.inputPath.place.dropLast = s.directory.place := by simp [place_inputPath]
  rw [hplace] at hkept
  have hsame : d'.tree.node? = d.tree.node? := by
    funext q
    exact (hkept q List.not_mem_nil).eq_of_hasDirectories h.1
  rwa [hsame]

theorem Holds.of_replace (h : s.Holds d.tree.node? bytes₁ bytes₂)
    (hfirst : Disk.replace s.inputPath.place e.source d = (.ok (), d')) :
    ∃ bytes, e.source = some bytes ∧ s.Holds d'.tree.node? bytes bytes₂ := by
  obtain ⟨hstored, hdirectories, hkept⟩ := Disk.replaced_of_replace hfirst
  have hplace : s.inputPath.place.dropLast = s.directory.place := by simp [place_inputPath]
  have hne : s.optionsPath.place ≠ s.inputPath.place := by
    simp [place_optionsPath, place_inputPath]
  rw [hplace] at hdirectories hkept
  obtain ⟨bytes, hbytes, hinput⟩ := hstored _ List.mem_cons_self
  refine ⟨bytes, hbytes, hdirectories (List.cons_ne_nil _ _), hinput, ?_⟩
  rw [(hkept _ (by simpa using hne)).eq_of_hasDirectories h.1, h.2.2]

/-- The files after the first leave the program as it is, and the options too if they stop early. -/
theorem Holds.of_laterStoredFiles (h : s.Holds d.tree.node? bytes₁ bytes₂)
    (hstop : (Disk.replaceAll (s.laterStoredFiles e) d).1 ≠ .ok ()) :
    s.Holds (Disk.replaceAll (s.laterStoredFiles e) d).2.tree.node? bytes₁ bytes₂ := by
  have hfiles : ∀ f ∈ s.laterStoredFiles e, f.1.dropLast = s.directory.place :=
    fun f hf => s.storedFiles_in_directory e f (List.mem_cons_of_mem _ hf)
  obtain ⟨done, rest, hsplit, hok, hreplaced⟩ :=
    Disk.replaceAll_cases hfiles (List.nodup_cons.1 (s.nodup_storedFiles e)).2 d
  have hsame := fun q hq => (hreplaced.kept q hq).eq_of_hasDirectories h.1
  have hinput : s.inputPath.place ∉ done.map Prod.fst := by
    intro hmem
    have hnot := inputPath_notMem_laterStoredFiles (s := s) (e := e)
    rw [hsplit, List.map_append] at hnot
    exact hnot (List.mem_append_left _ hmem)
  have hoptions := optionsPath_notMem hsplit fun hrest => hstop (hok.2 hrest)
  refine ⟨?_, by rw [hsame _ hinput, h.2.1], by rw [hsame _ hoptions, h.2.2]⟩
  by_cases hdone : done = []
  · subst hdone
    intro q hpre
    rw [hsame q List.not_mem_nil]
    exact h.1 q hpre
  · exact hreplaced.directories hdone

/-- What is loaded after a save that has stopped depends on whether it had replaced its first file. -/
theorem load_saveStored (hload : s.load d.tree = .ok old)
    (hsource : ∀ bytes, e.source = some bytes → bytes = Text.encodeUtf8 new.source)
    (hstop : (s.saveStored e d).1 ≠ .ok ()) :
    s.load (s.saveStored e d).2.tree =
      match (Disk.replace s.inputPath.place e.source d).1 with
      | .error _ => .ok old
      | .ok () => .ok ⟨new.source, old.options⟩ := by
  obtain ⟨bytes₁, bytes₂, hholds⟩ := holds_of_load_eq_ok hload
  have hbytes := load_eq_loadBytes hholds
  rw [saveStored_apply] at hstop ⊢
  cases hfirst : Disk.replace s.inputPath.place e.source d with
  | mk answer d' =>
    rw [hfirst] at hstop
    cases answer with
    | error err =>
      change s.load d'.tree = .ok old
      rw [load_eq_loadBytes (hholds.of_failed hfirst), ← hbytes, hload]
    | ok u =>
      obtain ⟨bytes, hstored, hholds'⟩ := hholds.of_replace hfirst
      obtain rfl := hsource bytes hstored
      simp only at hstop ⊢
      rw [load_eq_loadBytes (hholds'.of_laterStoredFiles hstop)]
      exact loadBytes_encodeUtf8 _ (hbytes.symm.trans hload)

/-- After a save that has stopped early, whether a text could not be stored or a file not be replaced,
the old entry is found as long as the first file has not been replaced. From then on it is the new program
with the old options, which is neither entry unless the two programs or the two options are the same. -/
theorem load_stopped_save (hload : s.load d.tree = .ok old)
    (hsource : ∀ bytes, e.source = some bytes → bytes = Text.encodeUtf8 new.source)
    (hstop : (s.saveStored e d).1 ≠ .ok ()) :
    s.load (s.saveStored e d).2.tree =
        (match (Disk.replace s.inputPath.place e.source d).1 with
          | .error _ => .ok old
          | .ok () => .ok ⟨new.source, old.options⟩) ∧
      ((s.load (s.saveStored e d).2.tree = .ok old ∨ s.load (s.saveStored e d).2.tree = .ok new) ↔
        (Disk.replace s.inputPath.place e.source d).1 ≠ .ok () ∨
          new.source = old.source ∨ new.options = old.options) := by
  have hfound := load_saveStored hload hsource hstop
  obtain ⟨oldSource, oldOptions⟩ := old
  obtain ⟨newSource, newOptions⟩ := new
  refine ⟨hfound, ?_⟩
  cases hfirst : (Disk.replace s.inputPath.place e.source d).1 with
  | error err =>
    rw [hfirst] at hfound
    simp [hfound]
  | ok u =>
    rw [hfirst] at hfound
    rw [hfound]
    simp [eq_comm]

def rootStore : CorpusStore := { directory := ⟨"/", ["corpus"]⟩ }

/-- An entry whose first output is in the way of the next save. -/
def blockedDisk : Disk := ⟨⟨[(["corpus"], .directory),
  (["corpus", "random.py"], .file (Text.encodeUtf8 "a\n")),
  (["corpus", "formatted1.py"], .directory),
  (["corpus", "options.json"], .file (Text.encodeUtf8 "\x7b\n  \"n\": 1\n\x7d"))]⟩, none⟩

def blockedReplay : Replay := ⟨"a\n", ⟨[("n", .int 1)]⟩⟩

def nextEntry : CorpusEntry := ⟨"b\n", "b\n", "b\n", ⟨[]⟩⟩

theorem eq_ok_of_toOption {ε α : Type} {x : Except ε α} {a : α} (h : x.toOption = some a) :
    x = .ok a := by
  cases x with
  | error e => cases h
  | ok b =>
    cases h
    rfl

theorem load_blockedDisk : rootStore.load blockedDisk.tree = .ok blockedReplay :=
  eq_ok_of_toOption (by decide +kernel)

theorem save_blockedDisk : (rootStore.save nextEntry blockedDisk).1 ≠ .ok () := by
  intro h
  have hfalse : (rootStore.save nextEntry blockedDisk).1.toBool = false := by decide +kernel
  rw [h] at hfalse
  cases hfalse

/-- The mixed entry that is found there. -/
theorem load_stopped_save_blockedDisk :
    rootStore.load blockedDisk.tree = .ok blockedReplay ∧
      (rootStore.save nextEntry blockedDisk).1 ≠ .ok () ∧
      rootStore.load (rootStore.save nextEntry blockedDisk).2.tree =
        (match (Disk.atomicWrite rootStore.inputPath.place nextEntry.source blockedDisk).1 with
          | .error _ => .ok blockedReplay
          | .ok () => .ok ⟨nextEntry.source, blockedReplay.options⟩) := by
  have hsource : ∀ bytes, nextEntry.stored.source = some bytes →
      bytes = Text.encodeUtf8 (Replay.source ⟨nextEntry.source, nextEntry.options⟩) :=
    fun _ hbytes => (Option.some.inj hbytes).symm
  have hstopped := load_stopped_save load_blockedDisk hsource save_blockedDisk
  exact ⟨load_blockedDisk, save_blockedDisk, hstopped.1⟩

/-- Not every stopped save leaves one entry or the other. -/
theorem not_forall_stopped_save_whole :
    ¬ ∀ (s : CorpusStore) (e : CorpusEntry) (d : Disk) (old : Replay),
      s.load d.tree = .ok old → (s.save e d).1 ≠ .ok () →
        s.load (s.save e d).2.tree = .ok old ∨
          s.load (s.save e d).2.tree = .ok ⟨e.source, e.options⟩ := by
  intro h
  have hmixed : rootStore.load (rootStore.save nextEntry blockedDisk).2.tree =
      .ok ⟨"b\n", blockedReplay.options⟩ := eq_ok_of_toOption (by decide +kernel)
  have hwhole := h rootStore nextEntry blockedDisk blockedReplay load_blockedDisk save_blockedDisk
  rw [hmixed] at hwhole
  rcases hwhole with hold | hnew
  · exact absurd (Except.ok.inj hold) (by decide)
  · exact absurd (Except.ok.inj hnew) (by decide)

end FormatFuzz.CorpusStore
