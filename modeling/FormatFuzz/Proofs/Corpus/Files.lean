import FormatFuzz.Corpus.Store
import FormatFuzz.Proofs.File.AtomicWrite
import FormatFuzz.Proofs.Text.Utf8

namespace FormatFuzz

open FileTree

def Disk.replaceAll : List (Place × Stored) → DiskM Unit
  | [] => pure ()
  | (p, content) :: files => do
    Disk.replace p content
    Disk.replaceAll files

def storedText (f : Place × String) : Place × Stored := (f.1, some (Text.encodeUtf8 f.2))

def Disk.writeAll (files : List (Place × String)) : DiskM Unit := Disk.replaceAll (files.map storedText)

/-- What is where after some files have been replaced. -/
def FileTree.Nodes.withFiles (f : Nodes) (files : List (Place × String)) : Nodes :=
  files.foldl (fun f e => f.withFile e.1 (Text.encodeUtf8 e.2)) f

namespace FileTree.Nodes

variable {f : Nodes} {p q dir : Place} {files done rest : List (Place × String)}

theorem withFiles_cons (f : Nodes) (e : Place × String) (files : List (Place × String)) :
    f.withFiles (e :: files) = (f.withFile e.1 (Text.encodeUtf8 e.2)).withFiles files := rfl

theorem withFile_self {bytes : List UInt8} : f.withFile p bytes p = some (.file bytes) :=
  Function.update_self ..

theorem withFile_of_ne {bytes : List UInt8} (h : q ≠ p) : f.withFile p bytes q = f q :=
  Function.update_of_ne h ..

theorem withFiles_of_notMem (h : p ∉ files.map Prod.fst) : f.withFiles files p = f p := by
  induction files generalizing f with
  | nil => rfl
  | cons e files ih =>
    rw [List.map_cons, List.mem_cons, not_or] at h
    rw [withFiles_cons, ih h.2, withFile_of_ne h.1]

theorem withFiles_of_mem {text : String} (hnodup : (files.map Prod.fst).Nodup)
    (h : (p, text) ∈ files) :
    f.withFiles files p = some (.file (Text.encodeUtf8 text)) := by
  induction files generalizing f with
  | nil => cases h
  | cons e files ih =>
    rw [List.map_cons, List.nodup_cons] at hnodup
    rw [withFiles_cons]
    rcases List.mem_cons.1 h with rfl | h
    · rw [withFiles_of_notMem hnodup.1, withFile_self]
    · exact ih hnodup.2 h

theorem withFiles_eq_self (h : ∀ e ∈ files, f e.1 = some (.file (Text.encodeUtf8 e.2))) :
    f.withFiles files = f := by
  induction files with
  | nil => rfl
  | cons e files ih =>
    have he : f.withFile e.1 (Text.encodeUtf8 e.2) = f := by
      rw [withFile, ← h e List.mem_cons_self, Function.update_eq_self]
    rw [withFiles_cons, he]
    exact ih fun e' he' => h e' (List.mem_cons_of_mem _ he')

theorem HasDirectories.withFile {bytes : List UInt8} (h : f.HasDirectories p.dropLast)
    (hp : p ≠ []) : (f.withFile p bytes).HasDirectories p.dropLast := by
  intro q hpre
  rw [withFile_of_ne, h q hpre]
  rintro rfl
  exact not_prefix_dropLast hp hpre

theorem HasDirectories.withFiles (h : f.HasDirectories dir)
    (hfiles : ∀ e ∈ files, e.1 ≠ [] ∧ e.1.dropLast = dir) :
    (f.withFiles files).HasDirectories dir := by
  induction files generalizing f with
  | nil => exact h
  | cons e files ih =>
    obtain ⟨hp, rfl⟩ := hfiles e List.mem_cons_self
    exact ih (h.withFile hp) fun e' he' => hfiles e' (List.mem_cons_of_mem _ he')

end FileTree.Nodes

namespace Disk

variable {d : Disk} {dir : Place}

/-- A first part of the files is replaced, all of them exactly when nothing fails. -/
theorem replaceAll_cases {files : List (Place × Stored)} (hfiles : ∀ e ∈ files, e.1.dropLast = dir)
    (hnodup : (files.map Prod.fst).Nodup) (d : Disk) :
    ∃ done rest, files = done ++ rest ∧ ((replaceAll files d).1 = .ok () ↔ rest = []) ∧
      Nodes.Replaced d.tree.node? (replaceAll files d).2.tree.node? dir done := by
  induction files generalizing d with
  | nil =>
    refine ⟨[], [], rfl, ⟨fun _ => rfl, fun _ => rfl⟩, by simp, fun h => absurd rfl h, ?_⟩
    exact fun q _ => .of_eq rfl
  | cons e files ih =>
    obtain ⟨p, content⟩ := e
    obtain rfl := hfiles (p, content) List.mem_cons_self
    rw [List.map_cons, List.nodup_cons] at hnodup
    simp only [replaceAll, DiskM.bind_apply]
    cases hfirst : replace p content d with
    | mk answer d₁ =>
      cases answer with
      | error error =>
        exact ⟨[], (p, content) :: files, rfl, ⟨nofun, nofun⟩, replaced_of_failed hfirst⟩
      | ok u =>
        have hreplaced := replaced_of_replace hfirst
        obtain ⟨done, rest, hsplit, hok, hrest⟩ :=
          ih (fun e he => hfiles e (List.mem_cons_of_mem _ he)) hnodup.2 d₁
        have hdir := hreplaced.directories (List.cons_ne_nil _ _)
        have hsame : ∀ q, q ∉ done.map Prod.fst →
            (replaceAll files d₁).2.tree.node? q = d₁.tree.node? q :=
          fun q hq => (hrest.kept q hq).eq_of_hasDirectories hdir
        have hnot : p ∉ done.map Prod.fst := by
          intro hmem
          rw [hsplit, List.map_append] at hnodup
          exact hnodup.1 (List.mem_append_left _ hmem)
        refine ⟨(p, content) :: done, rest, by rw [hsplit]; rfl, hok, ?_, fun _ => ?_, fun q hq => ?_⟩
        · refine List.forall_mem_cons.2 ⟨?_, hrest.stored⟩
          rw [hsame p hnot]
          exact hreplaced.stored _ List.mem_cons_self
        · by_cases hdone : done = []
          · subst hdone
            intro q hpre
            rw [hsame q List.not_mem_nil]
            exact hdir q hpre
          · exact hrest.directories hdone
        · rw [List.map_cons, List.mem_cons, not_or] at hq
          have hkept := hreplaced.kept q (by simpa using hq.1)
          exact hkept.trans (.of_eq (hsame q hq.2))

variable {files : List (Place × String)}

theorem writeAll_cons (p : Place) (text : String) (files : List (Place × String)) :
    writeAll ((p, text) :: files) = (do
      atomicWrite p text
      writeAll files) := rfl

theorem map_fst_storedText (files : List (Place × String)) :
    (files.map storedText).map Prod.fst = files.map Prod.fst := by
  rw [List.map_map]
  rfl

theorem writeAll_replaced (hfiles : ∀ e ∈ files, e.1.dropLast = dir)
    (hnodup : (files.map Prod.fst).Nodup) (d : Disk) :
    ∃ done rest, files = done ++ rest ∧ ((writeAll files d).1 = .ok () ↔ rest = []) ∧
      (∀ e ∈ done, (writeAll files d).2.tree.node? e.1 = some (.file (Text.encodeUtf8 e.2))) ∧
      (done ≠ [] → Nodes.HasDirectories (writeAll files d).2.tree.node? dir) ∧
      ∀ q, q ∉ done.map Prod.fst → Nodes.Kept d.tree.node? (writeAll files d).2.tree.node? dir q := by
  have hfiles' : ∀ e ∈ files.map storedText, e.1.dropLast = dir := List.forall_mem_map.2 hfiles
  rw [← map_fst_storedText] at hnodup
  obtain ⟨done', rest', hsplit, hok, hreplaced⟩ := replaceAll_cases hfiles' hnodup d
  obtain ⟨done, rest, rfl, rfl, rfl⟩ := List.map_eq_append_iff.1 hsplit
  refine ⟨done, rest, rfl, ?_, ?_, ?_, ?_⟩
  · rw [List.map_eq_nil_iff] at hok
    exact hok
  · intro e he
    obtain ⟨bytes, hbytes, hnode⟩ := hreplaced.stored _ (List.mem_map_of_mem he)
    cases hbytes
    exact hnode
  · exact fun hne => hreplaced.directories (by simpa using hne)
  · rw [← map_fst_storedText]
    exact hreplaced.kept

theorem writeAll_eq_ok {d' : Disk} (hne : files ≠ [])
    (hfiles : ∀ e ∈ files, e.1 ≠ [] ∧ e.1.dropLast = dir) (hnodup : (files.map Prod.fst).Nodup)
    (h : writeAll files d = (.ok (), d')) :
    d'.tree.node? = (Nodes.withDirectories d.tree.node? dir).withFiles files := by
  obtain ⟨done, rest, hsplit, hok, hstored, hdir, hkept⟩ :=
    writeAll_replaced (fun e he => (hfiles e he).2) hnodup d
  rw [h] at hok hstored hdir hkept
  obtain rfl := hok.1 rfl
  rw [List.append_nil] at hsplit
  subst hsplit
  funext q
  by_cases hq : q ∈ files.map Prod.fst
  · obtain ⟨⟨q, text⟩, hmem, rfl⟩ := List.mem_map.1 hq
    rw [hstored _ hmem, Nodes.withFiles_of_mem hnodup hmem]
  · rw [Nodes.withFiles_of_notMem hq, Nodes.withDirectories]
    split
    · next hpre => exact hdir hne q hpre
    · next hpre => exact (hkept q hq).resolve_right fun h => hpre h.1

/-- Files can be replaced in a directory if no file is on the way to it and none of their names is that of
a directory in it, as long as the disk is not interrupted. -/
theorem exists_writeAll_eq_ok (hc : d.credit = none) (hopen : Nodes.Open d.tree.node? dir)
    (hfiles : ∀ e ∈ files, e.1 ≠ [] ∧ e.1.dropLast = dir)
    (hnodes : ∀ e ∈ files, d.tree.node? e.1 ≠ some .directory) :
    ∃ t, writeAll files d = (.ok (), ⟨t, none⟩) := by
  induction files generalizing d with
  | nil =>
    obtain ⟨t, credit⟩ := d
    subst hc
    exact ⟨t, rfl⟩
  | cons e files ih =>
    obtain ⟨p, text⟩ := e
    obtain ⟨hp, rfl⟩ := hfiles (p, text) List.mem_cons_self
    obtain ⟨t, h, ht⟩ := atomicWrite_eq_ok hc hopen (hnodes _ List.mem_cons_self) text
    simp only [writeAll_cons, DiskM.bind_apply, h]
    refine ih rfl ?_ (fun e he => hfiles e (List.mem_cons_of_mem _ he)) fun e he => ?_
    · rw [ht]
      exact ((Nodes.hasDirectories_withDirectories _ _).withFile hp).isOpen
    · rw [ht]
      by_cases heq : e.1 = p
      · simp [heq, Nodes.withFile_self]
      · obtain ⟨hne, hparent⟩ := hfiles e (List.mem_cons_of_mem _ he)
        have hbeside : ¬ e.1 <+: p.dropLast := by
          rw [← hparent]
          exact not_prefix_dropLast hne
        rw [Nodes.withFile_of_ne heq, Nodes.withDirectories, if_neg hbeside]
        exact hnodes e (List.mem_cons_of_mem _ he)

end Disk

namespace CorpusStore

variable {s : CorpusStore} {e : CorpusEntry} {t t' : FileTree} {r : Replay}

theorem place_child {p : Path} {name : String} (hname : Path.ofString name = ⟨"", [name]⟩)
    (hdots : name ≠ "..") : (p.child name).place = p.place ++ [name] := by
  simp [Path.child, Path.join, Path.isAbsolute, hname, Path.place, hdots]

theorem place_inputPath : s.inputPath.place = s.directory.place ++ ["random.py"] :=
  place_child (by decide) (by decide)

theorem place_backupPath : s.backupPath.place = s.directory.place ++ ["random.backup.py"] :=
  place_child (by decide) (by decide)

theorem place_firstOutputPath : s.firstOutputPath.place = s.directory.place ++ ["formatted1.py"] :=
  place_child (by decide) (by decide)

theorem place_secondOutputPath : s.secondOutputPath.place = s.directory.place ++ ["formatted2.py"] :=
  place_child (by decide) (by decide)

theorem place_optionsPath : s.optionsPath.place = s.directory.place ++ ["options.json"] :=
  place_child (by decide) (by decide)

def outputFiles (s : CorpusStore) (first second : String) : List (Place × String) :=
  [(s.firstOutputPath.place, first), (s.secondOutputPath.place, second)]

/-- The files of an entry but the first, in the order in which they are replaced. -/
def laterFiles (s : CorpusStore) (e : CorpusEntry) : List (Place × String) :=
  (s.backupPath.place, e.source) ::
    (s.outputFiles e.firstOutput e.secondOutput ++ [(s.optionsPath.place, e.options.toJson)])

def files (s : CorpusStore) (e : CorpusEntry) : List (Place × String) :=
  (s.inputPath.place, e.source) :: s.laterFiles e

def storedFiles (s : CorpusStore) (e : StoredEntry) : List (Place × Stored) :=
  [(s.inputPath.place, e.source), (s.backupPath.place, e.source),
    (s.firstOutputPath.place, e.firstOutput), (s.secondOutputPath.place, e.secondOutput),
    (s.optionsPath.place, e.options)]

theorem writeOutputs_eq_writeAll (first second : String) :
    s.writeOutputs (some (Text.encodeUtf8 first)) (some (Text.encodeUtf8 second)) =
      Disk.writeAll (s.outputFiles first second) := by
  simp [writeOutputs, outputFiles, Disk.writeAll, storedText, Disk.replaceAll]

/-- Saved alone, the passes have the outputs that an entry has for them. -/
theorem saveOutputs_eq (first : Outcome) (second : Option Outcome) : s.saveOutputs first second =
    s.writeOutputs (some (Text.encodeUtf8 (CorpusEntry.outputOf first)))
      (some (Text.encodeUtf8 (CorpusEntry.outputOf second))) := by
  cases first with
  | success output => rcases second with _ | _ | _ <;> rfl
  | failed failure => rcases second with _ | _ | _ <;> rfl

theorem saveStored_eq_replaceAll (e : StoredEntry) :
    s.saveStored e = Disk.replaceAll (s.storedFiles e) := by
  simp [saveStored, writeOutputs, storedFiles, Disk.replaceAll]

theorem save_eq_writeAll : s.save e = Disk.writeAll (s.files e) := saveStored_eq_replaceAll e.stored

theorem files_in_directory : ∀ f ∈ s.files e, f.1 ≠ [] ∧ f.1.dropLast = s.directory.place := by
  simp [files, laterFiles, outputFiles, place_inputPath, place_backupPath, place_firstOutputPath,
    place_secondOutputPath, place_optionsPath]

theorem nodup_files : ((s.files e).map Prod.fst).Nodup := by
  simp [files, laterFiles, outputFiles, place_inputPath, place_backupPath, place_firstOutputPath,
    place_secondOutputPath, place_optionsPath]

theorem exists_save_nil (s : CorpusStore) (e : CorpusEntry) :
    ∃ d', s.save e ⟨⟨[]⟩, none⟩ = (.ok (), d') := by
  obtain ⟨t, ht⟩ := Disk.exists_writeAll_eq_ok (d := ⟨⟨[]⟩, none⟩) rfl (open_nil s.directory.place)
    (files_in_directory (s := s) (e := e)) fun f hf => by simp [node?_nil (files_in_directory f hf).1]
  exact ⟨⟨t, none⟩, by rw [save_eq_writeAll, ht]⟩

theorem outputFiles_in_directory (s : CorpusStore) (first second : String) :
    ∀ f ∈ s.outputFiles first second, f.1.dropLast = s.directory.place := by
  simp [outputFiles, place_firstOutputPath, place_secondOutputPath]

theorem nodup_outputFiles (s : CorpusStore) (first second : String) :
    ((s.outputFiles first second).map Prod.fst).Nodup := by
  simp [outputFiles, place_firstOutputPath, place_secondOutputPath]

theorem storedFiles_in_directory (s : CorpusStore) (e : StoredEntry) :
    ∀ f ∈ s.storedFiles e, f.1.dropLast = s.directory.place := by
  simp [storedFiles, place_inputPath, place_backupPath, place_firstOutputPath, place_secondOutputPath,
    place_optionsPath]

theorem nodup_storedFiles (s : CorpusStore) (e : StoredEntry) :
    ((s.storedFiles e).map Prod.fst).Nodup := by
  simp [storedFiles, place_inputPath, place_backupPath, place_firstOutputPath, place_secondOutputPath,
    place_optionsPath]

theorem getLast?_laterFiles :
    (s.laterFiles e).getLast? = some (s.optionsPath.place, e.options.toJson) := by
  simp [laterFiles, outputFiles]

def loadBytes (s : CorpusStore) (bytes₁ bytes₂ : List UInt8) : Except CorpusError Replay := do
  let source ← (Text.decodeUtf8 bytes₁).mapError .encoding
  let text ← (Text.decodeUtf8 bytes₂).mapError .encoding
  let options ← s.readOptions text
  return ⟨source, options⟩

def Holds (s : CorpusStore) (f : Nodes) (bytes₁ bytes₂ : List UInt8) : Prop :=
  f.HasDirectories s.directory.place ∧ f s.inputPath.place = some (.file bytes₁) ∧
    f s.optionsPath.place = some (.file bytes₂)

variable {bytes₁ bytes₂ : List UInt8}

theorem holds_iff_read : s.Holds t.node? bytes₁ bytes₂ ↔
    t.read s.inputPath.place = .ok bytes₁ ∧ t.read s.optionsPath.place = .ok bytes₂ := by
  have hplace₁ : s.inputPath.place.dropLast = s.directory.place := by simp [place_inputPath]
  have hplace₂ : s.optionsPath.place.dropLast = s.directory.place := by simp [place_optionsPath]
  rw [read_eq_ok_iff, read_eq_ok_iff, hplace₁, hplace₂, Holds]
  exact ⟨fun ⟨h, h₁, h₂⟩ => ⟨⟨h, h₁⟩, h, h₂⟩, fun ⟨⟨h, h₁⟩, _, h₂⟩ => ⟨h, h₁, h₂⟩⟩

theorem load_eq_loadBytes (h : s.Holds t.node? bytes₁ bytes₂) :
    s.load t = s.loadBytes bytes₁ bytes₂ := by
  obtain ⟨h₁, h₂⟩ := holds_iff_read.1 h
  have hexists : s.exists? t = true := by
    simp [exists?, exists?_eq, h.2.1, h.2.2]
  simp only [load, hexists, readText, h₁, h₂, loadBytes]
  rfl

theorem holds_of_load_eq_ok (h : s.load t = .ok r) :
    ∃ bytes₁ bytes₂, s.Holds t.node? bytes₁ bytes₂ := by
  simp only [load, readText] at h
  split at h
  · cases h
  · cases h₁ : t.read s.inputPath.place with
    | error e => simp [h₁, bind, Except.bind, Except.mapError] at h
    | ok bytes₁ =>
      cases h₂ : t.read s.optionsPath.place with
      | error e =>
        cases hd : Text.decodeUtf8 bytes₁ <;>
          simp [h₁, h₂, hd, bind, Except.bind, Except.mapError] at h
      | ok bytes₂ => exact ⟨bytes₁, bytes₂, holds_iff_read.2 ⟨h₁, h₂⟩⟩

theorem loadBytes_eq (s : CorpusStore) (bytes₁ bytes₂ : List UInt8) :
    s.loadBytes bytes₁ bytes₂ = match Text.decodeUtf8 bytes₁, Text.decodeUtf8 bytes₂ with
      | .error e, _ => .error (.encoding e)
      | .ok _, .error e => .error (.encoding e)
      | .ok source, .ok text => (s.readOptions text).map (⟨source, ·⟩) := by
  unfold loadBytes
  cases Text.decodeUtf8 bytes₁ with
  | error e => rfl
  | ok source =>
    cases Text.decodeUtf8 bytes₂ with
    | error e => rfl
    | ok text =>
      simp only [bind, Except.bind, Except.mapError]
      cases s.readOptions text <;> rfl

theorem loadBytes_encodeUtf8 (source : String) (h : s.loadBytes bytes₁ bytes₂ = .ok r) :
    s.loadBytes (Text.encodeUtf8 source) bytes₂ = .ok ⟨source, r.options⟩ := by
  rw [loadBytes_eq] at h ⊢
  rw [Text.decodeUtf8_encodeUtf8]
  cases h₁ : Text.decodeUtf8 bytes₁ with
  | error e =>
    rw [h₁] at h
    cases h
  | ok source' =>
    cases h₂ : Text.decodeUtf8 bytes₂ with
    | error e =>
      rw [h₁, h₂] at h
      cases h
    | ok text =>
      rw [h₁, h₂] at h
      simp only at h ⊢
      cases ho : s.readOptions text with
      | error e =>
        rw [ho] at h
        cases h
      | ok options =>
        rw [ho] at h
        cases h
        rfl

theorem loadBytes_encodeUtf8_encodeUtf8 (source text : String) :
    s.loadBytes (Text.encodeUtf8 source) (Text.encodeUtf8 text) =
      (s.readOptions text).map (⟨source, ·⟩) := by
  rw [loadBytes_eq, Text.decodeUtf8_encodeUtf8, Text.decodeUtf8_encodeUtf8]

end CorpusStore

end FormatFuzz
