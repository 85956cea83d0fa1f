import FormatFuzz.Proofs.Corpus.Files

/-!
# Replacements that stop

A file is replaced completely or not at all, and an entry whose files are replaced one after the other
stops with a first part of them replaced. Neither leaves a temporary file behind: a file that is there
afterwards is one of those replaced, or it was there before with the same bytes.
-/

namespace FormatFuzz

open FileTree

variable {p : Place} {content : Stored} {d : Disk}

/-- A replacement that succeeds leaves the file with its new content, and one that fails leaves what was
there before. Both may have made directories on the way. `atomicWrite` is the replacement with the bytes
of a text. -/
def Disk.ReplacesWhole (p : Place) (content : Stored) (d : Disk) : Prop :=
  match Disk.replace p content d with
  | (.ok (), d') => Nodes.Replaced d.tree.node? d'.tree.node? p.dropLast [(p, content)]
  | (.error _, d') => Nodes.Replaced d.tree.node? d'.tree.node? p.dropLast []

theorem Disk.replacesWhole (p : Place) (content : Stored) (d : Disk) : ReplacesWhole p content d := by
  rw [ReplacesWhole]
  cases h : replace p content d with
  | mk answer d' =>
    cases answer with
    | error e => exact replaced_of_failed h
    | ok u => exact replaced_of_replace h

namespace CorpusStore

/-- A save that stops has replaced a first part of its five files, each of them completely, and all
other places are as they were. It goes on to the end exactly when every replacement succeeds, which
without an interruption asks for a text that can be stored, no file on the way and no directory at the
place of the file. -/
theorem saveStored_stops (s : CorpusStore) (e : StoredEntry) (d : Disk) :
    (∀ p content d, Disk.ReplacesWhole p content d) ∧
      (∀ t p content, (Disk.replace p content ⟨t, none⟩).1 = .ok () ↔
        content.isSome ∧ Nodes.Open t.node? p.dropLast ∧ t.node? p ≠ some .directory) ∧
      ∃ done rest, s.storedFiles e = done ++ rest ∧
        ((s.saveStored e d).1 = .ok () ↔ rest = []) ∧
        Nodes.Replaced d.tree.node? (s.saveStored e d).2.tree.node? s.directory.place done := by
  refine ⟨Disk.replacesWhole, Disk.replace_eq_ok_iff, ?_⟩
  rw [saveStored_eq_replaceAll]
  exact Disk.replaceAll_cases (s.storedFiles_in_directory e) (s.nodup_storedFiles e) d

end CorpusStore

end FormatFuzz
