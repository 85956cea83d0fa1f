import FormatFuzz.File.Tree
import Mathlib.Data.List.Basic
import Mathlib.Logic.Function.Basic

/-!
# What is where in a tree of files

A tree is used through `node?` alone: every operation on it changes `node?` at one place or makes the
directories on one way, and what it does depends on nothing else. The statements below say so
operation by operation, so that no later proof looks at the list behind a tree.
-/

namespace FormatFuzz.FileTree

abbrev Nodes := Place → Option FileNode

def Nodes.withDirectories (f : Nodes) (p : Place) : Nodes :=
  fun q => if q <+: p then some .directory else f q

def Nodes.withFile (f : Nodes) (p : Place) (bytes : List UInt8) : Nodes :=
  Function.update f p (some (.file bytes))

/-- No file stands on the way to a place or at the place. -/
def Nodes.Open (f : Nodes) (p : Place) : Prop := ∀ q, q <+: p → ∀ bytes, f q ≠ some (.file bytes)

def Nodes.HasDirectories (f : Nodes) (p : Place) : Prop := ∀ q, q <+: p → f q = some .directory

variable {t t' : FileTree} {p q : Place} {n : FileNode} {bytes : List UInt8}

@[simp] theorem node?_root (t : FileTree) : t.node? [] = some .directory := rfl

theorem node?_of_ne (hq : q ≠ []) : t.node? q = t.entries.lookup q := by
  simp [node?, hq]

theorem node?_nil (hq : q ≠ []) : (FileTree.mk []).node? q = none := by
  rw [node?_of_ne hq]
  rfl

theorem open_nil (p : Place) : Nodes.Open (FileTree.mk []).node? p := by
  intro q _ bytes h
  by_cases hq : q = []
  · subst hq
    cases h
  · rw [node?_nil hq] at h
    cases h

theorem exists?_eq (t : FileTree) (p : Place) : t.exists? p = (t.node? p).isSome := rfl

theorem lookup_cons_ne {r : Place} (h : q ≠ r) (l : List (Place × FileNode)) :
    ((r, n) :: l).lookup q = l.lookup q := by
  simp only [List.lookup_cons, beq_eq_false_iff_ne.2 h]

theorem lookup_filter_ne (l : List (Place × FileNode)) (p q : Place) :
    (l.filter fun e => e.1 != p).lookup q = if q = p then none else l.lookup q := by
  induction l with
  | nil => simp
  | cons e l ih =>
    obtain ⟨r, n⟩ := e
    by_cases hr : r = p
    · subst hr
      rw [List.filter_cons_of_neg (by simp), ih]
      by_cases hq : q = r
      · simp [hq]
      · rw [lookup_cons_ne hq]
    · rw [List.filter_cons_of_pos (by simpa using hr)]
      by_cases hq : q = r
      · subst hq
        simp [hr]
      · rw [lookup_cons_ne hq, lookup_cons_ne hq, ih]

theorem node?_put (hp : p ≠ []) :
    (t.put p n).node? = Function.update t.node? p (some n) := by
  funext q
  by_cases hq : q = []
  · subst hq
    simp [Function.update_of_ne (Ne.symm hp)]
  · rw [node?_of_ne hq]
    by_cases h : q = p
    · subst h
      simp [put]
    · rw [Function.update_of_ne h, node?_of_ne hq, put, lookup_cons_ne h, lookup_filter_ne, if_neg h]

theorem node?_erase (hp : p ≠ []) : (t.erase p).node? = Function.update t.node? p none := by
  funext q
  by_cases hq : q = []
  · subst hq
    simp [Function.update_of_ne (Ne.symm hp)]
  · rw [node?_of_ne hq, erase, lookup_filter_ne]
    by_cases h : q = p
    · simp [h]
    · rw [if_neg h, Function.update_of_ne h, node?_of_ne hq]

theorem prefix_dropLast (hpre : q <+: p) (hne : q ≠ p) : q <+: p.dropLast := by
  by_cases hp : p = []
  · subst hp
    exact absurd (List.prefix_nil.1 hpre) hne
  · rw [← List.dropLast_append_getLast hp, List.prefix_concat_iff,
      List.dropLast_append_getLast hp] at hpre
    exact hpre.resolve_left hne

theorem not_prefix_dropLast (hp : p ≠ []) : ¬ p <+: p.dropLast := by
  intro hpre
  have := hpre.length_le
  have := List.length_pos_of_ne_nil hp
  simp at *
  omega

/-- A way can be walked when all places on it but the last are directories. -/
theorem walk_eq_ok_iff (t : FileTree) (done p : Place) :
    t.walk done p = .ok () ↔
      ∀ q, q ≠ [] → q <+: p → q ≠ p → t.node? (done ++ q) = some .directory := by
  induction p generalizing done with
  | nil =>
    simp only [walk, List.prefix_nil, true_iff]
    exact fun q hq he => absurd he hq
  | cons n rest ih =>
    cases rest with
    | nil =>
      simp only [walk, true_iff]
      intro q hq hpre hne
      exact absurd (List.prefix_nil.1 (prefix_dropLast hpre hne)) hq
    | cons m rest =>
      simp only [walk]
      have hone : [n] <+: n :: m :: rest := ⟨m :: rest, rfl⟩
      constructor
      · intro h q hq hpre hne
        split at h
        · cases h
        · cases h
        · next hn =>
          obtain ⟨a, q, rfl⟩ := List.exists_cons_of_ne_nil hq
          obtain ⟨rfl, hrest⟩ := List.cons_prefix_cons.1 hpre
          by_cases hq' : q = []
          · subst hq'
            exact hn
          · have := (ih (done ++ [a])).1 h q hq' hrest (fun he => hne (by rw [he]))
            simpa using this
      · intro h
        rw [h [n] (by simp) hone (by simp)]
        refine (ih (done ++ [n])).2 fun q hq hpre hne => ?_
        have := h (n :: q) (by simp) (List.cons_prefix_cons.2 ⟨rfl, hpre⟩) (by simpa using hne)
        simpa using this

/-- The way to a place can be walked exactly when the directory that holds it is there. -/
theorem walk_root_eq_ok_iff : t.walk [] p = .ok () ↔ Nodes.HasDirectories t.node? p.dropLast := by
  rw [walk_eq_ok_iff]
  constructor
  · intro h q hpre
    by_cases hq : q = []
    · subst hq
      rfl
    · refine h q hq (hpre.trans (List.dropLast_prefix p)) ?_
      rintro rfl
      exact not_prefix_dropLast hq hpre
  · exact fun h q _ hpre hne => h q (prefix_dropLast hpre hne)

theorem read_eq_ok_iff :
    t.read p = .ok bytes ↔
      Nodes.HasDirectories t.node? p.dropLast ∧ t.node? p = some (.file bytes) := by
  rw [← walk_root_eq_ok_iff]
  simp only [read]
  cases hw : t.walk [] p with
  | error e => simp [bind, Except.bind]
  | ok u =>
    rcases hn : t.node? p with _ | _ | b <;> simp [bind, Except.bind]

theorem write_eq_ok_iff :
    t.write p bytes = .ok t' ↔
      Nodes.HasDirectories t.node? p.dropLast ∧ t.node? p ≠ some .directory ∧
        t' = t.put p (.file bytes) := by
  rw [← walk_root_eq_ok_iff]
  simp only [write]
  cases hw : t.walk [] p with
  | error e => simp [bind, Except.bind]
  | ok u =>
    rcases hn : t.node? p with _ | _ | b <;> simp [bind, Except.bind, eq_comm]

def OnWay (done rest q : Place) : Prop := ∃ r, r ≠ [] ∧ r <+: rest ∧ q = done ++ r

theorem onWay_cons {done rest : Place} {m : String} :
    OnWay done (m :: rest) q ↔ q = done ++ [m] ∨ OnWay (done ++ [m]) rest q := by
  constructor
  · rintro ⟨r, hr, hpre, rfl⟩
    obtain ⟨a, r, rfl⟩ := List.exists_cons_of_ne_nil hr
    obtain ⟨rfl, hrest⟩ := List.cons_prefix_cons.1 hpre
    by_cases hr' : r = []
    · subst hr'
      exact .inl rfl
    · exact .inr ⟨r, hr', hrest, by simp⟩
  · rintro (rfl | ⟨r, _, hpre, rfl⟩)
    · exact ⟨[m], by simp, ⟨rest, rfl⟩, rfl⟩
    · exact ⟨m :: r, by simp, List.cons_prefix_cons.2 ⟨rfl, hpre⟩, by simp⟩

theorem onWay_root : OnWay [] p q ↔ q ≠ [] ∧ q <+: p := by
  simp [OnWay]

theorem makeFrom_cons {done rest : Place} {m : String} (h : t.makeFrom done (m :: rest) = .ok t') :
    (∀ b, t.node? (done ++ [m]) ≠ some (.file b)) ∧
      ∃ u : FileTree, u.node? = Function.update t.node? (done ++ [m]) (some .directory) ∧
        u.makeFrom (done ++ [m]) rest = .ok t' := by
  simp only [makeFrom] at h
  split at h
  · next hn => exact ⟨by simp [hn], _, node?_put (by simp), h⟩
  · next hn => exact ⟨by simp [hn], t, by rw [← hn, Function.update_eq_self], h⟩
  · cases h

theorem makeFrom_ok (done rest : Place) (h : t.makeFrom done rest = .ok t') (q : Place) :
    (OnWay done rest q → t'.node? q = some .directory ∧ ∀ b, t.node? q ≠ some (.file b)) ∧
      (¬ OnWay done rest q → t'.node? q = t.node? q) := by
  induction rest generalizing t done with
  | nil =>
    simp only [makeFrom, Except.ok.injEq] at h
    subst h
    refine ⟨fun ⟨r, hr, hpre, _⟩ => absurd (List.prefix_nil.1 hpre) hr, fun _ => rfl⟩
  | cons m rest ih =>
    obtain ⟨hfree, u, hu, h⟩ := makeFrom_cons h
    obtain ⟨hon, hoff⟩ := ih _ h
    rw [hu] at hon hoff
    constructor
    · intro hway
      by_cases hq : q = done ++ [m]
      · subst hq
        refine ⟨?_, hfree⟩
        by_cases hq : OnWay (done ++ [m]) rest (done ++ [m])
        · exact (hon hq).1
        · rw [hoff hq, Function.update_self]
      · have hrest := hon ((onWay_cons.1 hway).resolve_left hq)
        rwa [Function.update_of_ne hq] at hrest
    · intro hway
      rw [onWay_cons, not_or] at hway
      rw [hoff hway.2, Function.update_of_ne hway.1]

theorem exists_makeFrom_eq_ok (done rest : Place)
    (h : ∀ q, OnWay done rest q → ∀ b, t.node? q ≠ some (.file b)) :
    ∃ t', t.makeFrom done rest = .ok t' := by
  induction rest generalizing t done with
  | nil => exact ⟨t, rfl⟩
  | cons m rest ih =>
    have hhere := h (done ++ [m]) (onWay_cons.2 (.inl rfl))
    simp only [makeFrom]
    split
    · refine ih _ fun q hq b => ?_
      rw [node?_put (by simp)]
      by_cases he : q = done ++ [m]
      · simp [he]
      · rw [Function.update_of_ne he]
        exact h q (onWay_cons.2 (.inr hq)) b
    · exact ih _ fun q hq => h q (onWay_cons.2 (.inr hq))
    · next b hn => exact absurd hn (hhere b)

/-- Directories can be made exactly when no file is in the way, and nothing else changes. -/
theorem makeDirectories_spec (t : FileTree) (p : Place) :
    (Nodes.Open t.node? p → ∃ t', t.makeDirectories p = .ok t') ∧
      ∀ t', t.makeDirectories p = .ok t' →
        Nodes.Open t.node? p ∧ t'.node? = Nodes.withDirectories t.node? p := by
  constructor
  · exact fun h => exists_makeFrom_eq_ok [] p fun q hq => h q (onWay_root.1 hq).2
  · intro t' h
    have hq := makeFrom_ok [] p h
    refine ⟨fun q hpre b => ?_, ?_⟩
    · by_cases hr : q = []
      · subst hr
        simp
      · exact ((hq q).1 (onWay_root.2 ⟨hr, hpre⟩)).2 b
    · funext q
      rw [Nodes.withDirectories]
      by_cases hr : q = []
      · subst hr
        simp
      · split
        · next hpre => exact ((hq q).1 (onWay_root.2 ⟨hr, hpre⟩)).1
        · next hpre => exact (hq q).2 fun hw => hpre (onWay_root.1 hw).2

theorem Nodes.withDirectories_of_hasDirectories {f : Nodes} (h : f.HasDirectories p) :
    f.withDirectories p = f := by
  funext q
  rw [withDirectories]
  split
  · next hpre => exact (h q hpre).symm
  · rfl

theorem Nodes.hasDirectories_withDirectories (f : Nodes) (p : Place) :
    (f.withDirectories p).HasDirectories p := by
  intro q hpre
  simp [withDirectories, hpre]

theorem Nodes.HasDirectories.isOpen {f : Nodes} (h : f.HasDirectories p) : f.Open p := by
  intro q hpre b
  simp [h q hpre]

/-- A place is as it was, or it is a directory that was missing on the way to another one. -/
def Nodes.Kept (f g : Nodes) (dir q : Place) : Prop :=
  g q = f q ∨ q <+: dir ∧ f q = none ∧ g q = some .directory

variable {f g h : Nodes} {dir : Place}

theorem Nodes.Kept.of_eq (he : g q = f q) : f.Kept g dir q := .inl he

theorem Nodes.Kept.trans (hfg : f.Kept g dir q) (hgh : g.Kept h dir q) : f.Kept h dir q := by
  rcases hgh with hgh | ⟨hpre, hnone, hmade⟩
  · rcases hfg with hfg | ⟨hpre, hnone, hmade⟩
    · exact .inl (hgh.trans hfg)
    · exact .inr ⟨hpre, hnone, hgh.trans hmade⟩
  · rcases hfg with hfg | ⟨_, _, hdir⟩
    · exact .inr ⟨hpre, hfg.symm.trans hnone, hmade⟩
    · rw [hdir] at hnone
      cases hnone

/-- Where directories are there already nothing is made. -/
theorem Nodes.Kept.eq_of_hasDirectories (hkept : f.Kept g dir q) (hdir : f.HasDirectories dir) :
    g q = f q := by
  rcases hkept with he | ⟨hpre, hnone, _⟩
  · exact he
  · rw [hdir q hpre] at hnone
    cases hnone

theorem Nodes.Kept.file_iff (hkept : f.Kept g dir q) :
    g q = some (.file bytes) ↔ f q = some (.file bytes) := by
  rcases hkept with he | ⟨_, hnone, hmade⟩
  · rw [he]
  · simp [hnone, hmade]

theorem Nodes.Open.kept (hopen : f.Open dir) (q : Place) : f.Kept (f.withDirectories dir) dir q := by
  by_cases hpre : q <+: dir
  · have hmade : f.withDirectories dir q = some .directory := if_pos hpre
    cases hq : f q with
    | none => exact .inr ⟨hpre, hq, hmade⟩
    | some node =>
      cases node with
      | directory => exact .inl (hmade.trans hq.symm)
      | file b => exact absurd hq (hopen q hpre b)
  · exact .inl (if_neg hpre)

end FormatFuzz.FileTree
