import FormatFuzz.File.Disk
import FormatFuzz.Proofs.File.Nodes
import Mathlib.Data.List.Nodup
import Mathlib.Data.List.Perm.Subperm

namespace FormatFuzz

open FileTree

namespace DiskM

variable {α β : Type}

theorem bind_apply (x : DiskM α) (f : α → DiskM β) (d : Disk) :
    (x >>= f) d = match x d with
      | (.ok a, d') => f a d'
      | (.error e, d') => (.error e, d') := by
  change (ExceptT.bind x f) d = _
  simp only [ExceptT.bind, ExceptT.mk, bind, StateT.bind, ExceptT.bindCont]
  rcases x d with ⟨_ | _, d'⟩ <;> rfl

theorem tryCatch_apply (x : DiskM α) (f : FileError → DiskM α) (d : Disk) :
    tryCatch x f d = match x d with
      | (.ok a, d') => (.ok a, d')
      | (.error e, d') => f e d' := by
  change (ExceptT.tryCatch x f) d = _
  simp only [ExceptT.tryCatch, ExceptT.mk, bind, StateT.bind]
  rcases x d with ⟨_ | _, d'⟩ <;> rfl

theorem get_apply (d : Disk) : (get : DiskM Disk) d = (.ok d, d) := rfl

end DiskM

namespace Disk

variable {p : Place} {d d' : Disk} {action : FileTree → Except FileError FileTree}

/-- An action that fails changes nothing, and only an interrupted disk fails on its own account. -/
theorem act_cases (action : FileTree → Except FileError FileTree) (d : Disk) :
    (∃ e, act action d = (.error e, d) ∧ (d.credit = none → action d.tree = .error e)) ∨
      ∃ t, action d.tree = .ok t ∧ act action d = (.ok (), ⟨t, d.credit.map (· - 1)⟩) := by
  unfold act
  split
  · next hc => exact .inl ⟨_, rfl, by simp [hc]⟩
  · split
    · next e he => exact .inl ⟨e, rfl, fun _ => he⟩
    · next t ht => exact .inr ⟨t, ht, rfl⟩

def spareName (p : Place) (n : Nat) : String := "." ++ p.getLast?.getD "" ++ "." ++ toString n ++ ".tmp"

theorem spareName_injective (p : Place) : Function.Injective (spareName p) := by
  intro m n h
  simp only [spareName, String.append_left_inj, String.append_right_inj] at h
  have := congrArg (fun s : String => Nat.ofDigitChars 10 s.toList 0) h
  simpa [Nat.toString_eq_ofList_toDigits, Nat.ofDigitChars_ten_toDigits] using this

theorem spareName_ne (p : Place) (n : Nat) : p.getLast? ≠ some (spareName p n) := by
  intro h
  have hlen := congrArg (fun o : Option String => (o.getD "").length) h
  simp only [spareName, Option.getD_some, String.length_append] at hlen
  have : ".".length = 1 := rfl
  omega

/-- A file is filled where nothing stood before, beside its own place. -/
theorem temporary_spec (t : FileTree) (p : Place) :
    ∃ n, temporary t p = p.dropLast ++ [spareName p n] ∧ t.node? (temporary t p) = none := by
  -- one of more candidates than there are entries is free
  have hex : ∃ n ∈ List.range (t.entries.length + 1),
      t.exists? (p.dropLast ++ [spareName p n]) = false := by
    by_contra! hall
    have hsub : (List.range (t.entries.length + 1)).map (fun n => p.dropLast ++ [spareName p n]) ⊆
        t.entries.map Prod.fst := by
      intro c hc
      obtain ⟨n, hn, rfl⟩ := List.mem_map.1 hc
      have := hall n hn
      rw [exists?_eq, node?_of_ne (by simp)] at this
      simp only [ne_eq, Bool.not_eq_false, Option.isSome_iff_exists] at this
      obtain ⟨node, hnode⟩ := this
      obtain ⟨l₁, l₂, hl, _⟩ := List.lookup_eq_some_iff.1 hnode
      simp [hl]
    have hnodup : ((List.range (t.entries.length + 1)).map
        fun n => p.dropLast ++ [spareName p n]).Nodup := by
      refine List.Nodup.map (fun m n h => spareName_injective p ?_) List.nodup_range
      simpa using h
    have hlen := (hnodup.subperm hsub).length_le
    simp only [List.length_map, List.length_range] at hlen
    omega
  obtain ⟨n, hn, hfree⟩ := hex
  have hfound : ∃ c, ((List.range (t.entries.length + 1)).map
      fun n => p.dropLast ++ [spareName p n]).find? (fun c => !t.exists? c) = some c := by
    rw [← Option.isSome_iff_exists, List.find?_isSome]
    exact ⟨_, List.mem_map.2 ⟨n, hn, rfl⟩, by simp [hfree]⟩
  obtain ⟨c, hc⟩ := hfound
  have htemp : temporary t p = c := by
    simp only [temporary]
    exact congrArg (fun o : Option Place => o.getD _) hc
  obtain ⟨m, _, hm⟩ := List.mem_map.1 (List.mem_of_find?_eq_some hc)
  have hnone : t.exists? c = false := by simpa using List.find?_some hc
  exact ⟨m, by rw [htemp, ← hm], by rw [htemp]; simpa [exists?_eq] using hnone⟩

theorem temporary_ne_root (t : FileTree) (p : Place) : temporary t p ≠ [] := by
  obtain ⟨n, hn, _⟩ := temporary_spec t p
  simp [hn]

theorem dropLast_temporary (t : FileTree) (p : Place) : (temporary t p).dropLast = p.dropLast := by
  obtain ⟨n, hn, _⟩ := temporary_spec t p
  simp [hn]

theorem temporary_ne (t : FileTree) (p : Place) : temporary t p ≠ p := by
  obtain ⟨n, hn, _⟩ := temporary_spec t p
  intro h
  have hlast : (p.dropLast ++ [spareName p n]).getLast? = p.getLast? := by rw [← hn, h]
  rw [List.getLast?_concat] at hlast
  exact spareName_ne p n hlast.symm

theorem hasDirectories_put {t : FileTree} {spare : Place} (hspare : spare ≠ []) (n : FileNode)
    (h : Nodes.HasDirectories t.node? spare.dropLast) :
    Nodes.HasDirectories (t.put spare n).node? spare.dropLast := by
  intro q hpre
  rw [node?_put hspare, Function.update_of_ne, h q hpre]
  rintro rfl
  exact not_prefix_dropLast hspare hpre

theorem rename_cases {t : FileTree} {spare : Place} {bytes : List UInt8} (hspare : spare ≠ [])
    (hne : spare ≠ p) (hlast : spare.dropLast = p.dropLast)
    (hdir : Nodes.HasDirectories t.node? spare.dropLast) (hfile : t.node? spare = some (.file bytes)) :
    (∃ e, t.rename spare p = .error e ∧ t.node? p = some .directory) ∨
      ∃ t', t.rename spare p = .ok t' ∧ t.node? p ≠ some .directory ∧
        t'.node? = Nodes.withFile (Function.update t.node? spare none) p bytes := by
  have hread : t.read spare = .ok bytes := read_eq_ok_iff.2 ⟨hdir, hfile⟩
  have hsame : (t.erase spare).node? p = t.node? p := by
    rw [node?_erase hspare, Function.update_of_ne (Ne.symm hne)]
  simp only [rename, hread, bind, Except.bind]
  cases hw : (t.erase spare).write p bytes with
  | error e =>
    refine .inl ⟨e, rfl, ?_⟩
    by_contra hnode
    have hdir' : Nodes.HasDirectories (t.erase spare).node? p.dropLast := by
      intro q hpre
      rw [node?_erase hspare, Function.update_of_ne, hdir q (hlast ▸ hpre)]
      rintro rfl
      rw [hdir _ (hlast ▸ hpre)] at hfile
      cases hfile
    rw [write_eq_ok_iff.2 ⟨hdir', hsame ▸ hnode, rfl⟩] at hw
    cases hw
  | ok t' =>
    obtain ⟨_, hnode, rfl⟩ := write_eq_ok_iff.1 hw
    -- only a directory stands at the root
    have hp : p ≠ [] := by
      rintro rfl
      exact hnode rfl
    exact .inr ⟨_, rfl, hsame ▸ hnode, by rw [node?_put hp, node?_erase hspare, Nodes.withFile]⟩

variable {content : Stored}

/-- A file that is there is filled if what it is filled with has bytes and the disk is not interrupted. -/
theorem fill_cases {spare : Place} {b : List UInt8} (hspare : spare ≠ [])
    (hdir : Nodes.HasDirectories d.tree.node? spare.dropLast)
    (hfile : d.tree.node? spare = some (.file b)) (content : Stored) :
    (∃ e, fill spare content d = (.error e, d) ∧ (d.credit = none → content = none)) ∨
      ∃ bytes d', content = some bytes ∧ fill spare content d = (.ok (), d') ∧
        d'.credit = d.credit.map (· - 1) ∧
        d'.tree.node? = Function.update d.tree.node? spare (some (.file bytes)) := by
  cases content with
  | none =>
    rcases act_cases (fun _ => .error .unencodable) d with ⟨e, h, -⟩ | ⟨t, ht, -⟩
    · exact .inl ⟨e, h, fun _ => rfl⟩
    · cases ht
  | some bytes =>
    have hok : d.tree.write spare bytes = .ok _ := write_eq_ok_iff.2 ⟨hdir, by simp [hfile], rfl⟩
    rcases act_cases (fun t => t.write spare bytes) d with ⟨e, h, he⟩ | ⟨t, ht, h⟩
    · refine .inl ⟨e, h, fun hc => ?_⟩
      have herror := he hc
      simp only [hok] at herror
      cases herror
    · obtain ⟨_, _, rfl⟩ := write_eq_ok_iff.1 ht
      exact .inr ⟨bytes, _, rfl, h, rfl, node?_put hspare⟩

/-- A file beside a place ends there with its new content, or is gone with all else as it was, because
the disk was interrupted, the content has no bytes or the place is a directory. -/
theorem fillAndMove_cases {spare : Place} {b : List UInt8} (hspare : spare ≠ [])
    (hne : spare ≠ p) (hlast : spare.dropLast = p.dropLast)
    (hdir : Nodes.HasDirectories d.tree.node? spare.dropLast)
    (hfile : d.tree.node? spare = some (.file b)) (content : Stored) :
    (∃ bytes d', content = some bytes ∧ fillAndMove spare p content d = (.ok (), d') ∧
      (d.credit = none → d'.credit = none) ∧ d.tree.node? p ≠ some .directory ∧
      d'.tree.node? = Nodes.withFile (Function.update d.tree.node? spare none) p bytes) ∨
    ∃ e d', fillAndMove spare p content d = (.error e, d') ∧
      (d.credit = none → content = none ∨ d.tree.node? p = some .directory) ∧
      d'.tree.node? = Function.update d.tree.node? spare none := by
  simp only [fillAndMove, DiskM.tryCatch_apply, DiskM.bind_apply]
  rcases fill_cases hspare hdir hfile content with ⟨e, h₁, he⟩ | ⟨bytes, d₁, hcontent, h₁, hc₁, hd₁⟩
  · rw [h₁]
    exact .inr ⟨e, ⟨d.tree.erase spare, d.credit⟩, rfl, fun hc => .inl (he hc), node?_erase hspare⟩
  · rw [h₁]
    have hdir₁ : Nodes.HasDirectories d₁.tree.node? spare.dropLast := by
      intro q hpre
      rw [hd₁, Function.update_of_ne, hdir q hpre]
      rintro rfl
      exact not_prefix_dropLast hspare hpre
    have hmove := rename_cases hspare hne hlast hdir₁ (by rw [hd₁, Function.update_self])
    rw [hd₁, Function.update_idem, Function.update_of_ne (Ne.symm hne)] at hmove
    simp only
    rcases act_cases (fun t => t.rename spare p) d₁ with ⟨e, h₂, he⟩ | ⟨t₂, ht₂, h₂⟩
    · refine .inr ⟨e, ⟨d₁.tree.erase spare, d₁.credit⟩, ?_, ?_, ?_⟩
      · simp only [h₂]
        rfl
      · intro hc
        rcases hmove with ⟨_, _, hnode⟩ | ⟨t', ht', _⟩
        · exact .inr hnode
        · have := he (by simp [hc₁, hc])
          simp only [ht'] at this
          cases this
      · rw [node?_erase hspare, hd₁, Function.update_idem]
    · rcases hmove with ⟨_, ht', _⟩ | ⟨t', ht', hnode, hnodes⟩
      · simp only [ht'] at ht₂
        cases ht₂
      · obtain rfl := Except.ok.inj (ht₂.symm.trans ht')
        refine .inl ⟨bytes, ⟨t₂, d₁.credit.map (· - 1)⟩, hcontent, by simp only [h₂], ?_, hnode, hnodes⟩
        intro hc
        simp [hc₁, hc]

def replaceBeside (p : Place) (content : Stored) : DiskM Unit := do
  let spare := temporary (← get).tree p
  act fun t => t.write spare []
  fillAndMove spare p content

theorem replace_eq (p : Place) (content : Stored) : replace p content = (do
    act fun t => t.makeDirectories p.dropLast
    replaceBeside p content) := rfl

/-- In a directory that is there the file has its new content, or everything is as it was because the
disk was interrupted, the content has no bytes or the place is a directory. -/
theorem replaceBeside_cases (hdir : Nodes.HasDirectories d.tree.node? p.dropLast) (content : Stored) :
    (∃ bytes d', content = some bytes ∧ replaceBeside p content d = (.ok (), d') ∧
      (d.credit = none → d'.credit = none) ∧ d.tree.node? p ≠ some .directory ∧
      d'.tree.node? = Nodes.withFile d.tree.node? p bytes) ∨
    ∃ e d', replaceBeside p content d = (.error e, d') ∧
      (d.credit = none → content = none ∨ d.tree.node? p = some .directory) ∧
      d'.tree.node? = d.tree.node? := by
  simp only [replaceBeside, DiskM.bind_apply, DiskM.get_apply]
  obtain ⟨_, _, hfree⟩ := temporary_spec d.tree p
  have hspare := temporary_ne_root d.tree p
  have hne := temporary_ne d.tree p
  have hlast := dropLast_temporary d.tree p
  generalize temporary d.tree p = spare at hfree hspare hne hlast ⊢
  rw [← hlast] at hdir
  rcases act_cases (fun t => t.write spare []) d with ⟨e, h₁, he⟩ | ⟨t₁, ht₁, h₁⟩
  · rw [h₁]
    refine .inr ⟨e, d, rfl, fun hc => ?_, rfl⟩
    have hok : d.tree.write spare [] = .ok _ := write_eq_ok_iff.2 ⟨hdir, by simp [hfree], rfl⟩
    rw [he hc] at hok
    cases hok
  · rw [h₁]
    obtain ⟨_, _, rfl⟩ := write_eq_ok_iff.1 ht₁
    -- without the spare file the tree is as before
    have hput := node?_put (t := d.tree) (n := .file []) hspare
    have hback : Function.update (d.tree.put spare (.file [])).node? spare none = d.tree.node? := by
      rw [hput, Function.update_idem, ← hfree, Function.update_eq_self]
    have hcases := fillAndMove_cases (d := ⟨d.tree.put spare (.file []), d.credit.map (· - 1)⟩)
      hspare hne hlast (hasDirectories_put hspare _ hdir) (by rw [hput, Function.update_self]) content
    rw [hback] at hcases
    simp only [hput, Function.update_of_ne (Ne.symm hne)] at hcases
    rcases hcases with ⟨bytes, d', hcontent, h₂, hc', hnode, hd'⟩ | ⟨e, d', h₂, hc', hd'⟩
    · exact .inl ⟨bytes, d', hcontent, h₂, fun hc => hc' (by simp [hc]), hnode, hd'⟩
    · exact .inr ⟨e, d', h₂, fun hc => hc' (by simp [hc]), hd'⟩

/-- A place has its new content and the directories on the way to it are there, or nothing but these
directories has changed, because the disk was interrupted, a file is on the way, the content has no bytes
or the place is a directory. -/
theorem replace_cases (p : Place) (content : Stored) (d : Disk) :
    (∃ bytes d', content = some bytes ∧ replace p content d = (.ok (), d') ∧
      (d.credit = none → d'.credit = none) ∧ Nodes.Open d.tree.node? p.dropLast ∧
      d.tree.node? p ≠ some .directory ∧
      d'.tree.node? = Nodes.withFile (Nodes.withDirectories d.tree.node? p.dropLast) p bytes) ∨
    ∃ e d', replace p content d = (.error e, d') ∧
      (d.credit = none → Nodes.Open d.tree.node? p.dropLast →
        content = none ∨ d.tree.node? p = some .directory) ∧
      (d'.tree.node? = d.tree.node? ∨
        Nodes.Open d.tree.node? p.dropLast ∧
          d'.tree.node? = Nodes.withDirectories d.tree.node? p.dropLast) := by
  rw [replace_eq, DiskM.bind_apply]
  obtain ⟨hmake, hmade⟩ := makeDirectories_spec d.tree p.dropLast
  rcases act_cases (fun t => t.makeDirectories p.dropLast) d with ⟨e, h₁, he⟩ | ⟨t₁, ht₁, h₁⟩
  · rw [h₁]
    refine .inr ⟨e, d, rfl, fun hc hopen => ?_, .inl rfl⟩
    obtain ⟨t, ht⟩ := hmake hopen
    rw [he hc] at ht
    cases ht
  · rw [h₁]
    obtain ⟨hopen, hnodes⟩ := hmade t₁ ht₁
    have hdir : Nodes.HasDirectories t₁.node? p.dropLast := by
      rw [hnodes]
      exact Nodes.hasDirectories_withDirectories _ _
    have hsame : t₁.node? p = some .directory ↔ d.tree.node? p = some .directory := by
      by_cases hp : p = []
      · subst hp
        simp
      · rw [hnodes, Nodes.withDirectories, if_neg (not_prefix_dropLast hp)]
    have hcases := replaceBeside_cases (d := ⟨t₁, d.credit.map (· - 1)⟩) hdir content
    simp only [hsame, ne_eq] at hcases
    rw [← hnodes]
    rcases hcases with ⟨bytes, d', hcontent, h₂, hc', hnode, hd'⟩ | ⟨e, d', h₂, hc', hd'⟩
    · exact .inl ⟨bytes, d', hcontent, h₂, fun hc => hc' (by simp [hc]), hopen, hnode, hd'⟩
    · exact .inr ⟨e, d', h₂, fun hc _ => hc' (by simp [hc]), .inr ⟨hopen, hd'⟩⟩

/-- A text takes the place of the one before, or nothing but directories on the way has changed. -/
theorem atomicWrite_cases (p : Place) (text : String) (d : Disk) :
    (∃ d', atomicWrite p text d = (.ok (), d') ∧ (d.credit = none → d'.credit = none) ∧
      d'.tree.node? = Nodes.withFile (Nodes.withDirectories d.tree.node? p.dropLast) p
        (Text.encodeUtf8 text)) ∨
    ∃ e d', atomicWrite p text d = (.error e, d') ∧
      (d.credit = none → Nodes.Open d.tree.node? p.dropLast → d.tree.node? p = some .directory) ∧
      (d'.tree.node? = d.tree.node? ∨
        d'.tree.node? = Nodes.withDirectories d.tree.node? p.dropLast) := by
  unfold atomicWrite
  rcases replace_cases p (some (Text.encodeUtf8 text)) d with
    ⟨bytes, d', hbytes, h, hc, -, -, hd'⟩ | ⟨e, d', h, hdir, hd'⟩
  · cases hbytes
    exact .inl ⟨d', h, hc, hd'⟩
  · refine .inr ⟨e, d', h, fun hc hopen => ?_, hd'.imp_right And.right⟩
    simpa using hdir hc hopen

/-- A file can be replaced where no file is on the way and no directory at the place itself, as long
as the disk is not interrupted. -/
theorem atomicWrite_eq_ok (hc : d.credit = none) (hopen : Nodes.Open d.tree.node? p.dropLast)
    (hnode : d.tree.node? p ≠ some .directory) (text : String) :
    ∃ t, atomicWrite p text d = (.ok (), ⟨t, none⟩) ∧
      t.node? = Nodes.withFile (Nodes.withDirectories d.tree.node? p.dropLast) p
        (Text.encodeUtf8 text) := by
  rcases atomicWrite_cases p text d with ⟨d', h, hc', hd'⟩ | ⟨e, d', _, hdir, _⟩
  · have hcredit := hc' hc
    obtain ⟨t, credit⟩ := d'
    subst hcredit
    exact ⟨t, h, hd'⟩
  · exact absurd (hdir hc hopen) hnode

end Disk

/-- After the replacements `done` in a directory their files are there with their contents, in directories
on the way to them, and all other places are as they were. -/
structure FileTree.Nodes.Replaced (f g : Nodes) (dir : Place) (done : List (Place × Stored)) : Prop where
  stored : ∀ e ∈ done, ∃ bytes, e.2 = some bytes ∧ g e.1 = some (.file bytes)
  directories : done ≠ [] → g.HasDirectories dir
  kept : ∀ q, q ∉ done.map Prod.fst → f.Kept g dir q

namespace Disk

variable {p : Place} {content : Stored} {d d' : Disk}

theorem replaced_of_replace (h : replace p content d = (.ok (), d')) :
    Nodes.Replaced d.tree.node? d'.tree.node? p.dropLast [(p, content)] := by
  rcases replace_cases p content d with ⟨bytes, d₁, hcontent, h₁, -, hopen, hnode, hd₁⟩ | ⟨e, d₁, h₁, -, -⟩
  · cases h.symm.trans h₁
    have hp : p ≠ [] := by
      rintro rfl
      exact hnode rfl
    have hself : d'.tree.node? p = some (.file bytes) := by
      rw [hd₁]
      exact Function.update_self ..
    have hother : ∀ q, q ≠ p → d'.tree.node? q = Nodes.withDirectories d.tree.node? p.dropLast q := by
      intro q hq
      rw [hd₁]
      exact Function.update_of_ne hq ..
    refine ⟨?_, fun _ q hpre => ?_, fun q hq => ?_⟩
    · simpa [hcontent] using hself
    · rw [hother q fun he => not_prefix_dropLast hp (he ▸ hpre)]
      exact Nodes.hasDirectories_withDirectories _ _ q hpre
    · have hq : q ≠ p := by simpa using hq
      exact (hopen.kept q).trans (.of_eq (hother q hq))
  · cases h.symm.trans h₁

theorem replaced_of_failed {e : FileError} (h : replace p content d = (.error e, d')) :
    Nodes.Replaced d.tree.node? d'.tree.node? p.dropLast [] := by
  refine ⟨by simp, fun hne => absurd rfl hne, fun q _ => ?_⟩
  rcases replace_cases p content d with ⟨bytes, d₁, -, h₁, -⟩ | ⟨e', d₁, h₁, -, hd₁⟩
  · cases h.symm.trans h₁
  · cases h.symm.trans h₁
    rcases hd₁ with hd₁ | ⟨hopen, hd₁⟩
    · exact .of_eq (congrFun hd₁ q)
    · rw [hd₁]
      exact hopen.kept q

/-- Without an interruption exactly those replacements succeed that have bytes to store, no file on the
way and no directory at the place itself. -/
theorem replace_eq_ok_iff (t : FileTree) (p : Place) (content : Stored) :
    (replace p content ⟨t, none⟩).1 = .ok () ↔
      content.isSome ∧ Nodes.Open t.node? p.dropLast ∧ t.node? p ≠ some .directory := by
  rcases replace_cases p content ⟨t, none⟩ with
    ⟨bytes, d', hcontent, h, -, hopen, hnode, -⟩ | ⟨e, d', h, hwhy, -⟩
  · rw [h]
    exact ⟨fun _ => ⟨by rw [hcontent]; rfl, hopen, hnode⟩, fun _ => rfl⟩
  · rw [h]
    constructor
    · rintro ⟨⟩
    · rintro ⟨hsome, hopen, hnode⟩
      rcases hwhy rfl hopen with rfl | hdir
      · cases hsome
      · exact absurd hdir hnode

end Disk

end FormatFuzz
