import FormatFuzz.Diff.Stretch
import Mathlib.Data.List.Infix

/-!
# The stretch that is found is the longest

With what has been read of the two texts kept backwards, an entry of a row is the number of characters
that the two have in common at their beginning. Every common part of the texts ends at an entry of a
row, so none is longer than the best stretch.
-/

namespace FormatFuzz.Stretch

/-- Where a stretch lies in the two texts, the same characters stand. -/
def IsCommon (a b : List Char) (s : Stretch) : Prop :=
  ∃ x w y x' y', a = x ++ w ++ y ∧ b = x' ++ w ++ y' ∧
    x.length = s.first ∧ x'.length = s.second ∧ w.length = s.size

def shared : List Char → List Char → Nat
  | c :: p, d :: q => if d = c then shared p q + 1 else 0
  | _, _ => 0

variable {p q w : List Char}

theorem exists_shared (p q : List Char) :
    ∃ w x x', p = w ++ x ∧ q = w ++ x' ∧ w.length = shared p q := by
  fun_induction shared p q with
  | case1 p c q ih =>
    obtain ⟨w, x, x', hp, hq, hw⟩ := ih
    exact ⟨c :: w, x, x', congrArg (c :: ·) hp, congrArg (c :: ·) hq, congrArg (· + 1) hw⟩
  | case2 => exact ⟨[], _, _, rfl, rfl, rfl⟩
  | case3 => exact ⟨[], _, _, rfl, rfl, rfl⟩

theorem length_le_shared (hp : w <+: p) (hq : w <+: q) : w.length ≤ shared p q := by
  induction w generalizing p q with
  | nil => exact Nat.zero_le _
  | cons c w ih =>
    obtain ⟨p, rfl, hp'⟩ := List.cons_prefix_iff.1 hp
    obtain ⟨q, rfl, hq'⟩ := List.cons_prefix_iff.1 hq
    rw [shared, if_pos rfl, List.length_cons]
    exact Nat.succ_le_succ (ih hp' hq')

/-- The entries of a row at the positions of `bs`, when `p` and `q` have been read, their last
characters first. -/
def sharedRow (p : List Char) (q : List Char) : List Char → List Nat
  | [] => []
  | b :: bs => shared p (b :: q) :: sharedRow p (b :: q) bs

theorem sharedRow_nil (q bs : List Char) : sharedRow [] q bs = List.replicate bs.length 0 := by
  induction bs generalizing q with
  | nil => rfl
  | cons b bs ih => rw [sharedRow, ih, shared, List.length_cons, List.replicate_succ]; nofun

theorem nextRow_sharedRow (c : Char) (p q bs : List Char) :
    nextRow c (shared p q) bs (sharedRow p q bs) = sharedRow (c :: p) q bs := by
  induction bs generalizing q with
  | nil => rfl
  | cons b bs ih => rw [sharedRow, nextRow, ih, sharedRow, shared]

theorem nextRow_zero (c : Char) (p b : List Char) :
    nextRow c 0 b (sharedRow p [] b) = sharedRow (c :: p) [] b := by
  rw [← nextRow_sharedRow]
  cases p with
  | _ => rfl

theorem shared_mem_sharedRow {ys bs : List Char} (hne : ys ≠ []) (h : ys <+: bs) (p q : List Char) :
    shared p (ys.reverse ++ q) ∈ sharedRow p q bs := by
  induction ys generalizing q bs with
  | nil => exact absurd rfl hne
  | cons y ys ih =>
    obtain ⟨bs, rfl, hys⟩ := List.cons_prefix_iff.1 h
    rw [sharedRow, List.reverse_cons, List.append_assoc, List.singleton_append]
    cases ys with
    | nil => exact List.mem_cons_self
    | cons y' ys => exact List.mem_cons_of_mem _ (ih (List.cons_ne_nil _ _) hys (y :: q))

variable {best : Stretch} {row : List Nat}

theorem size_le_improve (i j : Nat) (best : Stretch) (row : List Nat) :
    best.size ≤ (improve i j best row).size := by
  induction row generalizing j best with
  | nil => exact Nat.le_refl _
  | cons k row ih =>
    refine le_trans ?_ (ih (j + 1) _)
    split
    · next h => exact Nat.le_of_lt h
    · exact Nat.le_refl _

theorem le_size_improve {k : Nat} (hk : k ∈ row) (i j : Nat) (best : Stretch) :
    k ≤ (improve i j best row).size := by
  induction row generalizing j best with
  | nil => cases hk
  | cons k' row ih =>
    rcases List.mem_cons.1 hk with rfl | hk
    · refine le_trans ?_ (size_le_improve i (j + 1) _ row)
      split
      · exact Nat.le_refl _
      · next h => exact Nat.le_of_not_lt h
    · exact ih hk (j + 1) _

theorem isCommon_shared (p q as bs : List Char) : IsCommon (p.reverse ++ as) (q.reverse ++ bs)
    ⟨p.length - shared p q, q.length - shared p q, shared p q⟩ := by
  obtain ⟨w, x, x', hp, hq, hw⟩ := exists_shared p q
  refine ⟨x.reverse, w.reverse, as, x'.reverse, bs, ?_, ?_, ?_, ?_, ?_⟩
  · rw [← List.reverse_append, ← hp]
  · rw [← List.reverse_append, ← hq]
  · rw [List.length_reverse, ← hw, hp, List.length_append, Nat.add_sub_cancel_left]
  · rw [List.length_reverse, ← hw, hq, List.length_append, Nat.add_sub_cancel_left]
  · rw [List.length_reverse, hw]

theorem IsCommon.improve {i j : Nat} {as bs : List Char} (hi : i + 1 = p.length) (hj : j = q.length)
    (h : IsCommon (p.reverse ++ as) (q.reverse ++ bs) best) :
    IsCommon (p.reverse ++ as) (q.reverse ++ bs) (improve i j best (sharedRow p q bs)) := by
  induction bs generalizing q j best with
  | nil => exact h
  | cons b bs ih =>
    -- the next character goes over to what has been read
    have hmove : q.reverse ++ b :: bs = (b :: q).reverse ++ bs := by simp
    rw [hmove] at h ⊢
    refine ih (congrArg (· + 1) hj) ?_
    split
    · have hnew := isCommon_shared p (b :: q) as bs
      rwa [← hi, List.length_cons, ← hj] at hnew
    · exact h

variable {a b : List Char}

theorem size_le_longestFrom (i : Nat) (b : List Char) (row : List Nat) (best : Stretch)
    (cs : List Char) : best.size ≤ (longestFrom i b row best cs).size := by
  induction cs generalizing i row best with
  | nil => exact Nat.le_refl _
  | cons c cs ih => exact (size_le_improve i 0 best _).trans (ih (i + 1) _ _)

theorem IsCommon.longestFrom {i : Nat} {cs : List Char} (hi : i = p.length)
    (h : IsCommon (p.reverse ++ cs) b best) :
    IsCommon (p.reverse ++ cs) b (longestFrom i b (sharedRow p [] b) best cs) := by
  induction cs generalizing p i best with
  | nil => exact h
  | cons c cs ih =>
    have hmove : p.reverse ++ c :: cs = (c :: p).reverse ++ cs := by simp
    rw [hmove] at h ⊢
    rw [Stretch.longestFrom, nextRow_zero]
    exact ih (congrArg (· + 1) hi) (h.improve (q := []) (congrArg (· + 1) hi) rfl)

theorem le_size_longestFrom {xs cs : List Char} (hne : xs ≠ []) (h : xs <+: cs) {k : Nat}
    (hk : k ∈ sharedRow (xs.reverse ++ p) [] b) (i : Nat) (best : Stretch) :
    k ≤ (longestFrom i b (sharedRow p [] b) best cs).size := by
  induction xs generalizing p i best cs with
  | nil => exact absurd rfl hne
  | cons c xs ih =>
    obtain ⟨cs, rfl, hxs⟩ := List.cons_prefix_iff.1 h
    rw [List.reverse_cons, List.append_assoc, List.singleton_append] at hk
    rw [Stretch.longestFrom, nextRow_zero]
    cases xs with
    | nil => exact (le_size_improve hk i 0 best).trans (size_le_longestFrom _ _ _ _ _)
    | cons c' xs => exact ih (List.cons_ne_nil _ _) hxs hk (i + 1) _

theorem isCommon_longest (a b : List Char) : IsCommon a b (longest a b) := by
  have hnothing : IsCommon a b ⟨0, 0, 0⟩ := ⟨[], [], a, [], b, rfl, rfl, rfl, rfl, rfl⟩
  rw [longest, ← sharedRow_nil []]
  exact hnothing.longestFrom (p := []) rfl

theorem length_le_longest (ha : w <:+: a) (hb : w <:+: b) : w.length ≤ (longest a b).size := by
  by_cases hw : w = []
  · rw [hw]
    exact Nat.zero_le _
  · -- a common part ends a beginning of each text, so it begins both when they are read backwards
    obtain ⟨xs, hwx, hxs⟩ := List.infix_iff_suffix_prefix.1 ha
    obtain ⟨ys, hwy, hys⟩ := List.infix_iff_suffix_prefix.1 hb
    have hx : xs ≠ [] := fun hnil => hw (List.suffix_nil.1 (hnil ▸ hwx))
    have hy : ys ≠ [] := fun hnil => hw (List.suffix_nil.1 (hnil ▸ hwy))
    have hmem := shared_mem_sharedRow hy hys xs.reverse []
    rw [List.append_nil] at hmem
    have hlength : w.length ≤ shared xs.reverse ys.reverse := by
      rw [← List.length_reverse]
      exact length_le_shared (List.reverse_prefix.2 hwx) (List.reverse_prefix.2 hwy)
    rw [longest, ← sharedRow_nil []]
    refine hlength.trans (le_size_longestFrom hx hxs ?_ 0 ⟨0, 0, 0⟩)
    rwa [List.append_nil]

end FormatFuzz.Stretch
