import FormatFuzz.Random.Source
import Mathlib.Data.List.Nodup

/-!
# What a draw can yield

A draw yields results of a kind when it does so for every stream of words, that is from every state
of every source. What a composed draw yields follows from what its parts yield, so a statement about
random results is proved along the computation that draws them and never looks at a word.
-/

namespace FormatFuzz.Random

namespace Draw

variable {σ α β : Type}

def Yields (d : Draw σ α) (P : α → Prop) : Prop := ∀ s, P (d s).1

theorem run_bind (d : Draw σ α) (f : α → Draw σ β) (s : σ) :
    (d >>= f).run s = (f (d.run s).1).run (d.run s).2 := rfl

theorem Yields.mono {d : Draw σ α} {P Q : α → Prop} (h : Yields d P) (hPQ : ∀ a, P a → Q a) :
    Yields d Q := by
  intro s
  exact hPQ _ (h s)

theorem yields_pure {a : α} {P : α → Prop} (h : P a) : Yields (pure a : Draw σ α) P := by
  intro s
  exact h

theorem Yields.bind {d : Draw σ α} {f : α → Draw σ β} {P : α → Prop} {Q : β → Prop}
    (hd : Yields d P) (hf : ∀ a, P a → Yields (f a) Q) : Yields (d >>= f) Q := by
  intro s
  exact hf _ (hd s) _

theorem yields_bind {d : Draw σ α} {f : α → Draw σ β} {Q : β → Prop} (hf : ∀ a, Yields (f a) Q) :
    Yields (d >>= f) Q := by
  intro s
  exact hf _ _

theorem yields_ite {c : Prop} [Decidable c] {x y : Draw σ α} {P : α → Prop}
    (hx : c → Yields x P) (hy : ¬ c → Yields y P) : Yields (if c then x else y) P := by
  split
  · next h => exact hx h
  · next h => exact hy h

theorem times_yields {d : Draw σ α} {P : α → Prop} (hd : Yields d P) (count : Nat) :
    Yields (times d count) fun l => l.length = count ∧ ∀ x ∈ l, P x := by
  induction count with
  | zero => exact yields_pure ⟨rfl, by simp⟩
  | succ count ih =>
    refine hd.bind ?_
    intro x hx
    refine ih.bind ?_
    intro rest hrest
    apply yields_pure
    refine ⟨by rw [List.length_cons, hrest.1], ?_⟩
    intro y hy
    rcases List.mem_cons.1 hy with rfl | hy
    · exact hx
    · exact hrest.2 y hy

variable [Source σ]

theorem firstBelow_yields {bound : Nat} (hbound : 0 < bound) (width tries : Nat) :
    Yields (firstBelow bound width tries : Draw σ Nat) (· < bound) := by
  induction tries with
  | zero =>
    apply yields_bind
    intro r
    exact yields_pure (Nat.mod_lt r hbound)
  | succ tries ih =>
    apply yields_bind
    intro r
    apply yields_ite
    · exact fun h => yields_pure h
    · exact fun _ => ih

theorem below_yields {bound : Nat} (hbound : 0 < bound) :
    Yields (below bound : Draw σ Nat) (· < bound) := by
  rw [below, if_neg (Nat.ne_of_gt hbound)]
  exact firstBelow_yields hbound _ _

theorem between_yields {low high : Int} (h : low ≤ high) :
    Yields (between low high : Draw σ Int) fun n => low ≤ n ∧ n ≤ high := by
  rw [between, if_pos h]
  have hpos : 0 < (high - low + 1).toNat := by omega
  refine (below_yields hpos).bind ?_
  intro k hk
  apply yields_pure
  omega

theorem choose_yields {xs : List α} (nonempty : 0 < xs.length) :
    Yields (choose xs nonempty : Draw σ α) (· ∈ xs) := by
  apply yields_bind
  intro i
  apply yields_pure
  split
  · exact List.getElem_mem _
  · exact List.getElem_mem _

theorem optional_yields (blanks : Nat) (x : α) :
    Yields (optional blanks x : Draw σ (Option α)) fun o => ∀ y ∈ o, y = x := by
  apply yields_bind
  intro k
  apply yields_pure
  intro y hy
  split at hy
  · cases hy
  · exact (Option.some.inj hy).symm

/-- Taking an element out and moving the last one into its place leaves the other elements. -/
theorem perm_set_getLastD (head : α) (tail : List α) {i : Nat} (hi : i < tail.length + 1) :
    List.Perm ((head :: tail).getD i head ::
      ((head :: tail).set i ((head :: tail).getLastD head)).dropLast) (head :: tail) := by
  have hne : head :: tail ≠ [] := List.cons_ne_nil _ _
  have hlast : (head :: tail).getLastD head = (head :: tail).getLast hne := by
    rw [List.getLastD_eq_getLast?, List.getLast?_eq_some_getLast hne, Option.getD_some]
  have hlen : (head :: tail).length = tail.length + 1 := rfl
  obtain ⟨init, last, hsplit⟩ : ∃ init last, head :: tail = init ++ [last] :=
    ⟨_, _, (List.dropLast_append_getLast hne).symm⟩
  rw [hlast]
  simp only [hsplit] at hlen ⊢
  rw [List.length_append, List.length_singleton] at hlen
  rw [List.getLast_append_singleton, List.perm_comm]
  by_cases h : i < init.length
  · have hinit : init = init.take i ++ init[i] :: init.drop (i + 1) := by simp
    have hget : (init ++ [last]).getD i head = init[i] := by
      simp [List.getD_eq_getElem?_getD, List.getElem?_append_left h, h]
    rw [List.set_append_left _ _ h, List.dropLast_concat, hget, List.set_eq_take_append_cons_drop,
      if_pos h]
    have hfront : init ++ [last] = init.take i ++ init[i] :: (init.drop (i + 1) ++ [last]) := by
      rw [← List.cons_append, ← List.append_assoc, ← hinit]
    have hmove : List.Perm (init.drop (i + 1) ++ [last]) (last :: init.drop (i + 1)) :=
      List.perm_append_singleton _ _
    rw [hfront]
    exact List.perm_middle.trans ((hmove.append_left _).cons _)
  · obtain rfl : i = init.length := by omega
    rw [List.set_append_right _ _ (Nat.le_refl _), Nat.sub_self]
    simp

/-- Elements at different positions of a list without repetitions are different. -/
theorem distinct_yields {pool : List α} (hpool : pool.Nodup) (count : Nat) :
    Yields (distinct pool count : Draw σ (List α)) fun l => l.Nodup ∧ ∀ x ∈ l, x ∈ pool := by
  induction count generalizing pool with
  | zero =>
    rw [distinct]
    exact yields_pure ⟨List.nodup_nil, by simp⟩
  | succ count ih =>
    cases pool with
    | nil => exact yields_pure ⟨List.nodup_nil, by simp⟩
    | cons head tail =>
      refine (below_yields (Nat.succ_pos tail.length)).bind ?_
      intro i hi
      have hperm := perm_set_getLastD head tail hi
      have hnodup := List.nodup_cons.1 (hperm.nodup_iff.2 hpool)
      refine (ih hnodup.2).bind ?_
      intro rest hrest
      apply yields_pure
      refine ⟨List.nodup_cons.2 ⟨fun hmem => hnodup.1 (hrest.2 _ hmem), hrest.1⟩, ?_⟩
      intro x hx
      rcases List.mem_cons.1 hx with rfl | hx
      · exact hperm.subset List.mem_cons_self
      · exact hperm.subset (List.mem_cons_of_mem _ (hrest.2 x hx))

end Draw

/-- Words in a row, and zeros after them. -/
structure Words where
  rest : List UInt32

instance : Source Words where
  nextWord w := (w.rest.headD 0, ⟨w.rest.tail⟩)

end FormatFuzz.Random
