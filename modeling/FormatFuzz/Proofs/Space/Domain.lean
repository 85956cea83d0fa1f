import FormatFuzz.Space.Spec
import FormatFuzz.Proofs.Random.Reaches
import Mathlib.Tactic.Common

/-!
# The members of a domain

A description that is accepted has members: its candidates, or the integers of its range. What is drawn
from it is a member, and every member can be drawn. A value lies in the domain exactly when a member of
its kind equals it, so a member that does not equal itself is drawn without lying in the domain.
-/

namespace FormatFuzz

open FormatFuzz.Random FormatFuzz.Random.Draw

namespace Spec

variable {σ : Type} [Source σ] {spec : Spec} {name : String} {v : Data}

inductive Member (spec : Spec) : Data → Prop
  | candidate {items : List Data} {v : Data} : spec.get? "values" = some (.list items) → v ∈ items →
      Member spec v
  | integer {distribution : Data} {low high n : Int} : spec.get? "values" = none →
      spec.get? "distribution" = some distribution → isUniform distribution = true →
      spec.bound "min" = .int low → spec.bound "max" = .int high → low ≤ n → n ≤ high →
      Member spec (.int n)

theorem check_eq_ok (h : spec.check name = .ok ()) :
    (∃ v items, spec.get? "values" = some (.list (v :: items))) ∨
      spec.get? "values" = none ∧ ∃ distribution low high,
        spec.get? "distribution" = some distribution ∧ isUniform distribution = true ∧
          spec.bound "min" = .int low ∧ spec.bound "max" = .int high ∧ low ≤ high := by
  unfold check at h
  split at h
  · next hvalues => exact .inl ⟨_, _, hvalues⟩
  · cases h
  · cases h
  · next distribution hvalues hdistribution =>
    split at h
    · next huniform =>
      split at h
      · next low high hlow hhigh =>
        split at h
        · cases h
        · next hle =>
          exact .inr ⟨hvalues, distribution, low, high, hdistribution, huniform, hlow, hhigh,
            Int.not_lt.1 hle⟩
      · cases h
    · cases h

theorem bound?_of_int {field : String} {n : Int} (h : spec.bound field = .int n) :
    spec.bound? field = .ok n := by
  unfold bound?
  rw [h]
  rfl

theorem member_iff_mem {items : List Data} (hvalues : spec.get? "values" = some (.list items)) :
    spec.Member v ↔ v ∈ items := by
  constructor
  · intro h
    cases h with
    | candidate hvalues' hmem =>
      rw [hvalues] at hvalues'
      cases hvalues'
      exact hmem
    | integer hnone => simp [hvalues] at hnone
  · exact .candidate hvalues

theorem member_iff_exists {distribution : Data} {low high : Int} (hvalues : spec.get? "values" = none)
    (hdistribution : spec.get? "distribution" = some distribution)
    (huniform : isUniform distribution = true) (hmin : spec.bound "min" = .int low)
    (hmax : spec.bound "max" = .int high) :
    spec.Member v ↔ ∃ n : Int, v = .int n ∧ low ≤ n ∧ n ≤ high := by
  constructor
  · intro h
    cases h with
    | candidate hsome => simp [hvalues] at hsome
    | integer _ _ _ hlow hhigh hln hnh =>
      rw [hmin] at hlow
      rw [hmax] at hhigh
      cases hlow
      cases hhigh
      exact ⟨_, rfl, hln, hnh⟩
  · rintro ⟨n, rfl, hln, hnh⟩
    exact .integer hvalues hdistribution huniform hmin hmax hln hnh

theorem exists_member (h : spec.check name = .ok ()) : ∃ v, spec.Member v := by
  rcases check_eq_ok h with ⟨v, items, hvalues⟩ |
    ⟨hvalues, distribution, low, high, hdistribution, huniform, hmin, hmax, hle⟩
  · exact ⟨v, .candidate hvalues List.mem_cons_self⟩
  · exact ⟨.int low, .integer hvalues hdistribution huniform hmin hmax (Int.le_refl low) hle⟩

theorem draw_candidate {w : Data} {items : List Data}
    (hvalues : spec.get? "values" = some (.list (w :: items))) (name : String) :
    (spec.draw name : Draw σ _) = do
      return candidate? (.list (w :: items)) (← Draw.below (w :: items).length) := by
  unfold draw
  rw [hvalues]
  rfl

theorem draw_integer {distribution : Data} {low high : Int} (hvalues : spec.get? "values" = none)
    (hdistribution : spec.get? "distribution" = some distribution)
    (huniform : isUniform distribution = true) (hmin : spec.bound "min" = .int low)
    (hmax : spec.bound "max" = .int high) (hle : low ≤ high) (name : String) :
    (spec.draw name : Draw σ _) = do return .ok (.int (← Draw.between low high)) := by
  unfold draw
  simp only [hvalues, hdistribution, huniform, if_true, bound?_of_int hmin, bound?_of_int hmax, hle]

theorem candidate?_list {items : List Data} {i : Nat} (hi : i < items.length) :
    candidate? (.list items) i = .ok items[i] := by
  simp only [candidate?, List.getElem?_eq_getElem hi]
  rfl

theorem draw_yields_member (h : spec.check name = .ok ()) :
    Yields (spec.draw name : Draw σ _) fun r => ∃ v, r = .ok v ∧ spec.Member v := by
  rcases check_eq_ok h with ⟨w, items, hvalues⟩ |
    ⟨hvalues, distribution, low, high, hdistribution, huniform, hmin, hmax, hle⟩
  · rw [draw_candidate hvalues]
    refine (below_yields (Nat.succ_pos items.length)).bind ?_
    intro i hi
    apply yields_pure
    exact ⟨_, candidate?_list hi, .candidate hvalues (List.getElem_mem hi)⟩
  · rw [draw_integer hvalues hdistribution huniform hmin hmax hle]
    refine (between_yields hle).bind ?_
    intro n hn
    apply yields_pure
    exact ⟨_, rfl, .integer hvalues hdistribution huniform hmin hmax hn.1 hn.2⟩

theorem draw_reaches_member (h : spec.Member v) (name : String) :
    Reaches (spec.draw name) (.ok v) := by
  cases h with
  | @candidate items v hvalues hmem =>
    obtain ⟨i, hi, rfl⟩ := List.getElem_of_mem hmem
    cases items with
    | nil => cases hmem
    | cons w items =>
      rw [draw_candidate hvalues]
      refine (below_reaches hi).bind ?_
      rw [candidate?_list hi]
      exact reaches_pure _
  | integer hvalues hdistribution huniform hmin hmax hlow hhigh =>
    rw [draw_integer hvalues hdistribution huniform hmin hmax (Int.le_trans hlow hhigh)]
    exact (between_reaches hlow hhigh).bind (reaches_pure _)

variable {p : Primitive}

theorem contains_candidates {items : List Data} (hvalues : spec.get? "values" = some (.list items))
    (v : Data) : spec.contains v = .ok (items.any (same v)) := by
  unfold contains
  rw [hvalues]
  rfl

theorem contains_integers {distribution : Data} {low high n : Int}
    (hvalues : spec.get? "values" = none)
    (hdistribution : spec.get? "distribution" = some distribution)
    (huniform : isUniform distribution = true) (hmin : spec.bound "min" = .int low)
    (hmax : spec.bound "max" = .int high) :
    spec.contains (.int n) = .ok (decide (low ≤ n ∧ n ≤ high)) := by
  unfold contains
  simp only [hvalues, hdistribution, Option.map_some, Option.getD_some, huniform, if_true,
    bound?_of_int hmin, bound?_of_int hmax, bind, Except.bind]
  by_cases hlow : low ≤ n
  · simp [hlow, pure, Except.pure]
  · simp [hlow, pure, Except.pure]

theorem contains_of_forall_ne_int {distribution : Data} (hvalues : spec.get? "values" = none)
    (hdistribution : spec.get? "distribution" = some distribution)
    (huniform : isUniform distribution = true) (hv : ∀ n : Int, v ≠ .int n) :
    spec.contains v = .ok false := by
  unfold contains
  simp only [hvalues, hdistribution, Option.map_some, Option.getD_some, huniform, if_true]

theorem same_int_iff {n : Int} : same v (.int n) = true ↔ v = .int n := by
  constructor
  · intro h
    rw [same, Bool.and_eq_true, beq_iff_eq] at h
    obtain ⟨hequal, hkind⟩ := h
    cases v with
    | prim p =>
      cases p with
      | int m => simpa [Data.equal, Primitive.equal, Primitive.integer?] using hequal
      | _ => simp [Data.kind, Primitive.kind] at hkind
    | _ => simp [Data.equal] at hequal
  · rintro rfl
    simp [same, Data.equal, Primitive.equal, Primitive.integer?]

/-- A value lies in a domain when a member of its kind equals it. -/
theorem contains_eq_true_iff (h : spec.check name = .ok ()) :
    spec.contains v = .ok true ↔ ∃ w, spec.Member w ∧ same v w = true := by
  rcases check_eq_ok h with ⟨w, items, hvalues⟩ |
    ⟨hvalues, distribution, low, high, hdistribution, huniform, hmin, hmax, -⟩
  · simp [contains_candidates hvalues, member_iff_mem hvalues]
  · have hmember : (∃ w, spec.Member w ∧ same v w = true) ↔
        ∃ n : Int, v = .int n ∧ low ≤ n ∧ n ≤ high := by
      constructor
      · rintro ⟨w, hw, hsame⟩
        obtain ⟨n, rfl, hrange⟩ :=
          (member_iff_exists hvalues hdistribution huniform hmin hmax).1 hw
        exact ⟨n, same_int_iff.1 hsame, hrange⟩
      · rintro ⟨n, rfl, hrange⟩
        exact ⟨.int n, (member_iff_exists hvalues hdistribution huniform hmin hmax).2 ⟨n, rfl, hrange⟩,
          same_int_iff.2 rfl⟩
    -- a value of another kind is the same as no member, and is not compared with the bounds
    rw [hmember]
    by_cases hint : ∃ n : Int, v = .int n
    · obtain ⟨n, rfl⟩ := hint
      simp [contains_integers hvalues hdistribution huniform hmin hmax]
    · rw [not_exists] at hint
      simp [contains_of_forall_ne_int hvalues hdistribution huniform hint, hint]

end Spec

end FormatFuzz
