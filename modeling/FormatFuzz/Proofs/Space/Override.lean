import FormatFuzz.Space.Sampler
import Mathlib.Data.List.Nodup

namespace FormatFuzz.Space

variable {space pairs : Space} {name other : String} {spec : Spec}

def replaced (space : Space) (name : String) (spec : Spec) : Space :=
  space.map fun e => if e.1 == name then (name, spec) else e

@[simp] theorem map_fst_replaced : (space.replaced name spec).map Prod.fst = space.map Prod.fst := by
  unfold replaced
  rw [List.map_map]
  apply List.map_congr_left
  intro e _
  rw [Function.comp_apply]
  split
  · next heq => exact (eq_of_beq heq).symm
  · rfl

theorem lookup_cons_eq_ite (e : String × Spec) (space : Space) (name : String) :
    List.lookup name (e :: space) = if name = e.1 then some e.2 else space.lookup name := by
  rw [List.lookup_cons]
  by_cases h : name = e.1
  · rw [if_pos h, beq_iff_eq.2 h]
  · rw [if_neg h, beq_false_of_ne h]

theorem lookup_eq_none_of_notMem (h : name ∉ space.map Prod.fst) : space.lookup name = none := by
  rw [List.lookup_eq_none_iff]
  intro e he
  exact bne_iff_ne.2 fun heq => h (List.mem_map.2 ⟨e, he, heq.symm⟩)

theorem lookup_replaced_of_ne (space : Space) (spec : Spec) (hne : other ≠ name) :
    (space.replaced name spec).lookup other = space.lookup other := by
  induction space with
  | nil => rfl
  | cons e space ih =>
    rw [replaced, List.map_cons, lookup_cons_eq_ite, lookup_cons_eq_ite, ← replaced, ih]
    by_cases hfirst : e.1 = name
    · rw [if_pos (beq_iff_eq.2 hfirst), if_neg hne, if_neg (hfirst ▸ hne)]
    · rw [if_neg (mt eq_of_beq hfirst)]

theorem lookup_replaced_self (spec : Spec) (h : name ∈ space.map Prod.fst) :
    (space.replaced name spec).lookup name = some spec := by
  induction space with
  | nil => cases h
  | cons e space ih =>
    rw [replaced, List.map_cons, lookup_cons_eq_ite, ← replaced]
    by_cases hfirst : e.1 = name
    · rw [if_pos (beq_iff_eq.2 hfirst), if_pos rfl]
    · have hrest : name ∈ space.map Prod.fst := (List.mem_cons.1 h).resolve_left (Ne.symm hfirst)
      rw [if_neg (mt eq_of_beq hfirst), if_neg (Ne.symm hfirst), ih hrest]

theorem override_singleton (space : Space) (name : String) (spec : Spec) :
    space.override [(name, spec)] =
      if name ∈ space.map Prod.fst then space.replaced name spec else space ++ [(name, spec)] := by
  have hany : (space.any fun e => e.1 == name) = true ↔ name ∈ space.map Prod.fst := by
    rw [List.any_eq_true, List.mem_map]
    simp only [beq_iff_eq]
  split
  · next hname => exact if_pos (hany.2 hname)
  · next hname => exact if_neg (mt hany.1 hname)

theorem map_fst_override_singleton (space : Space) (name : String) (spec : Spec) :
    (space.override [(name, spec)]).map Prod.fst =
      space.map Prod.fst ++ if name ∈ space.map Prod.fst then [] else [name] := by
  rw [override_singleton]
  split
  · rw [map_fst_replaced, List.append_nil]
  · rw [List.map_append]
    rfl

theorem lookup_override_singleton (space : Space) (name : String) (spec : Spec) (other : String) :
    (space.override [(name, spec)]).lookup other =
      if other = name then some spec else space.lookup other := by
  rw [override_singleton]
  split
  · next hname =>
    split
    · next heq => rw [heq, lookup_replaced_self spec hname]
    · next hne => rw [lookup_replaced_of_ne space spec hne]
  · next hname =>
    rw [List.lookup_append, lookup_cons_eq_ite]
    split
    · next heq => rw [heq, lookup_eq_none_of_notMem hname, Option.none_or]
    · exact Option.or_none

/-- Names of a space that are different stay so when domains are put in their place. -/
theorem nodup_override (other : Space) (h : (space.map Prod.fst).Nodup) :
    ((space.override other).map Prod.fst).Nodup := by
  induction other generalizing space with
  | nil => exact h
  | cons e other ih =>
    have hnext : ((space.override [e]).map Prod.fst).Nodup := by
      rw [map_fst_override_singleton]
      split
      · rwa [List.append_nil]
      · next hname =>
        refine List.nodup_append.2 ⟨h, List.nodup_singleton _, ?_⟩
        rintro a ha b hb rfl
        exact hname (List.mem_singleton.1 hb ▸ ha)
    exact ih hnext

/-- The space that pairs make one after the other: the names in the order in which they come up first,
each with the domain that comes last. -/
structure Collects (pairs space : Space) : Prop where
  names : space.map Prod.fst = (pairs.map Prod.fst).eraseDups
  domain : ∀ name, space.lookup name = pairs.reverse.lookup name

theorem Collects.concat (h : Collects pairs space) (name : String) (spec : Spec) :
    Collects (pairs ++ [(name, spec)]) (space.override [(name, spec)]) where
  names := by
    have hmem : name ∈ space.map Prod.fst ↔ name ∈ pairs.map Prod.fst := by
      rw [h.names, List.mem_eraseDups]
    rw [map_fst_override_singleton, List.map_append, List.eraseDups_append, ← h.names, List.map_singleton,
      List.cons_removeAll]
    by_cases hname : name ∈ space.map Prod.fst
    · rw [if_pos hname, if_neg (by simpa using hmem.1 hname)]
      rfl
    · rw [if_neg hname, if_pos (by simpa using mt hmem.2 hname)]
      rfl
  domain other := by
    rw [lookup_override_singleton, List.reverse_append, List.reverse_singleton, List.singleton_append,
      lookup_cons_eq_ite, h.domain]

end FormatFuzz.Space
