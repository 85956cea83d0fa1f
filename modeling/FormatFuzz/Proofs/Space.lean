import FormatFuzz.Proofs.Options
import FormatFuzz.Proofs.Space.Domain
import FormatFuzz.Proofs.Space.Override
import Mathlib.Data.List.Forall2

namespace FormatFuzz

open FormatFuzz.Random FormatFuzz.Random.Draw

theorem Primitive.Storable.equal_self {v : Primitive} (h : v.Storable) : v.equal v = true := by
  cases v with
  | null => rfl
  | bool b => simp [equal, integer?]
  | int n => simp [equal, integer?]
  | float x =>
    have hnan : x.isNaN = false := by
      unfold Decimal.Binary64.isNaN
      rw [show x.isFinite = true from h]
      rfl
    simp [equal, Decimal.Binary64.equal, hnan]
  | str s => simp [equal]

namespace Spec

variable {σ : Type} [Source σ] {spec : Spec} {name : String} {v : Primitive}

/-- All candidates are values without parts that can be stored. -/
def Storable (spec : Spec) : Prop :=
  ∀ items, spec.get? "values" = some (.list items) → ∀ v ∈ items, ∃ p : Primitive, v = .prim p ∧ p.Storable

def Has (spec : Spec) (v : Primitive) : Prop := v.Storable ∧ spec.contains (.prim v) = .ok true

theorem Storable.exists_prim (hspec : spec.Storable) {w : Data} (hw : spec.Member w) :
    ∃ p : Primitive, w = .prim p ∧ p.Storable := by
  cases hw with
  | candidate hvalues hmem => exact hspec _ hvalues _ hmem
  | @integer _ _ _ n => exact ⟨.int n, rfl, trivial⟩

theorem has_of_member (hcheck : spec.check name = .ok ()) (hmember : spec.Member (.prim v))
    (hv : v.Storable) : spec.Has v := by
  refine ⟨hv, (contains_eq_true_iff hcheck).2 ⟨.prim v, hmember, ?_⟩⟩
  simp [same, Data.equal, hv.equal_self]

end Spec

namespace Sampler

variable {σ : Type} [Source σ] {space : Space}

theorem check_of_forIn {u : PUnit}
    (h : (forIn space PUnit.unit fun (e : String × Spec) _ => do
        e.2.check e.1
        pure (ForInStep.yield PUnit.unit) : Except SpecError PUnit) = .ok u) :
    ∀ e ∈ space, e.2.check e.1 = .ok () := by
  induction space with
  | nil => simp
  | cons e space ih =>
    rw [List.forIn_cons] at h
    cases hcheck : e.2.check e.1 with
    | error err =>
      rw [hcheck] at h
      cases h
    | ok u =>
      rw [hcheck] at h
      intro m hm
      rcases List.mem_cons.1 hm with heq | hm
      · rw [heq]
        exact hcheck
      · exact ih h m hm

theorem ofSpace_eq_ok {s : Sampler} (h : ofSpace space = .ok s) :
    s.space = space ∧ ∀ e ∈ s.space, e.2.check e.1 = .ok () := by
  unfold ofSpace at h
  cases hloop : (forIn space PUnit.unit fun (e : String × Spec) _ => do
      e.2.check e.1
      pure (ForInStep.yield PUnit.unit) : Except SpecError PUnit) with
  | error err =>
    change (do let _ ← (forIn space PUnit.unit _ : Except SpecError PUnit); pure (⟨space⟩ : Sampler)) = _ at h
    rw [hloop] at h
    cases h
  | ok u =>
    change (do let _ ← (forIn space PUnit.unit _ : Except SpecError PUnit); pure (⟨space⟩ : Sampler)) = _ at h
    rw [hloop] at h
    cases h
    exact ⟨rfl, check_of_forIn hloop⟩

/-- In lists whose elements are related one by one, every element has one that it is related to. -/
theorem exists_mem_related {α β : Type} {R : α → β → Prop} {as : List α} {bs : List β}
    (h : List.Forall₂ R as bs) : ∀ a ∈ as, ∃ b ∈ bs, R a b := by
  induction h with
  | nil => simp
  | cons hfirst _ ih =>
    refine List.forall_mem_cons.2 ⟨⟨_, List.mem_cons_self, hfirst⟩, fun a ha => ?_⟩
    obtain ⟨b, hb, hrest⟩ := ih a ha
    exact ⟨b, List.mem_cons_of_mem _ hb, hrest⟩

theorem lookup_of_mem {α : Type} {entries : List (String × α)} (hnames : (entries.map Prod.fst).Nodup)
    {name : String} {v : α} (h : (name, v) ∈ entries) : entries.lookup name = some v := by
  induction entries with
  | nil => cases h
  | cons m entries ih =>
    rw [List.map_cons, List.nodup_cons] at hnames
    rcases List.mem_cons.1 h with rfl | h
    · rw [List.lookup_cons_self]
    · have hne : (name == m.1) = false := by
        apply beq_false_of_ne
        rintro rfl
        exact hnames.1 (List.mem_map.2 ⟨_, h, rfl⟩)
      rw [List.lookup_cons, hne]
      exact ih hnames.2 h

def Takes (space : Space) (entries : List (String × Data)) : Prop :=
  List.Forall₂ (fun e m => m.1 = e.1 ∧ e.2.Member m.2) space entries

variable {taken : List (String × Data)}

theorem Takes.names (h : Takes space taken) : taken.map Prod.fst = space.map Prod.fst := by
  induction h with
  | nil => rfl
  | cons hm _ ih => rw [List.map_cons, List.map_cons, hm.1, ih]

theorem exists_takes (hcheck : ∀ e ∈ space, e.2.check e.1 = .ok ()) : ∃ taken, Takes space taken := by
  induction space with
  | nil => exact ⟨[], .nil⟩
  | cons e space ih =>
    obtain ⟨hfirst, hrest⟩ := List.forall_mem_cons.1 hcheck
    obtain ⟨v, hv⟩ := Spec.exists_member hfirst
    obtain ⟨taken, htaken⟩ := ih hrest
    exact ⟨(e.1, v) :: taken, .cons ⟨rfl, hv⟩ htaken⟩

theorem exists_takes_mem (hcheck : ∀ e ∈ space, e.2.check e.1 = .ok ()) {e : String × Spec}
    (he : e ∈ space) {v : Data} (hv : e.2.Member v) : ∃ taken, Takes space taken ∧ (e.1, v) ∈ taken := by
  obtain ⟨front, back, rfl⟩ := List.append_of_mem he
  obtain ⟨hfront, hback⟩ := List.forall_mem_append.1 hcheck
  obtain ⟨before, hbefore⟩ := exists_takes hfront
  obtain ⟨behind, hbehind⟩ := exists_takes (List.forall_mem_cons.1 hback).2
  exact ⟨before ++ (e.1, v) :: behind, List.rel_append hbefore (.cons ⟨rfl, hv⟩ hbehind), by simp⟩

theorem drawAll_yields_takes (hcheck : ∀ e ∈ space, e.2.check e.1 = .ok ()) :
    Yields (drawAll space : Draw σ _) fun r => ∃ taken, Takes space taken ∧
      r = .ok (taken.map fun m => (.str m.1, m.2)) := by
  induction space with
  | nil => exact yields_pure ⟨[], .nil, rfl⟩
  | cons e space ih =>
    obtain ⟨hfirst, hrest⟩ := List.forall_mem_cons.1 hcheck
    unfold drawAll
    refine (Spec.draw_yields_member hfirst).bind ?_
    rintro _ ⟨v, rfl, hv⟩
    refine (ih hrest).bind ?_
    rintro _ ⟨taken, htaken, rfl⟩
    exact yields_pure ⟨(e.1, v) :: taken, .cons ⟨rfl, hv⟩ htaken, rfl⟩

theorem drawAll_reaches (h : Takes space taken) :
    Reaches (drawAll space) (.ok (taken.map fun m => (.str m.1, m.2))) := by
  induction h with
  | nil => exact reaches_pure _
  | @cons e m space taken hm _ ih =>
    obtain ⟨name, v⟩ := m
    obtain ⟨rfl, hv⟩ := hm
    unfold drawAll
    refine (Spec.draw_reaches_member hv e.1).bind ?_
    exact ih.bind (reaches_pure _)

theorem sample_yields_takes {s : Sampler} (hcheck : ∀ e ∈ s.space, e.2.check e.1 = .ok ()) :
    Yields (s.sample : Draw σ _) fun r => ∃ taken, Takes s.space taken ∧
      r = (Options.ofData (.dict (taken.map fun m => (.str m.1, m.2)))).mapError .options := by
  unfold sample
  refine (drawAll_yields_takes hcheck).bind ?_
  rintro _ ⟨taken, htaken, rfl⟩
  exact yields_pure ⟨taken, htaken, rfl⟩

theorem sample_reaches {s : Sampler} (h : Takes s.space taken) : Reaches s.sample
    ((Options.ofData (.dict (taken.map fun m => (.str m.1, m.2)))).mapError .options) := by
  unfold sample
  exact (drawAll_reaches h).bind (reaches_pure _)

def Along (space : Space) (entries : List (String × Primitive)) : Prop :=
  List.Forall₂ (fun e m => m.1 = e.1 ∧ e.2.Has m.2) space entries

variable {entries : List (String × Primitive)}

theorem Along.names (h : Along space entries) : entries.map Prod.fst = space.map Prod.fst := by
  induction h with
  | nil => rfl
  | cons hm _ ih => rw [List.map_cons, List.map_cons, hm.1, ih]

theorem Along.storable (h : Along space entries) : ∀ m ∈ entries, m.2.Storable := by
  induction h with
  | nil => simp
  | cons hm _ ih => exact List.forall_mem_cons.2 ⟨hm.2.1, ih⟩

theorem Along.lookup (h : Along space entries) (hnames : (space.map Prod.fst).Nodup) :
    ∀ e ∈ space, ∃ v, entries.lookup e.1 = some v ∧ e.2.Has v := by
  rw [← h.names] at hnames
  intro e he
  obtain ⟨⟨name, v⟩, hmem, rfl, hv⟩ := exists_mem_related h e he
  exact ⟨v, lookup_of_mem hnames hmem, hv⟩

/-- Members that can be stored go along with their space. -/
theorem Takes.exists_along (h : Takes space taken) (hcheck : ∀ e ∈ space, e.2.check e.1 = .ok ())
    (hspace : ∀ e ∈ space, e.2.Storable) : ∃ entries : List (String × Primitive),
      taken = entries.map (fun m => (m.1, .prim m.2)) ∧ Along space entries := by
  induction h with
  | nil => exact ⟨[], rfl, .nil⟩
  | @cons e m space taken hm _ ih =>
    obtain ⟨hfirst, hrest⟩ := List.forall_mem_cons.1 hcheck
    obtain ⟨hstorable, hstorables⟩ := List.forall_mem_cons.1 hspace
    obtain ⟨name, w⟩ := m
    obtain ⟨rfl, hw⟩ := hm
    obtain ⟨v, rfl, hv⟩ := hstorable.exists_prim hw
    obtain ⟨entries, rfl, halong⟩ := ih hrest hstorables
    exact ⟨(e.1, v) :: entries, rfl, .cons ⟨rfl, Spec.has_of_member hfirst hw hv⟩ halong⟩

structure Fits (o : Options) (space : Space) : Prop where
  names : (o.entries.map Prod.fst).Nodup
  noValues : "values" ∉ o.entries.map Prod.fst
  storable : ∀ m ∈ o.entries, m.2.Storable
  contains : ∀ e ∈ space, ∃ v, o.get? e.1 = some v ∧ e.2.contains (.prim v) = .ok true

/-- A text under the name `values` is not taken for a mapping of options. -/
theorem ofData_of_values (h : "values" ∈ entries.map Prod.fst) :
    Options.ofData (.dict (entries.map fun m => (.str m.1, .prim m.2))) =
      .error [.valuesNotMapping] := by
  have hsome : ∃ v, entries.lookup "values" = some v := by
    by_contra hnone
    rw [not_exists, ← Option.eq_none_iff_forall_ne_some, List.lookup_eq_none_iff] at hnone
    obtain ⟨m, hm, hname⟩ := List.mem_map.1 h
    have hne := hnone m hm
    rw [hname] at hne
    exact absurd hne (by decide)
  obtain ⟨v, hv⟩ := hsome
  unfold Options.ofData
  simp only [Options.find?_entries, hv]
  rfl

theorem sample_yields_along {s : Sampler} (hcheck : ∀ e ∈ s.space, e.2.check e.1 = .ok ())
    (hspace : ∀ e ∈ s.space, e.2.Storable) :
    Yields (s.sample : Draw σ _) fun r => ∃ entries, Along s.space entries ∧
      r = (Options.ofData (.dict (entries.map fun m => (.str m.1, .prim m.2)))).mapError .options := by
  refine (sample_yields_takes hcheck).mono ?_
  rintro _ ⟨taken, htaken, rfl⟩
  obtain ⟨entries, rfl, halong⟩ := htaken.exists_along hcheck hspace
  refine ⟨entries, halong, ?_⟩
  rw [List.map_map]
  rfl

theorem sample_yields {s : Sampler} (hnames : (s.space.map Prod.fst).Nodup)
    (hcheck : ∀ e ∈ s.space, e.2.check e.1 = .ok ()) (hspace : ∀ e ∈ s.space, e.2.Storable) :
    Yields (s.sample : Draw σ _) fun r => ∀ o, r = .ok o → Fits o s.space := by
  refine (sample_yields_along hcheck hspace).mono ?_
  rintro _ ⟨entries, halong, rfl⟩ o ho
  by_cases hvalues : "values" ∈ entries.map Prod.fst
  · rw [ofData_of_values hvalues] at ho
    cases ho
  · have hdata := Options.ofData_toData (o := ⟨entries⟩) hvalues
    change (Options.ofData (Options.toData ⟨entries⟩)).mapError _ = _ at ho
    rw [hdata] at ho
    cases ho
    refine ⟨?_, hvalues, halong.storable, ?_⟩
    · rw [halong.names]
      exact hnames
    · intro e he
      obtain ⟨v, hv, hhas⟩ := halong.lookup hnames e he
      exact ⟨v, hv, hhas.2⟩

theorem allM_eq_ok_true_iff {ε α : Type} {p : α → Except ε Bool} {l : List α} :
    l.allM p = .ok true ↔ ∀ x ∈ l, p x = .ok true := by
  induction l with
  | nil => exact ⟨fun _ => List.forall_mem_nil _, fun _ => rfl⟩
  | cons x l ih =>
    rw [List.forall_mem_cons, ← ih, List.allM]
    cases hx : p x with
    | error e => simp [bind, Except.bind]
    | ok found =>
      cases found with
      | false => simp [bind, Except.bind, pure, Except.pure]
      | true => simp [bind, Except.bind]

theorem contains_iff_forall {s : Sampler} {o : Options} : s.contains o = .ok true ↔
    ∀ e ∈ s.space, ∃ v, o.get? e.1 = some v ∧ e.2.contains (.prim v) = .ok true := by
  unfold contains
  rw [allM_eq_ok_true_iff]
  refine forall₂_congr fun e _ => ?_
  obtain ⟨name, spec⟩ := e
  cases hvalue : o.get? name with
  | none => simp [hvalue]
  | some v => simp [hvalue]

theorem contains_of_fits {s : Sampler} {o : Options} (h : Fits o s.space) :
    s.contains o = .ok true :=
  contains_iff_forall.2 h.contains

end Sampler

end FormatFuzz
