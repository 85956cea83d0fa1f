import FormatFuzz.Proofs.Space

namespace FormatFuzz

open FormatFuzz.Random FormatFuzz.Random.Draw

/-- Neither a value with parts nor a double that is no number. -/
def Data.IsOptionValue : Data → Prop
  | .prim (.float x) => x.isNaN = false
  | .prim _ => True
  | _ => False

theorem Data.isOptionValue_iff {v : Data} :
    v.IsOptionValue ↔ ∃ p : Primitive, v = .prim p ∧ p.equal p = true := by
  cases v with
  | prim p =>
    cases p with
    | float x => simp [IsOptionValue, Primitive.equal, Decimal.Binary64.equal]
    | _ => simp [IsOptionValue, Primitive.equal, Primitive.integer?]
  | _ => simp [IsOptionValue]

/-- A value without parts that is the same as another one equals itself. -/
theorem Spec.equal_self_of_same {p : Primitive} {w : Data} (h : same (.prim p) w = true) :
    p.equal p = true := by
  rw [same, Bool.and_eq_true, beq_iff_eq] at h
  obtain ⟨hequal, hkind⟩ := h
  cases p with
  | float x =>
    cases w with
    | prim q =>
      cases q with
      | float y =>
        simp [Data.equal, Primitive.equal, Decimal.Binary64.equal] at hequal ⊢
        exact hequal.1.1
      | _ => simp [Data.kind, Primitive.kind] at hkind
    | _ => simp [Data.equal] at hequal
  | _ => simp [Primitive.equal, Primitive.integer?]

namespace Sampler

variable {space : Space} {s : Sampler} {taken : List (String × Data)} {o : Options}

def Succeeds (s : Sampler) (r : Except SampleError Options) : Prop :=
  ∃ o, r = .ok o ∧ o.entries.map Prod.fst = s.space.map Prod.fst ∧ s.contains o = .ok true

theorem Takes.exists_prims (h : Takes space taken)
    (hmembers : ∀ e ∈ space, ∀ v, e.2.Member v → v.IsOptionValue) :
    ∃ entries : List (String × Primitive), taken = entries.map (fun m => (m.1, .prim m.2)) ∧
      ∀ m ∈ entries, m.2.equal m.2 = true := by
  induction h with
  | nil => exact ⟨[], rfl, List.forall_mem_nil _⟩
  | @cons e m space taken hm _ ih =>
    obtain ⟨hfirst, hrest⟩ := List.forall_mem_cons.1 hmembers
    obtain ⟨name, w⟩ := m
    obtain ⟨p, rfl, hp⟩ := Data.isOptionValue_iff.1 (hfirst w hm.2)
    obtain ⟨entries, rfl, hentries⟩ := ih hrest
    exact ⟨(name, p) :: entries, rfl, List.forall_mem_cons.2 ⟨hp, hentries⟩⟩

theorem Takes.succeeds (h : Takes s.space taken) (hnames : (s.space.map Prod.fst).Nodup)
    (hcheck : ∀ e ∈ s.space, e.2.check e.1 = .ok ()) (hvalues : "values" ∉ s.space.map Prod.fst)
    (hmembers : ∀ e ∈ s.space, ∀ v, e.2.Member v → v.IsOptionValue) :
    s.Succeeds ((Options.ofData (.dict (taken.map fun m => (.str m.1, m.2)))).mapError .options) := by
  rw [← h.names] at hnames hvalues
  obtain ⟨entries, hprims, hequal⟩ := h.exists_prims hmembers
  refine ⟨⟨entries⟩, ?_, ?_, contains_iff_forall.2 fun e he => ?_⟩
  · rw [Options.ofData_of_notMem hvalues, Options.ofEntries_eq_ok_iff.2 hprims]
    rfl
  · rw [← h.names, hprims, List.map_map]
    rfl
  · obtain ⟨⟨name, v⟩, hmem, rfl, hv⟩ := exists_mem_related h e he
    rw [hprims] at hmem hnames
    obtain ⟨⟨name, p⟩, hp, heq⟩ := List.mem_map.1 hmem
    obtain ⟨rfl, rfl⟩ := Prod.mk.inj heq
    rw [List.map_map] at hnames
    refine ⟨p, lookup_of_mem hnames hp, (Spec.contains_eq_true_iff (hcheck e he)).2 ⟨_, hv, ?_⟩⟩
    simp [Spec.same, Data.equal, hequal _ hp]

theorem succeeds_of_takes (h : ∀ t : Words, s.Succeeds (s.sample t).1) (htaken : Takes s.space taken) :
    s.Succeeds ((Options.ofData (.dict (taken.map fun m => (.str m.1, m.2)))).mapError .options) := by
  obtain ⟨words, hwords⟩ := sample_reaches htaken
  have hsucceeds := h ⟨words ++ []⟩
  rwa [hwords] at hsucceeds

/-- A value under the name `values` is taken for all options, so it must be a mapping of them. -/
theorem exists_dict_of_succeeds (hnames : (taken.map Prod.fst).Nodup) {v : Data}
    (hmem : ("values", v) ∈ taken)
    (h : s.Succeeds ((Options.ofData (.dict (taken.map fun m => (.str m.1, m.2)))).mapError .options)) :
    ∃ entries, v = .dict entries := by
  obtain ⟨o, ho, -⟩ := h
  have hfound : Data.find? (taken.map fun m => (.str m.1, m.2)) (.str "values") = some v := by
    rw [Options.find?_names, lookup_of_mem hnames hmem]
  unfold Options.ofData at ho
  simp only [hfound] at ho
  cases v with
  | dict entries => exact ⟨entries, rfl⟩
  | _ => cases ho

theorem values_notMem (hnames : (s.space.map Prod.fst).Nodup)
    (hcheck : ∀ e ∈ s.space, e.2.check e.1 = .ok ()) (h : ∀ t : Words, s.Succeeds (s.sample t).1) :
    "values" ∉ s.space.map Prod.fst := by
  intro hmem
  obtain ⟨e, he, hname⟩ := List.mem_map.1 hmem
  have hparts : ∀ v, e.2.Member v → ∃ entries, v = .dict entries := by
    intro v hv
    obtain ⟨taken, htaken, htakes⟩ := exists_takes_mem hcheck he hv
    rw [← htaken.names] at hnames
    rw [hname] at htakes
    exact exists_dict_of_succeeds hnames htakes (succeeds_of_takes h htaken)
  -- the options that are sampled have a value without parts in the same domain
  obtain ⟨o, -, -, hcontains⟩ := h ⟨[]⟩
  obtain ⟨p, -, hp⟩ := contains_iff_forall.1 hcontains e he
  obtain ⟨w, hw, hsame⟩ := (Spec.contains_eq_true_iff (hcheck e he)).1 hp
  obtain ⟨entries, rfl⟩ := hparts w hw
  simp [Spec.same, Data.equal] at hsame

theorem isOptionValue_of_succeeds (hnames : (s.space.map Prod.fst).Nodup)
    (hcheck : ∀ e ∈ s.space, e.2.check e.1 = .ok ()) (h : ∀ t : Words, s.Succeeds (s.sample t).1)
    {e : String × Spec} (he : e ∈ s.space) {v : Data} (hv : e.2.Member v) : v.IsOptionValue := by
  -- the member is drawn for some words, and the options of that sample must be accepted
  obtain ⟨taken, htaken, hmem⟩ := exists_takes_mem hcheck he hv
  have hvalues := values_notMem hnames hcheck h
  rw [← htaken.names] at hnames hvalues
  obtain ⟨o, ho, -, hcontains⟩ := succeeds_of_takes h htaken
  have hoptions : Options.ofEntries (taken.map fun m => (.str m.1, m.2)) = .ok o := by
    rw [Options.ofData_of_notMem hvalues] at ho
    cases hmade : Options.ofEntries (taken.map fun m => (.str m.1, m.2)) with
    | error issues =>
      rw [hmade] at ho
      cases ho
    | ok made =>
      rw [hmade] at ho
      cases ho
      rfl
  rw [Options.ofEntries_eq_ok_iff] at hoptions
  rw [hoptions] at hmem hnames
  obtain ⟨⟨name, p⟩, hp, heq⟩ := List.mem_map.1 hmem
  obtain ⟨rfl, rfl⟩ := Prod.mk.inj heq
  rw [List.map_map] at hnames
  obtain ⟨q, hq, hin⟩ := contains_iff_forall.1 hcontains e he
  obtain rfl : p = q := Option.some.inj ((lookup_of_mem hnames hp).symm.trans hq)
  obtain ⟨w, -, hsame⟩ := (Spec.contains_eq_true_iff (hcheck e he)).1 hin
  exact Data.isOptionValue_iff.2 ⟨p, rfl, Spec.equal_self_of_same hsame⟩

/-- A space that is accepted can be sampled for every stream of words exactly when it has no option with
the name `values` and no member with parts or that is no number. -/
theorem samples_succeed_iff (hnames : (space.map Prod.fst).Nodup) (h : ofSpace space = .ok s) :
    (∀ (σ : Type) [Source σ] (t : σ), s.Succeeds (s.sample.run t).1) ↔
      "values" ∉ space.map Prod.fst ∧ ∀ e ∈ space, ∀ v, e.2.Member v → v.IsOptionValue := by
  obtain ⟨rfl, hcheck⟩ := ofSpace_eq_ok h
  constructor
  · intro hsucceeds
    refine ⟨values_notMem hnames hcheck (hsucceeds Words), ?_⟩
    intro e he v hv
    exact isOptionValue_of_succeeds hnames hcheck (hsucceeds Words) he hv
  · rintro ⟨hvalues, hmembers⟩ σ _ t
    obtain ⟨taken, htaken, hsample⟩ := sample_yields_takes hcheck t
    rw [show (s.sample.run t).1 = _ from hsample]
    exact htaken.succeeds hnames hcheck hvalues hmembers

def mixedSpace : Space :=
  [("wide", ⟨[(.str "values", .list [.bool true, .bool false])]⟩),
    ("width", ⟨[(.str "distribution", .str "int_uniform"), (.str "min", .int 20),
      (.str "max", .int 140)]⟩)]

theorem samples_succeed_mixedSpace : (mixedSpace.map Prod.fst).Nodup ∧
    ofSpace mixedSpace = .ok ⟨mixedSpace⟩ ∧
      ∀ (σ : Type) [Source σ] (t : σ), Succeeds ⟨mixedSpace⟩ ((⟨mixedSpace⟩ : Sampler).sample.run t).1 := by
  have hnames : (mixedSpace.map Prod.fst).Nodup := by decide
  have haccepted : ofSpace mixedSpace = .ok ⟨mixedSpace⟩ := rfl
  refine ⟨hnames, haccepted, (samples_succeed_iff hnames haccepted).2 ⟨by decide, ?_⟩⟩
  intro e he v hv
  cases hv with
  | @candidate items _ hvalues hmem =>
    rcases List.mem_cons.1 he with rfl | he
    · cases hvalues
      rcases List.mem_pair.1 hmem with rfl | rfl
      · trivial
      · trivial
    · obtain rfl := List.mem_singleton.1 he
      cases hvalues
  | integer => trivial

/-- A candidate that would do under any other name. -/
def valuesSpace : Space := [("values", ⟨[(.str "values", .list [.int 1])]⟩)]

/-- Not every space that is accepted can be sampled: an option with the name `values` is in the way. -/
theorem not_forall_samples_succeed : ¬ ∀ (space : Space) (s : Sampler), (space.map Prod.fst).Nodup →
    ofSpace space = .ok s → ∀ (σ : Type) [Source σ] (t : σ), s.Succeeds (s.sample.run t).1 := by
  intro h
  have htakes : Takes valuesSpace [("values", .int 1)] :=
    .cons ⟨rfl, .candidate rfl List.mem_cons_self⟩ .nil
  obtain ⟨words, hwords⟩ := sample_reaches (s := ⟨valuesSpace⟩) htakes
  obtain ⟨o, ho, -⟩ := h valuesSpace ⟨valuesSpace⟩ (by decide) rfl Words ⟨words ++ []⟩
  cases (congrArg Prod.fst (hwords [])).symm.trans ho

end Sampler

end FormatFuzz
