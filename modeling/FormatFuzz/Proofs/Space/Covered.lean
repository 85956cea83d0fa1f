import FormatFuzz.Proofs.Space.Sampling

namespace FormatFuzz

open FormatFuzz.Random FormatFuzz.Random.Draw

/-- A value without parts that is not a NaN has its own value and kind. -/
theorem Data.IsOptionValue.same_self {v : Data} (h : v.IsOptionValue) : Spec.same v v = true := by
  obtain ⟨p, rfl, hp⟩ := isOptionValue_iff.1 h
  simp [Spec.same, equal, hp]

namespace Spec

variable {spec : Spec} {name : String} {v : Data} {low high : Int}

def Draws (spec : Spec) (name : String) (v : Data) : Prop :=
  ∃ words : Words, ((spec.draw name).run words).1 = .ok v

theorem draws_iff_member (h : spec.check name = .ok ()) : spec.Draws name v ↔ spec.Member v := by
  constructor
  · rintro ⟨words, hdrawn⟩
    obtain ⟨w, hw, hmember⟩ := draw_yields_member h words
    obtain rfl : w = v := Except.ok.inj (hw.symm.trans hdrawn)
    exact hmember
  · intro hmember
    obtain ⟨words, hwords⟩ := draw_reaches_member hmember name
    exact ⟨⟨words ++ []⟩, congrArg Prod.fst (hwords [])⟩

/-- Candidates that can be the values of options make all members such values. -/
theorem Member.isOptionValue
    (hvalues : ∀ items, spec.get? "values" = some (.list items) → ∀ v ∈ items, v.IsOptionValue)
    (h : spec.Member v) : v.IsOptionValue := by
  cases h with
  | candidate hitems hmem => exact hvalues _ hitems _ hmem
  | integer => trivial

/-- A description of the integers from one to another, of which a missing one is zero. -/
structure Uniform (spec : Spec) (low high : Int) : Prop where
  noValues : spec.get? "values" = none
  distribution : ∃ d, spec.get? "distribution" = some d ∧ isUniform d = true
  min : spec.bound "min" = .int low
  max : spec.bound "max" = .int high

theorem Uniform.check (h : spec.Uniform low high) (hle : low ≤ high) (name : String) :
    spec.check name = .ok () := by
  obtain ⟨hvalues, ⟨d, hdistribution, huniform⟩, hmin, hmax⟩ := h
  unfold Spec.check
  simp only [hvalues, hdistribution, huniform, hmin, hmax, if_true, if_neg (Int.not_lt.2 hle)]

theorem Uniform.member_iff (h : spec.Uniform low high) :
    spec.Member v ↔ ∃ n : Int, v = .int n ∧ low ≤ n ∧ n ≤ high := by
  obtain ⟨hvalues, ⟨d, hdistribution, huniform⟩, hmin, hmax⟩ := h
  exact member_iff_exists hvalues hdistribution huniform hmin hmax

/-- An integer is the same as no other value, so a range holds its members and nothing else. -/
theorem Uniform.contains_iff_member (h : spec.Uniform low high) (hle : low ≤ high) :
    spec.contains v = .ok true ↔ spec.Member v := by
  rw [contains_eq_true_iff (h.check hle "")]
  constructor
  · rintro ⟨w, hw, hsame⟩
    obtain ⟨n, rfl, -⟩ := h.member_iff.1 hw
    rwa [same_int_iff.1 hsame]
  · intro hv
    obtain ⟨n, rfl, -⟩ := h.member_iff.1 hv
    exact ⟨.int n, hv, same_int_iff.2 rfl⟩

/-- From a description that is accepted, with candidates that can be the values of options, a value of the
domain is drawn for every stream of words, and every value of the domain equals one of its kind that is
drawn for some words. A range whose lower bound is not above its upper one is accepted, and what is drawn
from it and what lies in its domain are both the integers from one bound to the other. -/
theorem draw_covers (spec : Spec) (name : String) :
    (spec.check name = .ok () →
      (∀ items, spec.get? "values" = some (.list items) → ∀ v ∈ items, v.IsOptionValue) →
        (∀ (σ : Type) [Source σ] (t : σ),
          ∃ v, ((spec.draw name).run t).1 = .ok v ∧ spec.contains v = .ok true) ∧
        ∀ v, spec.contains v = .ok true → ∃ w, spec.Draws name w ∧ same v w = true) ∧
    ∀ low high : Int, spec.Uniform low high → low ≤ high → spec.check name = .ok () ∧
      ∀ v, (spec.Draws name v ↔ ∃ n : Int, v = .int n ∧ low ≤ n ∧ n ≤ high) ∧
        (spec.contains v = .ok true ↔ ∃ n : Int, v = .int n ∧ low ≤ n ∧ n ≤ high) := by
  refine ⟨fun hcheck hvalues => ⟨?_, ?_⟩, ?_⟩
  · intro σ _ t
    obtain ⟨v, hdrawn, hmember⟩ := draw_yields_member hcheck t
    have hsame := (hmember.isOptionValue hvalues).same_self
    exact ⟨v, hdrawn, (contains_eq_true_iff hcheck).2 ⟨v, hmember, hsame⟩⟩
  · intro v hv
    obtain ⟨w, hmember, hsame⟩ := (contains_eq_true_iff hcheck).1 hv
    exact ⟨w, (draws_iff_member hcheck).2 hmember, hsame⟩
  · intro low high huniform hle
    have hcheck := huniform.check hle name
    refine ⟨hcheck, fun v => ⟨?_, ?_⟩⟩
    · rw [draws_iff_member hcheck, huniform.member_iff]
    · rw [huniform.contains_iff_member hle, huniform.member_iff]

/-- Candidates that are equal or look alike, each of a kind of its own. -/
def kindSpec : Spec :=
  ⟨[(.str "values", .list [.bool true, .int 1, .float ⟨0x3ff0000000000000⟩, .str "1", .null])]⟩

/-- The integers up to zero, which is the upper bound where none is given. -/
def debtSpec : Spec := ⟨[(.str "distribution", .str "int_uniform"), (.str "min", .int (-3))]⟩

theorem draw_covers_kindSpec_debtSpec : kindSpec.check "kind" = .ok () ∧
    (∀ items, kindSpec.get? "values" = some (.list items) → ∀ v ∈ items, v.IsOptionValue) ∧
    (∃ w, kindSpec.Draws "kind" w ∧ same (.int 1) w = true) ∧
    debtSpec.Uniform (-3) 0 ∧ (-3 : Int) ≤ 0 ∧ debtSpec.check "debt" = .ok () ∧
    debtSpec.Draws "debt" (.int (-3)) ∧ debtSpec.Draws "debt" (.int 0) ∧
    ¬ debtSpec.Draws "debt" (.bool false) := by
  have hcheck : kindSpec.check "kind" = .ok () := rfl
  have hvalues : ∀ items, kindSpec.get? "values" = some (.list items) → ∀ v ∈ items, v.IsOptionValue := by
    intro items hitems
    have hone : (⟨0x3ff0000000000000⟩ : Decimal.Binary64).isNaN = false := by decide
    cases hitems
    simp [Data.IsOptionValue, hone]
  have huniform : debtSpec.Uniform (-3) 0 := ⟨rfl, ⟨_, rfl, rfl⟩, rfl, rfl⟩
  have hle : (-3 : Int) ≤ 0 := by decide
  obtain ⟨-, hdrawn⟩ := (draw_covers kindSpec "kind").1 hcheck hvalues
  obtain ⟨haccepted, hrange⟩ := (draw_covers debtSpec "debt").2 (-3) 0 huniform hle
  refine ⟨hcheck, hvalues, hdrawn _ rfl, huniform, hle, haccepted, ?_, ?_, ?_⟩
  · exact (hrange _).1.2 ⟨-3, rfl, by decide, by decide⟩
  · exact (hrange _).1.2 ⟨0, rfl, by decide, by decide⟩
  · intro h
    obtain ⟨n, hn, -⟩ := (hrange _).1.1 h
    cases hn

end Spec

end FormatFuzz
