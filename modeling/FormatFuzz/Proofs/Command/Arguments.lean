import FormatFuzz.Command.Arguments
import Mathlib.Data.List.TakeWhile

namespace FormatFuzz.Arguments

def written : String × Option String → String
  | (name, none) => name
  | (name, some value) => name ++ "=" ++ value

def kept (o : String × Option String) : String × String := (o.1, o.2.getD "")

structure IsLong (name : String) : Prop where
  dashes : "--".toList <+: name.toList
  longer : 2 < name.length
  noEquals : '=' ∉ name.toList

/-- An option that goes by its long name and has a value exactly if one is given. -/
structure Known (rules : List OptionRule) (o : String × Option String) : Prop where
  isLong : IsLong o.1
  rule : ∃ r, find? rules o.1 = some r ∧ r.key = o.1 ∧ r.hasValue = o.2.isSome

variable {rules : List OptionRule} {keepUnknown untilFirst : Bool} {fuel : Nat} {a : Arguments}
  {o : String × Option String} {given : List (String × Option String)} {rest : List String}

theorem prefix_written (o : String × Option String) : o.1.toList <+: (written o).toList := by
  obtain ⟨name, _ | value⟩ := o
  · exact List.prefix_refl _
  · simp [written]

theorem splitValue_written (h : '=' ∉ o.1.toList) : splitValue (written o) = o := by
  have hname : ∀ c ∈ o.1.toList, (c != '=') = true := by
    intro c hc
    rw [bne_iff_ne]
    rintro rfl
    exact h hc
  obtain ⟨name, _ | value⟩ := o
  · simp [splitValue, written, List.takeWhile_eq_self_iff.2 hname, List.dropWhile_eq_nil_iff.2 hname]
  · have htext : (written (name, some value)).toList = name.toList ++ '=' :: value.toList := by
      simp [written]
    simp [splitValue, htext, List.takeWhile_append_of_pos hname, List.dropWhile_append_of_pos hname]

/-- An option in front of other arguments is taken in one step. -/
theorem readFrom_written (h : Known rules o) :
    readFrom rules keepUnknown untilFirst (fuel + 1) a (written o :: rest) =
      readFrom rules keepUnknown untilFirst fuel (a.withOption (kept o).1 (kept o).2) rest := by
  obtain ⟨⟨hdashes, hlonger, hequals⟩, r, hrule, hkey, hvalue⟩ := h
  have hlength : 2 < (written o).length := Nat.lt_of_lt_of_le hlonger (prefix_written o).length_le
  have hmore : ¬ (written o == "--") = true := by
    intro heq
    rw [beq_iff_eq.1 heq] at hlength
    exact absurd hlength (by decide)
  have hdash : (written o).startsWith "-" = true :=
    String.startsWith_string_iff.2 (.trans (by decide) (hdashes.trans (prefix_written o)))
  have hoption : ¬ (!((written o).startsWith "-" && decide (1 < (written o).length))) = true := by
    have htwo : 1 < (written o).length := by omega
    simp [hdash, htwo]
  have hlong : o.1.startsWith "--" = true := String.startsWith_string_iff.2 hdashes
  -- neither the end of the options nor another argument, so the name is looked up
  rw [readFrom, if_neg hmore, if_neg hoption, splitValue_written hequals]
  obtain ⟨name, value⟩ := o
  dsimp only at hlong hrule hkey hvalue ⊢
  rw [if_pos hlong, hrule]
  cases value with
  | none => simp only [hvalue, Option.isSome_none, hkey, kept, Option.getD_none]
  | some value => simp only [hvalue, Option.isSome_some, hkey, kept, Option.getD_some]

theorem readFrom_map_written (h : ∀ o ∈ given, Known rules o) :
    readFrom rules keepUnknown untilFirst (fuel + given.length) a (given.map written ++ rest) =
      readFrom rules keepUnknown untilFirst fuel { a with options := a.options ++ given.map kept }
        rest := by
  induction given generalizing a with
  | nil => simp
  | cons o given ih =>
    obtain ⟨ho, hgiven⟩ := List.forall_mem_cons.1 h
    rw [List.length_cons, ← Nat.add_assoc, List.map_cons, List.cons_append, readFrom_written ho,
      ih hgiven, withOption, List.map_cons, ← List.append_cons]

theorem read_map_written (h : ∀ o ∈ given, Known rules o) :
    read rules keepUnknown untilFirst (given.map written) = some ⟨given.map kept, []⟩ := by
  have hread : readFrom rules keepUnknown untilFirst (1 + given.length) {} (given.map written ++ []) =
      some ⟨[] ++ given.map kept, []⟩ := readFrom_map_written h
  rw [List.append_nil, List.nil_append] at hread
  rw [read, List.length_map, Nat.add_comm, hread]

theorem has_eq_true_iff {key : String} : a.has key = true ↔ key ∈ a.options.map Prod.fst := by
  simp [has, value?]

theorem value?_of_split {before after : List (String × String)} {key value : String}
    (h : a.options = before ++ (key, value) :: after) (hafter : key ∉ after.map Prod.fst) :
    a.value? key = some value := by
  have hnone : after.reverse.find? (·.1 == key) = none := by
    rw [List.find?_eq_none]
    intro o ho heq
    exact hafter (List.mem_map.2 ⟨o, List.mem_reverse.1 ho, beq_iff_eq.1 heq⟩)
  rw [value?, h, List.reverse_append, List.reverse_cons, List.append_assoc, List.find?_append, hnone]
  simp

end FormatFuzz.Arguments
