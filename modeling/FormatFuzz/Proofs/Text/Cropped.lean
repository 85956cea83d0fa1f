import FormatFuzz.Text.Blank
import FormatFuzz.Text.Cells
import FormatFuzz.Text.Search
import Mathlib.Data.List.Forall2

namespace FormatFuzz.Text

variable {c : Char} {cs ds : List Char} {room : Nat}

theorem splitAt_eq_splitOnP (sep : Char → Bool) (cs : List Char) : splitAt sep cs = cs.splitOnP sep := by
  induction cs with
  | nil => rfl
  | cons c cs ih =>
    rw [splitAt, ih, List.splitOnP_cons_eq_if_modifyHead]
    obtain ⟨part, parts, hparts⟩ := List.exists_cons_of_ne_nil (List.splitOnP_ne_nil sep cs)
    rw [hparts]
    rfl

def linesOf (cs : List Char) : List (List Char) := cs.splitOnP (· == '\n')

theorem exists_linesOf_eq_cons (cs : List Char) : ∃ first rest, linesOf cs = first :: rest :=
  List.exists_cons_of_ne_nil (List.splitOnP_ne_nil _ cs)

theorem linesOf_cons (c : Char) (cs : List Char) :
    linesOf (c :: cs) = if c = '\n' then [] :: linesOf cs else (linesOf cs).modifyHead (c :: ·) := by
  rw [linesOf, List.splitOnP_cons_eq_if_modifyHead]
  simp only [beq_iff_eq]
  rfl

theorem linesOf_append_cons (cs ds : List Char) : linesOf (cs ++ '\n' :: ds) = linesOf cs ++ linesOf ds :=
  List.splitOnP_append_cons _ _ (by rfl)

theorem linesOf_eq_singleton (h : '\n' ∉ cs) : linesOf cs = [cs] :=
  List.splitOnP_eq_singleton fun c hc => by
    rw [beq_eq_false_iff_ne]
    rintro rfl
    exact h hc

theorem length_linesOf (cs : List Char) : (linesOf cs).length = cs.count '\n' + 1 := by
  induction cs with
  | nil => rfl
  | cons c cs ih =>
    rw [linesOf_cons]
    split
    · next h => rw [h, List.count_cons_self, List.length_cons, ih]
    · next h => rw [List.count_cons_of_ne h, List.length_modifyHead, ih]

theorem notMem_of_mem_linesOf {line : List Char} (h : line ∈ linesOf cs) : '\n' ∉ line := by
  induction cs generalizing line with
  | nil =>
    obtain rfl := List.mem_singleton.1 h
    exact List.not_mem_nil
  | cons c cs ih =>
    rw [linesOf_cons] at h
    obtain ⟨first, rest, hlines⟩ := exists_linesOf_eq_cons cs
    rw [hlines] at h ih
    split at h
    · rcases List.mem_cons.1 h with rfl | h
      · exact List.not_mem_nil
      · exact ih h
    · next hc =>
      rcases List.mem_cons.1 h with rfl | h
      · exact List.not_mem_cons_of_ne_of_not_mem (Ne.symm hc) (ih List.mem_cons_self)
      · exact ih (List.mem_cons_of_mem _ h)

def inked (cs : List Char) : List Char := cs.filter fun c => !isBlank c

theorem inked_append (cs ds : List Char) : inked (cs ++ ds) = inked cs ++ inked ds :=
  List.filter_append ..

theorem inked_cons (c : Char) (cs : List Char) : inked (c :: cs) = inked [c] ++ inked cs :=
  inked_append [c] cs

/-- Ink lies in a text if it lies in the ink of the text. -/
theorem sublist_inked (h : (inked cs).Sublist ds) : (inked cs).Sublist (inked ds) := by
  have hfilter : (inked (inked cs)).Sublist (inked ds) := h.filter _
  simpa only [inked, List.filter_filter, Bool.and_self] using hfilter

theorem mem_expandTabs {size column : Nat} {width : Char → Nat}
    (h : c ∈ expandTabs size width column cs) : c = ' ' ∨ c ∈ cs := by
  induction cs generalizing column with
  | nil => exact .inr h
  | cons d cs ih =>
    rw [expandTabs] at h
    split at h
    · rcases List.mem_append.1 h with h | h
      · exact .inl (List.eq_of_mem_replicate h)
      · exact (ih h).imp_right (List.mem_cons_of_mem _)
    · split at h
      all_goals
        rcases List.mem_cons.1 h with rfl | h
        · exact .inr List.mem_cons_self
        · exact (ih h).imp_right (List.mem_cons_of_mem _)

theorem map_inked_linesOf_cons (c : Char) (cs : List Char) :
    (linesOf (c :: cs)).map inked =
      if c = '\n' then [] :: (linesOf cs).map inked
      else ((linesOf cs).map inked).modifyHead (inked [c] ++ ·) := by
  rw [linesOf_cons]
  split
  · rfl
  · obtain ⟨first, rest, hlines⟩ := exists_linesOf_eq_cons cs
    rw [hlines]
    simp only [List.modifyHead_cons, List.map_cons, inked_cons c first]

/-- Blanks in front of a text leave no ink in its first line. -/
theorem map_inked_linesOf_blanks (n : Nat) (cs : List Char) :
    (linesOf (List.replicate n ' ' ++ cs)).map inked = (linesOf cs).map inked := by
  induction n with
  | zero => rfl
  | succ n ih =>
    rw [List.replicate_succ, List.cons_append, map_inked_linesOf_cons, if_neg (by decide), ih]
    exact congrFun List.modifyHead_id _

/-- The lines of a text have the same ink when its tabs are widened. -/
theorem map_inked_linesOf_expandTabs (size : Nat) (width : Char → Nat) (column : Nat) (cs : List Char) :
    (linesOf (expandTabs size width column cs)).map inked = (linesOf cs).map inked := by
  induction cs generalizing column with
  | nil => rfl
  | cons c cs ih =>
    rw [expandTabs]
    split
    · next htab =>
      rw [map_inked_linesOf_blanks, ih, map_inked_linesOf_cons, eq_of_beq htab, if_neg (by decide)]
      exact (congrFun List.modifyHead_id _).symm
    · split <;> rw [map_inked_linesOf_cons, map_inked_linesOf_cons, ih]

def widthBehind (joined : Bool) (c : Char) : Nat := if joined then 0 else cellWidth c

def cellsFrom (joined : Bool) : List Char → List (Char × Nat)
  | [] => []
  | c :: cs => (c, widthBehind joined c) :: cellsFrom (c == joiner) cs

theorem withCells_eq_cellsFrom (cs : List Char) : withCells cs = cellsFrom false cs := by
  induction cs with
  | nil => rfl
  | cons c cs ih =>
    rw [withCells, ih]
    cases cs with
    | nil => rfl
    | cons d cs =>
      by_cases hjoiner : c == joiner <;> simp [cellsFrom, widthBehind, hjoiner]

def widthFrom (joined : Bool) : List Char → Nat
  | [] => 0
  | c :: cs => widthBehind joined c + widthFrom (c == joiner) cs

theorem foldl_cellsFrom (joined : Bool) (cs : List Char) (n : Nat) :
    (cellsFrom joined cs).foldl (fun n cell => n + cell.2) n = n + widthFrom joined cs := by
  induction cs generalizing joined n with
  | nil => rfl
  | cons c cs ih => rw [cellsFrom, List.foldl_cons, ih, widthFrom, Nat.add_assoc]

theorem cells_eq_widthFrom (cs : List Char) : cells cs = widthFrom false cs := by
  rw [cells, withCells_eq_cellsFrom, foldl_cellsFrom, Nat.zero_add]

/-- A character of which only one half fits leaves no ink. -/
theorem inked_fitCells_cons (room : Nat) (c : Char) (n : Nat) (rest : List (Char × Nat)) :
    inked (fitCells room ((c, n) :: rest)) =
      if n ≤ room then inked [c] ++ inked (fitCells (room - n) rest) else [] := by
  rw [fitCells]
  split
  · exact inked_cons _ _
  · split <;> rfl

theorem mem_fitCells {joined : Bool} (h : c ∈ fitCells room (cellsFrom joined cs)) : c = ' ' ∨ c ∈ cs := by
  induction cs generalizing room joined with
  | nil => exact .inr h
  | cons d cs ih =>
    rw [cellsFrom, fitCells] at h
    split at h
    · rcases List.mem_cons.1 h with rfl | h
      · exact .inr List.mem_cons_self
      · exact (ih h).imp_right (List.mem_cons_of_mem _)
    · split at h
      · cases h
      · exact .inl (List.mem_singleton.1 h)

theorem prefix_inked_fitCells (room : Nat) (joined : Bool) (cs : List Char) :
    inked (fitCells room (cellsFrom joined cs)) <+: inked cs := by
  induction cs generalizing room joined with
  | nil => exact List.prefix_rfl
  | cons c cs ih =>
    rw [cellsFrom, inked_fitCells_cons, inked_cons c cs]
    split
    · exact (List.prefix_append_right_inj _).2 (ih _ _)
    · exact List.nil_prefix

theorem forall_split_cons_iff {P : List Char → Char → Prop} {d : Char} :
    (∀ before c after, d :: cs = before ++ c :: after → P before c) ↔
      P [] d ∧ ∀ before c after, cs = before ++ c :: after → P (d :: before) c := by
  constructor
  · exact fun h => ⟨h [] d cs rfl, fun before c after heq => h (d :: before) c after (heq ▸ rfl)⟩
  · rintro ⟨hfirst, hrest⟩ (_ | ⟨b, before⟩) c after heq
    · obtain ⟨rfl, rfl⟩ := List.cons.inj heq
      exact hfirst
    · obtain ⟨rfl, rfl⟩ := List.cons.inj heq
      exact hrest before c after rfl

/-- No ink is lost if the cells up to each character with ink are there. -/
theorem inked_fitCells_eq_iff (room : Nat) (joined : Bool) (cs : List Char) :
    inked (fitCells room (cellsFrom joined cs)) = inked cs ↔
      ∀ before c after, cs = before ++ c :: after →
        isBlank c = false → widthFrom joined (before ++ [c]) ≤ room := by
  induction cs generalizing room joined with
  | nil => simp [cellsFrom, fitCells]
  | cons d cs ih =>
    rw [cellsFrom, inked_fitCells_cons, forall_split_cons_iff]
    split
    · next hle =>
      have hfirst : widthFrom joined ([] ++ [d]) ≤ room := hle
      have hrest (before : List Char) (c : Char) : widthFrom joined (d :: before ++ [c]) ≤ room ↔
          widthFrom (d == joiner) (before ++ [c]) ≤ room - widthBehind joined d := by
        rw [List.cons_append, widthFrom]
        omega
      rw [inked_cons d cs, List.append_cancel_left_eq, ih, and_iff_right fun _ => hfirst]
      simp only [hrest]
    · next hgt =>
      -- the first character is too wide, so there must be no ink at all
      have hwide (before : List Char) : ¬ widthFrom joined (d :: before) ≤ room := by
        rw [widthFrom]
        omega
      rw [eq_comm, inked, List.filter_eq_nil_iff, List.forall_mem_cons]
      simp only [List.nil_append, List.cons_append, hwide, List.mem_iff_append, Bool.not_eq_true',
        forall_exists_index]
      refine and_congr_right' ⟨fun h before c after => h c before after, ?_⟩
      exact fun h c before after => h before c after

/-- Every character of a line that can be seen ends within a number of cells. -/
def Fits (room : Nat) (line : List Char) : Prop :=
  ∀ before c after, line = before ++ c :: after → isBlank c = false → cells (before ++ [c]) ≤ room

theorem crop_eq_fitCells (room : Nat) (line : List Char) :
    crop room line = fitCells room (cellsFrom false line) := by
  rw [crop, withCells_eq_cellsFrom]

theorem mem_crop {line : List Char} (h : c ∈ crop room line) : c = ' ' ∨ c ∈ line :=
  mem_fitCells (crop_eq_fitCells room line ▸ h)

theorem prefix_inked_crop (room : Nat) (line : List Char) : inked (crop room line) <+: inked line := by
  rw [crop_eq_fitCells]
  exact prefix_inked_fitCells room false line

/-- What is left of a line that is cut off has all of its ink exactly if it fits. -/
theorem inked_sublist_crop_iff {line : List Char} :
    (inked line).Sublist (crop room line) ↔ Fits room line := by
  have hprefix := prefix_inked_crop room line
  have hall : (inked line).Sublist (crop room line) ↔ inked (crop room line) = inked line := by
    constructor
    · exact fun h => hprefix.sublist.antisymm (sublist_inked h)
    · intro h
      rw [← h]
      exact List.filter_sublist
  rw [hall, crop_eq_fitCells, inked_fitCells_eq_iff]
  simp only [Fits, cells_eq_widthFrom]

end FormatFuzz.Text
