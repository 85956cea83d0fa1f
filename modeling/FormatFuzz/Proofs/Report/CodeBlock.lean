import FormatFuzz.Proofs.Options
import FormatFuzz.Proofs.Report.Sections
import FormatFuzz.Proofs.Text.Cropped
import FormatFuzz.Report.Layout

/-!
# What a report shows of a program

The rows of a block are read back as numbered lines: a row without a number goes on with the line above
it, as the rows of a line that is wrapped would. A report wraps no line, so it shows a program as a whole
exactly if each of its lines fits beside the numbers and no mark stands in front of the first.
-/

namespace FormatFuzz.Report

open Text

variable {source : String} {width : Nat}

/-- The numbers and texts of lines that are told by rows, with the text in front of the first number. The
first cells of a row hold its number, if it has one. -/
def readRows (indent : Nat) : List (List Char) → List Char × List (List Char × List Char)
  | [] => ([], [])
  | row :: rows =>
    let (more, told) := readRows indent rows
    let number := inked (row.take indent)
    let text := row.drop indent ++ more
    if number = [] then (text, told) else ([], (number, text) :: told)

def readBlock (indent : Nat) (block : String) : List (List Char × List Char) :=
  (readRows indent (linesOf block.toList)).2

/-- A line that is wrapped is read as one. -/
example : readBlock 4 "  1 ab\n    cd\n  2 \n" =
    [(['1'], ['a', 'b', 'c', 'd']), (['2'], [])] := by decide

def numberColumn (source : String) : Nat := (toString (source.toList.count '\n' + 1)).length + 3

/-- A block shows a program as a whole if its numbered lines hold the ink of the lines of the program. -/
def ShowsWhole (source block : String) : Prop :=
  List.Forall₂ (fun (line, number) (told, text) =>
      told = (toString number).toList ∧ (inked line).Sublist text)
    ((linesOf source.toList).zipIdx 1) (readBlock (numberColumn source) block)

def widenedLines (source : String) : List (List Char) :=
  linesOf (expandTabs 4 (fun _ => 1) 0 source.toList)

theorem withoutMark_cases (cs : List Char) :
    (withoutMark cs = cs ∧ ∀ c, cs.head? = some c → c.toNat ≠ 0xfeff) ∨
      ∃ c rest, c.toNat = 0xfeff ∧ cs = c :: rest ∧ withoutMark cs = rest := by
  cases cs with
  | nil => exact .inl ⟨rfl, nofun⟩
  | cons c rest =>
    rw [withoutMark]
    split
    · next hmark => exact .inr ⟨c, rest, eq_of_beq hmark, rfl, rfl⟩
    · next hmark =>
      refine .inl ⟨rfl, ?_⟩
      rintro d ⟨⟩ heq
      exact hmark (beq_iff_eq.2 heq)

theorem mem_withoutMark {c : Char} {cs : List Char} (h : c ∈ withoutMark cs) : c ∈ cs := by
  obtain ⟨hsame, -⟩ | ⟨mark, rest, -, rfl, hrest⟩ := withoutMark_cases cs
  · rwa [hsame] at h
  · rw [hrest] at h
    exact List.mem_cons_of_mem _ h

theorem count_withoutMark (cs : List Char) : (withoutMark cs).count '\n' = cs.count '\n' := by
  obtain ⟨hsame, -⟩ | ⟨mark, rest, hmark, rfl, hrest⟩ := withoutMark_cases cs
  · rw [hsame]
  · have hne : mark ≠ '\n' := by
      rintro rfl
      exact absurd hmark (by decide)
    rw [hrest, List.count_cons_of_ne hne]

theorem withoutMark_concat_newline (cs : List Char) :
    withoutMark (cs ++ ['\n']) = withoutMark cs ++ ['\n'] := by
  cases cs with
  | nil => rfl
  | cons c cs =>
    rw [List.cons_append, withoutMark, withoutMark]
    split <;> rfl

theorem expandTabs_concat_newline (size column : Nat) (w : Char → Nat) (cs : List Char) :
    expandTabs size w column (cs ++ ['\n']) = expandTabs size w column cs ++ ['\n'] := by
  induction cs generalizing column with
  | nil => rfl
  | cons c cs ih =>
    rw [List.cons_append, expandTabs, expandTabs]
    split
    · dsimp only
      rw [ih, List.append_assoc]
    · split <;> rw [ih, List.cons_append]

theorem filter_unifyLineEnds {cs : List Char} (h : ∀ c ∈ cs, isCursorControl c = false) :
    (unifyLineEnds (withoutMark (expandTabs 4 (fun _ => 1) 0 cs))).filter (fun c => !isCursorControl c) =
      withoutMark (expandTabs 4 (fun _ => 1) 0 cs) := by
  have hshown : ∀ c ∈ withoutMark (expandTabs 4 (fun _ => 1) 0 cs), isCursorControl c = false := by
    intro c hc
    rcases mem_expandTabs (mem_withoutMark hc) with rfl | hc
    · rfl
    · exact h c hc
  rw [unifyLineEnds_eq_self fun hreturn => absurd (hshown _ hreturn) (by decide),
    List.filter_eq_self.2 fun c hc => by simp [hshown c hc]]

/-- Whether or not the program ends a line, its lines are those that are numbered. -/
theorem codeLines_eq (h : ∀ c ∈ source.toList, isCursorControl c = false) :
    codeLines source = linesOf (withoutMark (expandTabs 4 (fun _ => 1) 0 source.toList)) := by
  unfold codeLines
  simp only [splitAt_eq_splitOnP]
  split
  · rw [filter_unifyLineEnds h]
    rfl
  · have hnewline : ∀ c ∈ (source ++ "\n").toList, isCursorControl c = false := by
      intro c hc
      rw [String.toList_append, List.mem_append] at hc
      rcases hc with hc | hc
      · exact h c hc
      · rw [List.mem_singleton.1 hc]
        rfl
    rw [filter_unifyLineEnds hnewline, String.toList_append, show "\n".toList = ['\n'] from rfl,
      expandTabs_concat_newline, withoutMark_concat_newline]
    exact (congrArg List.dropLast (linesOf_append_cons _ [])).trans List.dropLast_concat

theorem length_toString_le {m n : Nat} (h : m ≤ n) : (toString m).length ≤ (toString n).length := by
  have hlength (k : Nat) : (toString k).length = (Nat.toDigits 10 k).length := by
    rw [Nat.toString_eq_ofList_toDigits, String.length_ofList]
  have hpos : 0 < (Nat.toDigits 10 n).length := List.length_pos_of_ne_nil Nat.toDigits_ne_nil
  rw [hlength, hlength, Nat.length_toDigits_le_iff (by decide) hpos]
  exact h.trans_lt ((Nat.length_toDigits_le_iff (by decide) hpos).1 le_rfl)

theorem inked_toString (n : Nat) : inked (toString n).toList = (toString n).toList := by
  rw [inked, List.filter_eq_self]
  intro c hc
  obtain ⟨hlow, hhigh⟩ := toNat_of_mem_toString hc
  simp only [isBlank, Bool.not_eq_true', Bool.or_eq_false_iff, Bool.and_eq_false_iff, decide_eq_false_iff_not,
    beq_eq_false_iff_ne]
  omega

def numberMargin (digits n : Nat) : List Char := [' ', ' '] ++ (padNumber digits n).toList ++ [' ']

theorem toList_padNumber (digits n : Nat) : (padNumber digits n).toList =
    List.replicate (digits - (toString n).length) ' ' ++ (toString n).toList := by
  rw [padNumber, String.toList_append, String.toList_ofList]

theorem length_numberMargin {digits n : Nat} (h : (toString n).length ≤ digits) :
    (numberMargin digits n).length = digits + 3 := by
  simp only [numberMargin, toList_padNumber, List.length_append, List.length_replicate,
    String.length_toList, List.length_cons, List.length_nil]
  omega

theorem inked_numberMargin (digits n : Nat) : inked (numberMargin digits n) = (toString n).toList := by
  have hblanks (k : Nat) : inked (List.replicate k ' ') = [] :=
    List.filter_eq_nil_iff.2 fun c hc => by rw [List.eq_of_mem_replicate hc]; decide
  rw [numberMargin, toList_padNumber, inked_append, inked_append, inked_append, inked_toString, hblanks]
  exact List.append_nil _

theorem notMem_numberMargin (digits n : Nat) : '\n' ∉ numberMargin digits n := by
  have hdigits : '\n' ∉ (toString n).toList := fun h =>
    absurd (toNat_of_mem_toString h).1 (by decide)
  simpa [numberMargin, toList_padNumber] using hdigits

theorem readRows_cons_of_number {indent : Nat} {margin text : List Char} (rows : List (List Char))
    (hlength : margin.length = indent) (hnumber : inked margin ≠ []) :
    readRows indent ((margin ++ text) :: rows) =
      ([], (inked margin, text ++ (readRows indent rows).1) :: (readRows indent rows).2) := by
  rw [readRows, List.take_left' hlength, List.drop_left' hlength]
  exact if_neg hnumber

/-- The lines that are numbered are read back with their numbers, each cut off. -/
theorem readRows_numberLines {digits room number : Nat} {lines : List (List Char)}
    (hlines : ∀ line ∈ lines, '\n' ∉ line)
    (hdigits : ∀ n < number + lines.length, (toString n).length ≤ digits) :
    readRows (digits + 3) (linesOf (numberLines digits room number lines).toList) =
      ([], (lines.zipIdx number).map fun (line, n) => ((toString n).toList, crop room line)) := by
  induction lines generalizing number with
  | nil => rfl
  | cons line lines ih =>
    have hrow : (numberLines digits room number (line :: lines)).toList =
        (numberMargin digits number ++ crop room line) ++
          '\n' :: (numberLines digits room (number + 1) lines).toList := by
      simp [numberLines, numberMargin]
    have hend : '\n' ∉ numberMargin digits number ++ crop room line := by
      rw [List.mem_append]
      rintro (h | h)
      · exact notMem_numberMargin digits number h
      · rcases mem_crop h with h | h
        · exact absurd h (by decide)
        · exact hlines line List.mem_cons_self h
    have hlength := length_numberMargin (hdigits number (by simp))
    have hnumber : inked (numberMargin digits number) ≠ [] := by
      rw [inked_numberMargin, Nat.toString_eq_ofList_toDigits, String.toList_ofList]
      exact Nat.toDigits_ne_nil
    have hrest := @ih (number + 1) (fun l hl => hlines l (List.mem_cons_of_mem _ hl))
      fun n hn => hdigits n (by rw [List.length_cons]; omega)
    rw [hrow, linesOf_append_cons, linesOf_eq_singleton hend, List.singleton_append,
      readRows_cons_of_number _ hlength hnumber, hrest, inked_numberMargin, List.append_nil]
    rfl

theorem forall₂_zipIdx_map {α β γ : Type} {R : α × Nat → β → Prop} {f : γ × Nat → β} {P : α → γ → Prop}
    (hR : ∀ a c n, R (a, n) (f (c, n)) ↔ P a c) (as : List α) (cs : List γ) (n : Nat) :
    List.Forall₂ R (as.zipIdx n) ((cs.zipIdx n).map f) ↔ List.Forall₂ P as cs := by
  induction as generalizing cs n with
  | nil => cases cs <;> simp
  | cons a as ih =>
    cases cs with
    | nil => simp
    | cons c cs => simp only [List.zipIdx_cons, List.map_cons, List.forall₂_cons, hR, ih]

theorem length_codeLines (h : ∀ c ∈ source.toList, isCursorControl c = false) :
    (codeLines source).length = source.toList.count '\n' + 1 := by
  rw [codeLines_eq h, length_linesOf, count_withoutMark, ← length_linesOf, ← List.length_map inked,
    map_inked_linesOf_expandTabs, List.length_map, length_linesOf]

/-- The block of a program shows it as a whole if each line has its ink in the line of the block. -/
theorem showsWhole_codeBlock_iff_forall₂ (h : ∀ c ∈ source.toList, isCursorControl c = false)
    (hroom : numberColumn source < width) :
    ShowsWhole source (codeBlock width source) ↔
      List.Forall₂ (fun line shown => (inked line).Sublist (crop (width - numberColumn source) shown))
        (linesOf source.toList) (codeLines source) := by
  have hlines : ∀ line ∈ codeLines source, '\n' ∉ line := by
    intro line hline
    rw [codeLines_eq h] at hline
    exact notMem_of_mem_linesOf hline
  have hblock : codeBlock width source = numberLines (toString (source.toList.count '\n' + 1)).length
      (width - numberColumn source) 1 (codeLines source) :=
    if_neg (Nat.sub_ne_zero_of_lt hroom)
  rw [ShowsWhole, readBlock, hblock, numberColumn, readRows_numberLines hlines]
  · exact forall₂_zipIdx_map (fun _ _ _ => and_iff_right rfl) _ _ 1
  · intro n hn
    rw [length_codeLines h] at hn
    exact length_toString_le (by omega)

theorem head?_expandTabs {cs : List Char} {c : Char} {w : Char → Nat}
    (h : (expandTabs 4 w 0 cs).head? = some c) : c = ' ' ∨ cs.head? = some c := by
  cases cs with
  | nil => cases h
  | cons d cs =>
    rw [expandTabs] at h
    split at h
    · cases h
      exact .inl rfl
    · split at h <;> exact .inr h

/-- A mark in front of a program is not shown. -/
theorem not_forall₂_of_mark {c : Char} {cs : List Char} (room : Nat) (hmark : c.toNat = 0xfeff) :
    ¬ List.Forall₂ (fun line shown => (inked line).Sublist (crop room shown)) (linesOf (c :: cs))
      (linesOf (withoutMark (expandTabs 4 (fun _ => 1) 0 (c :: cs)))) := by
  have hne (d : Char) (hd : d.toNat ≠ 0xfeff) : c ≠ d := fun heq => hd (heq ▸ hmark)
  have hshown : withoutMark (expandTabs 4 (fun _ => 1) 0 (c :: cs)) = expandTabs 4 (fun _ => 1) 1 cs := by
    rw [expandTabs, if_neg (by simpa using hne '\t' (by decide)),
      if_neg (by simpa using ⟨hne '\n' (by decide), hne '\r' (by decide)⟩), withoutMark,
      if_pos (beq_iff_eq.2 hmark)]
  have hblank : isBlank c = false := by simp [isBlank, hmark]
  have hink := map_inked_linesOf_expandTabs 4 (fun _ => 1) 1 cs
  rw [hshown, linesOf_cons, if_neg (hne '\n' (by decide))]
  obtain ⟨first, rest, hlines⟩ := exists_linesOf_eq_cons cs
  obtain ⟨shown, others, hothers⟩ := exists_linesOf_eq_cons (expandTabs 4 (fun _ => 1) 1 cs)
  rw [hlines, hothers, List.map_cons, List.map_cons] at hink
  rw [hlines, hothers, List.modifyHead_cons, List.forall₂_cons]
  rintro ⟨hfirst, -⟩
  -- the first line has one character of ink more than what is shown of it
  have hlength := ((sublist_inked hfirst).trans (prefix_inked_crop room shown).sublist).length_le
  rw [(List.cons.inj hink).1, inked_cons, List.length_append, show inked [c] = [c] by simp [inked, hblank],
    List.length_singleton] at hlength
  omega

/-- A program is shown as a whole exactly if no mark is in front of it and each of its lines fits beside
the numbers. -/
theorem showsWhole_codeBlock_iff (h : ∀ c ∈ source.toList, isCursorControl c = false)
    (hroom : numberColumn source < width) :
    ShowsWhole source (codeBlock width source) ↔
      withoutMark source.toList = source.toList ∧
        ∀ line ∈ widenedLines source, Fits (width - numberColumn source) line := by
  rw [showsWhole_codeBlock_iff_forall₂ h hroom, codeLines_eq h]
  obtain ⟨hsame, hhead⟩ | ⟨c, rest, hmark, hcons, hrest⟩ := withoutMark_cases source.toList
  · have hwidened : withoutMark (expandTabs 4 (fun _ => 1) 0 source.toList) =
        expandTabs 4 (fun _ => 1) 0 source.toList := by
      obtain ⟨heq, -⟩ | ⟨c, rest, hmark, hcons, -⟩ :=
        withoutMark_cases (expandTabs 4 (fun _ => 1) 0 source.toList)
      · exact heq
      · rcases head?_expandTabs (congrArg List.head? hcons) with rfl | hc
        · exact absurd hmark (by decide)
        · exact absurd hmark (hhead c hc)
    rw [hwidened, ← widenedLines, and_iff_right hsame, ← List.forall₂_map_left_iff (f := inked)
      (R := fun ink shown => ink.Sublist (crop (width - numberColumn source) shown)),
      ← map_inked_linesOf_expandTabs 4 (fun _ => 1) 0, ← widenedLines, List.forall₂_map_left_iff,
      List.forall₂_same]
    simp only [inked_sublist_crop_iff]
  · refine iff_of_false ?_ fun h => ?_
    · rw [hcons]
      exact not_forall₂_of_mark _ hmark
    · rw [hrest, hcons] at h
      exact List.cons_ne_self c rest h.1.symm

/-- A report begins with the block of the program, and after a separator a success has the block of its
output. Such a block shows its program as a whole exactly if no mark is in front of the program and each
of its lines, with tabs widened, fits beside the numbers: what is behind the end of a row is cut off and
not wrapped. -/
theorem programs_shown_iff (r : RunResult) (width : Nat) (reproduce : Bool) (command : Option String) :
    (∃ rest, render r width reproduce command = codeBlock width r.program.source ++ rest) ∧
      (∀ output, r.verdict = .success → r.diff = none → r.first = .success output →
        ∃ rest, render r width reproduce command = codeBlock width r.program.source ++
          sectionText width (separator width) ++ codeBlock width output ++ rest) ∧
      ∀ source : String, (∀ c ∈ source.toList, isCursorControl c = false) → numberColumn source < width →
        (ShowsWhole source (codeBlock width source) ↔
          withoutMark source.toList = source.toList ∧
            ∀ line ∈ widenedLines source, Fits (width - numberColumn source) line) := by
  have hjoin (a : String) (l : List String) : String.join (a :: l) = a ++ String.join l := by
    simp
  refine ⟨⟨_, hjoin _ _⟩, fun output hverdict hdiff hfirst => ?_, fun source => showsWhole_codeBlock_iff⟩
  have hbody : body r = [.code output] := by
    rw [body, hdiff, hverdict, hfirst]
  unfold render sections
  rw [hbody]
  simp only [List.cons_append, List.nil_append, List.append_assoc, List.map_cons, hjoin]
  simp only [← String.append_assoc]
  exact ⟨_, rfl⟩

/-- A success whose program fits beside the numbers of a narrow terminal, and whose output does not. -/
def cutReport : RunResult where
  tries := 1
  program := ⟨"ab\n", 7, "ast"⟩
  options := ⟨[]⟩
  first := .success "abQ\n"
  second := some (.success "abQ\n")
  verdict := .success
  diff := none

theorem controlFree_of_all {cs : List Char} (h : cs.all (!isCursorControl ·) = true) :
    ∀ c ∈ cs, isCursorControl c = false := by
  simpa only [List.all_eq_true, Bool.not_eq_true'] using h

theorem programs_shown_iff_cutReport :
    (∃ rest, render cutReport 6 false none = codeBlock 6 "ab\n" ++ sectionText 6 (separator 6) ++
        codeBlock 6 "abQ\n" ++ rest) ∧
      ShowsWhole "ab\n" (codeBlock 6 "ab\n") ∧ ¬ ShowsWhole "abQ\n" (codeBlock 6 "abQ\n") := by
  obtain ⟨-, houtput, hiff⟩ := programs_shown_iff cutReport 6 false none
  refine ⟨houtput _ rfl rfl rfl, ?_, ?_⟩
  · refine (hiff "ab\n" (controlFree_of_all rfl) (by decide)).2 ⟨rfl, fun line hline => ?_⟩
    rw [← inked_sublist_crop_iff]
    rw [show widenedLines "ab\n" = [['a', 'b'], []] by decide, List.mem_cons, List.mem_singleton] at hline
    rcases hline with rfl | rfl <;> decide
  · intro h
    have hfits := ((hiff "abQ\n" (controlFree_of_all rfl) (by decide)).1 h).2 ['a', 'b', 'Q'] (by decide)
    exact absurd (inked_sublist_crop_iff.2 hfits) (by decide)

/-- Not every character of a program that can be seen is in the report. -/
theorem not_forall_mem_render :
    ¬ ∀ (r : RunResult) (width : Nat) (reproduce : Bool) (command : Option String),
      (∀ c ∈ r.program.source.toList, isCursorControl c = false) →
        numberColumn r.program.source + 2 ≤ width →
          ∀ c ∈ inked r.program.source.toList, c ∈ (render r width reproduce command).toList := by
  intro h
  have hmem := h { cutReport with program := ⟨"abQ\n", 7, "ast"⟩ } 6 false none
    (controlFree_of_all rfl) (by decide) 'Q' (by decide)
  revert hmem
  decide +kernel

end FormatFuzz.Report
