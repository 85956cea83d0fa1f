import FormatFuzz.Diff.Render
import FormatFuzz.Proofs.Diff.Script

namespace FormatFuzz

namespace StyledText

def stylesAt (spans : List Span) (i : Nat) : List String :=
  (spans.filter fun s => s.start ≤ i ∧ i < s.stop).map Span.style

def styledChars (t : StyledText) : List (Char × List String) :=
  t.text.toList.zipIdx.map fun (c, i) => (c, stylesAt t.spans i)

/-- The spans lie within the text, in order and without overlap. -/
structure Ordered (t : StyledText) : Prop where
  within : ∀ s ∈ t.spans, s.start ≤ s.stop ∧ s.stop ≤ t.text.length
  apart : t.spans.Pairwise fun s s' => s.stop ≤ s'.start

structure Shows (t : StyledText) (row : List (Char × List String)) : Prop where
  ordered : t.Ordered
  chars_eq : t.styledChars = row

def pieceRow (cs : List Char) (style : String) : List (Char × List String) :=
  (cs.filter fun c => !isCursorControl c).map fun c => (c, if style.isEmpty then [] else [style])

variable {t : StyledText} {row : List (Char × List String)}

theorem shows_empty : empty.Shows [] where
  ordered := ⟨nofun, .nil⟩
  chars_eq := rfl

theorem stylesAt_eq_nil {spans : List Span} {i : Nat} (h : ∀ s ∈ spans, s.stop ≤ i) :
    stylesAt spans i = [] := by
  rw [stylesAt, List.filter_eq_nil_iff.2, List.map_nil]
  intro s hs
  have hstop := h s hs
  simp only [decide_eq_true_eq]
  omega

theorem stylesAt_concat (spans : List Span) (s : Span) (i : Nat) : stylesAt (spans ++ [s]) i =
    stylesAt spans i ++ if s.start ≤ i ∧ i < s.stop then [s.style] else [] := by
  simp only [stylesAt, List.filter_append, List.map_append]
  by_cases h : s.start ≤ i ∧ i < s.stop
  · simp [h]
  · simp [h]

theorem Ordered.append (h : t.Ordered) (piece style : String) : (t.append piece style).Ordered := by
  have hlength : (t.append piece style).text.length =
      t.text.length + (withoutControls piece).length := String.length_append ..
  have hwithin : ∀ s ∈ t.spans, s.start ≤ s.stop ∧ s.stop ≤ (t.append piece style).text.length :=
    fun s hs => ⟨(h.within s hs).1, (h.within s hs).2.trans (by omega)⟩
  -- a piece without characters or without style adds no span
  by_cases hspan : (piece.isEmpty || style.isEmpty) = true
  · have hspans : (t.append piece style).spans = t.spans := if_pos hspan
    exact ⟨by rwa [hspans], by rw [hspans]; exact h.apart⟩
  · have hspans : (t.append piece style).spans = t.spans ++ [⟨t.text.length,
        t.text.length + (withoutControls piece).length, style⟩] := if_neg hspan
    constructor
    · intro s hs
      rw [hspans, List.mem_append, List.mem_singleton] at hs
      rcases hs with hs | rfl
      · exact hwithin s hs
      · exact ⟨Nat.le_add_right _ _, hlength.ge⟩
    · rw [hspans, List.pairwise_append]
      refine ⟨h.apart, List.pairwise_singleton _ _, fun s hs s' hs' => ?_⟩
      rw [List.mem_singleton.1 hs']
      exact (h.within s hs).2

theorem stylesAt_append_of_lt {i : Nat} (hi : i < t.text.length) (piece style : String) :
    stylesAt (t.append piece style).spans i = stylesAt t.spans i := by
  unfold StyledText.append
  split
  · rfl
  · rw [stylesAt_concat, if_neg (by simp only; omega), List.append_nil]

/-- The characters that are appended have the style of their piece and no other one. -/
theorem Ordered.stylesAt_append_of_ge (h : t.Ordered) {i : Nat} {piece : String} (style : String)
    (hi : t.text.length ≤ i) (hi' : i < t.text.length + (withoutControls piece).length) :
    stylesAt (t.append piece style).spans i = if style.isEmpty then [] else [style] := by
  have hold : stylesAt t.spans i = [] :=
    stylesAt_eq_nil fun s hs => (h.within s hs).2.trans hi
  have hpiece : piece.isEmpty = false := by
    by_contra hempty
    have hnil : piece = "" := by simpa using hempty
    rw [hnil, show (withoutControls "").length = 0 from rfl] at hi'
    omega
  unfold StyledText.append
  cases hstyle : style.isEmpty with
  | true => simp [hold]
  | false => simp [hpiece, stylesAt_concat, hold, hi, hi']

theorem styledChars_append (h : t.Ordered) (piece style : String) :
    (t.append piece style).styledChars = t.styledChars ++ pieceRow piece.toList style := by
  have hadded : (withoutControls piece).toList = piece.toList.filter fun c => !isCursorControl c :=
    String.toList_ofList
  have htext : (t.append piece style).text.toList =
      t.text.toList ++ (withoutControls piece).toList := String.toList_append
  have hold : (t.text.toList.zipIdx.map fun (c, i) =>
      (c, stylesAt (t.append piece style).spans i)) = t.styledChars := by
    refine List.map_congr_left fun p hp => ?_
    have hi := List.snd_lt_of_mem_zipIdx hp
    rw [String.length_toList, Nat.add_zero] at hi
    simp only [stylesAt_append_of_lt hi]
  have hnew : (((withoutControls piece).toList.zipIdx (0 + t.text.toList.length)).map fun (c, i) =>
      (c, stylesAt (t.append piece style).spans i)) = pieceRow piece.toList style := by
    rw [pieceRow, ← hadded, ← List.zipIdx_map_fst (0 + t.text.toList.length)
      (withoutControls piece).toList, List.map_map, List.zipIdx_map_fst]
    refine List.map_congr_left fun p hp => ?_
    have hle := List.le_snd_of_mem_zipIdx hp
    have hlt := List.snd_lt_add_of_mem_zipIdx hp
    simp only [String.length_toList, Nat.zero_add] at hle hlt
    simp only [Function.comp_apply, h.stylesAt_append_of_ge style hle hlt]
  rw [styledChars, htext, List.zipIdx_append, List.map_append, hold, hnew]

theorem Shows.append (h : t.Shows row) (piece style : String) :
    (t.append piece style).Shows (row ++ pieceRow piece.toList style) :=
  ⟨h.ordered.append piece style, by rw [styledChars_append h.ordered, h.chars_eq]⟩

end StyledText

@[simp] theorem Change.isEmpty_style (change : Change) : change.style.isEmpty = false := by
  cases change with
  | _ => rfl

/-- How a character of a segment is shown: a line end that is removed or added has no style, and a space
that has the style stands in front of it. -/
def Change.shown (change : Change) (c : Char) : List (Char × List String) :=
  if isCursorControl c then []
  else if change ≠ .equal ∧ c = '\n' then [(' ', [change.style]), (c, [])]
  else [(c, [change.style])]

theorem Change.shown_control (change : Change) {c : Char} (h : isCursorControl c = true) :
    change.shown c = [] := if_pos h

theorem Change.shown_lineEnd {change : Change} (h : change ≠ .equal) :
    change.shown '\n' = [(' ', [change.style]), ('\n', [])] := by
  simp [shown, h, isCursorControl]

theorem Change.shown_plain {change : Change} {c : Char} (hc : isCursorControl c = false)
    (h : ¬ (change ≠ .equal ∧ c = '\n')) : change.shown c = [(c, [change.style])] := by
  rw [shown, hc, if_neg Bool.false_ne_true, if_neg h]

namespace Segment

def shown (s : Segment) : List (Char × List String) := s.text.toList.flatMap s.change.shown

def changedChars (ss : List Segment) : List (Change × Char) :=
  ss.flatMap fun s => s.text.toList.map fun c => (s.change, c)

end Segment

namespace StyledText

variable {t : StyledText} {row : List (Char × List String)}

theorem pieceRow_cons {change : Change} {c : Char} (h : ¬ (change ≠ .equal ∧ c = '\n'))
    (cs : List Char) :
    pieceRow (c :: cs) change.style = change.shown c ++ pieceRow cs change.style := by
  cases hcontrol : isCursorControl c with
  | true => simp [pieceRow, hcontrol, change.shown_control hcontrol]
  | false => simp [pieceRow, hcontrol, Change.shown_plain hcontrol h]

theorem pieceRow_equal (cs : List Char) :
    pieceRow cs Change.equal.style = cs.flatMap Change.equal.shown := by
  induction cs with
  | nil => rfl
  | cons c cs ih => rw [List.flatMap_cons, ← ih, pieceRow_cons (by simp)]

def linesRow (style : String) : List (List Char) → List (Char × List String)
  | [] => []
  | [line] => pieceRow line style
  | line :: next :: lines =>
    pieceRow line style ++ [(' ', [style]), ('\n', [])] ++ linesRow style (next :: lines)

theorem Shows.appendLines (h : t.Shows row) (change : Change) (lines : List (List Char)) :
    (t.appendLines change.style lines).Shows (row ++ linesRow change.style lines) := by
  induction lines generalizing t row with
  | nil =>
    rw [linesRow, List.append_nil]
    exact h
  | cons line lines ih =>
    have hline := h.append (String.ofList line) change.style
    rw [String.toList_ofList] at hline
    cases lines with
    | nil => exact hline
    | cons next lines =>
      -- the mark and the line end behind it are two pieces
      have hend := (hline.append " " change.style).append "\n" ""
      have hmark : pieceRow " ".toList change.style ++ pieceRow "\n".toList "" =
          [(' ', [change.style]), ('\n', [])] := by
        simp [pieceRow, isCursorControl]
      rw [List.append_assoc _ (pieceRow _ _), hmark] at hend
      have hrest := ih hend
      rwa [List.append_assoc, List.append_assoc, ← List.append_assoc (pieceRow line _)] at hrest

theorem linesRow_cons {change : Change} {c : Char} (h : ¬ (change ≠ .equal ∧ c = '\n'))
    (line : List Char) (lines : List (List Char)) : linesRow change.style ((c :: line) :: lines) =
      change.shown c ++ linesRow change.style (line :: lines) := by
  cases lines with
  | nil => exact pieceRow_cons h line
  | cons next lines => simp only [linesRow, pieceRow_cons h, List.append_assoc]

theorem linesRow_splitAt {change : Change} (hchange : change ≠ .equal) (cs : List Char) :
    linesRow change.style (Text.splitAt (· == '\n') cs) = cs.flatMap change.shown := by
  induction cs with
  | nil => rfl
  | cons c cs ih =>
    obtain ⟨line, lines, hlines⟩ :=
      List.exists_cons_of_ne_nil (Text.splitAt_ne_nil (· == '\n') cs)
    rw [List.flatMap_cons, ← ih, Text.splitAt, hlines]
    -- a line end opens a line of its own, and every other character begins the first one
    by_cases hc : c = '\n'
    · simp [hc, linesRow, pieceRow, Change.shown_lineEnd hchange]
    · simp only [beq_iff_eq, hc, if_false]
      exact linesRow_cons (fun h => hc h.2) line lines

theorem Shows.appendSegment (h : t.Shows row) (s : Segment) :
    (t.appendSegment s).Shows (row ++ s.shown) := by
  obtain ⟨change, text⟩ := s
  cases change with
  | equal =>
    rw [Segment.shown, ← pieceRow_equal]
    exact h.append text Change.equal.style
  | insert =>
    rw [Segment.shown, ← linesRow_splitAt (by simp)]
    exact h.appendLines .insert _
  | delete =>
    rw [Segment.shown, ← linesRow_splitAt (by simp)]
    exact h.appendLines .delete _

theorem Shows.foldl (h : t.Shows row) (ss : List Segment) :
    (ss.foldl StyledText.appendSegment t).Shows (row ++ ss.flatMap Segment.shown) := by
  induction ss generalizing t row with
  | nil => rwa [List.flatMap_nil, List.append_nil]
  | cons s ss ih =>
    rw [List.flatMap_cons, ← List.append_assoc]
    exact ih (h.appendSegment s)

theorem shows_renderDiff (ss : List Segment) : (renderDiff ss).Shows (ss.flatMap Segment.shown) :=
  shows_empty.foldl ss

end StyledText

def Change.ofStyle? (style : String) : Option Change :=
  [equal, insert, delete].find? fun change => change.style == style

@[simp] theorem Change.ofStyle?_style (change : Change) : ofStyle? change.style = some change := by
  cases change with
  | _ => rfl

/-- Reads characters with their styles. A character without style is the line end of a change, and the
one in front of it is its mark. -/
def readRow : List (Char × List String) → List (Change × Char)
  | (_, [style]) :: (c, []) :: row => ((Change.ofStyle? style).map (·, c)).toList ++ readRow row
  | (c, [style]) :: row => ((Change.ofStyle? style).map (·, c)).toList ++ readRow row
  | _ :: row => readRow row
  | [] => []

def StyledText.readBack (t : StyledText) : List (Change × Char) := readRow t.styledChars

def textOf (change : Change) (ps : List (Change × Char)) : String :=
  String.ofList ((ps.filter (·.1 ≠ change)).map Prod.snd)

variable {ss : List Segment} {ps : List (Change × Char)}

theorem readRow_marked (change : Change) (c d : Char) (row : List (Char × List String)) :
    readRow ((c, [change.style]) :: (d, []) :: row) = (change, d) :: readRow row := by
  simp [readRow]

theorem readRow_cons {row : List (Char × List String)} (h : ∀ d, (d, []) ∉ row.head?)
    (change : Change) (c : Char) :
    readRow ((c, [change.style]) :: row) = (change, c) :: readRow row := by
  cases row with
  | nil => simp [readRow]
  | cons p row =>
    obtain ⟨d, styles⟩ := p
    cases styles with
    | nil => simp at h
    | cons style styles => simp [readRow]

/-- What is shown of characters begins with one that has a style. -/
theorem notMem_head?_flatMap (h : ∀ p ∈ ps, isCursorControl p.2 = false) (d : Char) :
    (d, []) ∉ (ps.flatMap fun p => p.1.shown p.2).head? := by
  cases ps with
  | nil => simp
  | cons p ps =>
    have hp := h p List.mem_cons_self
    rw [List.flatMap_cons]
    by_cases hend : p.1 ≠ .equal ∧ p.2 = '\n'
    · simp [hend.2, Change.shown_lineEnd hend.1]
    · simp [Change.shown_plain hp hend]

theorem readRow_flatMap (h : ∀ p ∈ ps, isCursorControl p.2 = false) :
    readRow (ps.flatMap fun p => p.1.shown p.2) = ps := by
  induction ps with
  | nil => rfl
  | cons p ps ih =>
    have hp := h p List.mem_cons_self
    have hps : ∀ p ∈ ps, isCursorControl p.2 = false := fun p hmem => h p (List.mem_cons_of_mem _ hmem)
    rw [List.flatMap_cons]
    -- what follows a plain character has a style, so it is not taken for a mark
    by_cases hend : p.1 ≠ .equal ∧ p.2 = '\n'
    · rw [hend.2, Change.shown_lineEnd hend.1, List.cons_append, List.cons_append, List.nil_append,
        readRow_marked, ih hps, ← hend.2]
    · rw [Change.shown_plain hp hend, List.cons_append, List.nil_append,
        readRow_cons (notMem_head?_flatMap hps), ih hps]

theorem flatMap_shown (ss : List Segment) : ss.flatMap Segment.shown =
    (Segment.changedChars ss).flatMap fun p => p.1.shown p.2 := by
  rw [Segment.changedChars, List.flatMap_assoc]
  simp only [List.flatMap_map]
  rfl

theorem readBack_renderDiff (h : ∀ s ∈ ss, ∀ c ∈ s.text.toList, isCursorControl c = false) :
    (renderDiff ss).readBack = Segment.changedChars ss := by
  rw [StyledText.readBack, (StyledText.shows_renderDiff ss).chars_eq, flatMap_shown]
  refine readRow_flatMap fun p hp => ?_
  obtain ⟨s, hs, hp⟩ := List.mem_flatMap.1 hp
  obtain ⟨c, hc, rfl⟩ := List.mem_map.1 hp
  exact h s hs c hc

theorem textOf_append (change : Change) (ps qs : List (Change × Char)) :
    textOf change (ps ++ qs) = textOf change ps ++ textOf change qs := by
  simp [textOf]

theorem textOf_changedChars (change : Change) (ss : List Segment) :
    textOf change (Segment.changedChars ss) = Segment.textWithout change ss := by
  induction ss with
  | nil => rfl
  | cons s ss ih =>
    have hone : textOf change (s.text.toList.map fun c => (s.change, c)) =
        Segment.textWithout change [s] := by
      rw [Segment.textWithout_singleton]
      by_cases h : s.change = change
      · simp [textOf, h]
      · simp [textOf, h, List.filter_map, Function.comp_def]
    rw [Segment.changedChars, List.flatMap_cons, textOf_append, ← Segment.changedChars, ih, hone,
      ← Segment.textWithout_append, List.singleton_append]

theorem forall_mem_diffChars {P : Char → Prop} {before after : String} (hbefore : ∀ c ∈ before.toList, P c)
    (hafter : ∀ c ∈ after.toList, P c) : ∀ s ∈ diffChars before after, ∀ c ∈ s.text.toList, P c := by
  intro s hs c hc
  obtain ⟨htext, htext'⟩ := textWithout_diffChars before after
  by_cases h : s.change = .insert
  · have hpart := Segment.infix_textWithout .delete hs (by simp [h])
    rw [htext'] at hpart
    exact hafter c (hpart.subset hc)
  · have hpart := Segment.infix_textWithout .insert hs h
    rw [htext] at hpart
    exact hbefore c (hpart.subset hc)

/-- The spans of a shown difference follow each other within the text, and every character is shown as its
segment says: by one span with the style of the segment, but for the line ends of changes, which have no
span and a space with the style in front of them. Where no character is left out the segments are read back
from text and spans, character by character, and so are both texts of a difference. -/
theorem renderDiff_readable :
    (∀ ss : List Segment, (renderDiff ss).Ordered ∧
        (renderDiff ss).styledChars = ss.flatMap Segment.shown ∧
        ((∀ s ∈ ss, ∀ c ∈ s.text.toList, isCursorControl c = false) →
          (renderDiff ss).readBack = Segment.changedChars ss)) ∧
      ∀ before after : String, (∀ c ∈ before.toList, isCursorControl c = false) →
        (∀ c ∈ after.toList, isCursorControl c = false) →
        textOf .insert (renderDiff (diffChars before after)).readBack = before ∧
          textOf .delete (renderDiff (diffChars before after)).readBack = after := by
  constructor
  · intro ss
    have hshows := StyledText.shows_renderDiff ss
    exact ⟨hshows.ordered, hshows.chars_eq, readBack_renderDiff⟩
  · intro before after hbefore hafter
    rw [readBack_renderDiff (forall_mem_diffChars hbefore hafter), textOf_changedChars,
      textOf_changedChars]
    exact textWithout_diffChars before after

/-- A removed blank line and an added one beside a blank that is kept. -/
def blankLines : List Segment := [⟨.equal, "a \n"⟩, ⟨.delete, " \n"⟩, ⟨.insert, "\n "⟩]

/-- The marks of the line ends are told apart from the blanks in front of them. -/
theorem renderDiff_readable_blankLines :
    (∀ s ∈ blankLines, ∀ c ∈ s.text.toList, isCursorControl c = false) ∧
      (renderDiff blankLines).text = "a \n  \n \n " ∧
      (renderDiff blankLines).readBack = [(.equal, 'a'), (.equal, ' '), (.equal, '\n'),
        (.delete, ' '), (.delete, '\n'), (.insert, '\n'), (.insert, ' ')] ∧
      textOf .insert (renderDiff (diffChars "a \n" "a\n\n")).readBack = "a \n" ∧
        textOf .delete (renderDiff (diffChars "a \n" "a\n\n")).readBack = "a\n\n" := by
  have hplain : ∀ s ∈ blankLines, ∀ c ∈ s.text.toList, isCursorControl c = false := by
    simp [blankLines, isCursorControl]
  obtain ⟨hsegments, htexts⟩ := renderDiff_readable
  refine ⟨hplain, by decide, ?_, htexts "a \n" "a\n\n" ?_ ?_⟩
  · rw [(hsegments blankLines).2.2 hplain]
    decide
  · simp [isCursorControl]
  · simp [isCursorControl]

end FormatFuzz
