import FormatFuzz.Command.Outcome
import Mathlib.Data.List.TakeWhile

namespace FormatFuzz.Markup

variable {cs rest tag : List Char} {c : Char} {slashes : Nat}

def isBracket (c : Char) : Bool := c == '[' || c == ']'

def IsTag (tag : List Char) : Prop :=
  ∃ c inner, tag = c :: inner ∧ startsTag c = true ∧ ∀ d ∈ inner, isBracket d = false

def tagged (slashes : Nat) (tag rest : List Char) : List Char :=
  List.replicate slashes '\\' ++ '[' :: (tag ++ ']' :: rest)

theorem drop_length_takeWhile (p : Char → Bool) (cs : List Char) :
    cs.drop (cs.takeWhile p).length = cs.dropWhile p := by
  induction cs with
  | nil => rfl
  | cons c cs ih =>
    by_cases h : p c
    · simp [h, ih]
    · simp [h]

theorem inner_eq : (fun d => d != '[' && d != ']') = fun d => !isBracket d := by
  funext d
  simp [isBracket, bne]

/-- A tag is at the front if its first character starts one and the next bracket closes it. -/
theorem tag?_bracket (c : Char) (cs : List Char) : tag? ('[' :: c :: cs) =
    if startsTag c && cs.find? isBracket == some ']' then some (c :: cs.takeWhile (!isBracket ·))
    else none := by
  have hnext : (cs.drop (cs.takeWhile (!isBracket ·)).length).head? = cs.find? isBracket := by
    rw [drop_length_takeWhile, ← List.find?_not_eq_head?_dropWhile]
    simp
  simp only [tag?, inner_eq, hnext]

theorem tag?_of_ne (h : c ≠ '[') : tag? (c :: cs) = none := by
  unfold tag?
  split
  · next heq => exact absurd (List.cons.inj heq).1 h
  · rfl

theorem tag?_eq_some (h : tag? cs = some tag) : IsTag tag ∧ ∃ rest, cs = '[' :: (tag ++ ']' :: rest) := by
  match cs with
  | [] => cases h
  | [b] => simp [tag?] at h
  | b :: c :: cs =>
    by_cases hb : b = '['
    · subst hb
      rw [tag?_bracket] at h
      split at h
      · next hclosed =>
        cases h
        simp only [Bool.and_eq_true, beq_iff_eq] at hclosed
        refine ⟨⟨c, _, rfl, hclosed.1, fun d hd => by simpa using List.mem_takeWhile_imp hd⟩, ?_⟩
        obtain ⟨-, inner, rest, rfl, hinner⟩ := List.find?_eq_some_iff_append.1 hclosed.2
        refine ⟨rest, ?_⟩
        rw [List.takeWhile_append_of_pos hinner, List.takeWhile_cons_of_neg (by decide)]
        simp
      · cases h
    · rw [tag?_of_ne hb] at h
      cases h

theorem tag?_of_isTag (h : IsTag tag) (rest : List Char) :
    tag? ('[' :: (tag ++ ']' :: rest)) = some tag := by
  obtain ⟨c, inner, rfl, hstart, hinner⟩ := h
  have hinner' : ∀ d ∈ inner, (!isBracket d) = true := fun d hd => by simp [hinner d hd]
  rw [List.cons_append, tag?_bracket, if_pos, List.takeWhile_append_of_pos hinner',
    List.takeWhile_cons_of_neg (by decide), List.append_nil]
  simp only [hstart, Bool.true_and, beq_iff_eq]
  exact List.find?_eq_some_iff_append.2 ⟨rfl, inner, rest, rfl, hinner'⟩

theorem escapedTag?_of_ne (h : c ≠ '\\') : escapedTag? (c :: cs) = (tag? (c :: cs)).map (0, ·) := by
  simp [escapedTag?, List.takeWhile_cons_of_neg, h]

theorem escapedTag?_backslash (cs : List Char) :
    escapedTag? ('\\' :: cs) = (escapedTag? cs).map fun t => (t.1 + 1, t.2) := by
  simp [escapedTag?, Function.comp_def]

/-- No tag is at the front behind backslashes. -/
def Plain (cs : List Char) : Prop := escapedTag? cs = none

theorem plain_backslash_iff : Plain ('\\' :: cs) ↔ Plain cs := by
  rw [Plain, escapedTag?_backslash, Option.map_eq_none_iff, Plain]

theorem plain_cons_iff (h : c ≠ '\\') : Plain (c :: cs) ↔ tag? (c :: cs) = none := by
  rw [Plain, escapedTag?_of_ne h, Option.map_eq_none_iff]

theorem escapedTag?_tagged (h : IsTag tag) (slashes : Nat) (rest : List Char) :
    escapedTag? (tagged slashes tag rest) = some (slashes, tag) := by
  induction slashes with
  | zero =>
    rw [tagged, List.replicate_zero, List.nil_append, escapedTag?_of_ne (by decide), tag?_of_isTag h]
    rfl
  | succ slashes ih =>
    rw [tagged] at ih ⊢
    rw [List.replicate_succ, List.cons_append, escapedTag?_backslash, ih]
    rfl

theorem eq_tagged (h : escapedTag? cs = some (slashes, tag)) :
    IsTag tag ∧ ∃ rest, cs = tagged slashes tag rest := by
  induction cs generalizing slashes with
  | nil => cases h
  | cons c cs ih =>
    by_cases hc : c = '\\'
    · subst hc
      rw [escapedTag?_backslash] at h
      obtain ⟨⟨before, tag'⟩, htag, heq⟩ := Option.map_eq_some_iff.1 h
      cases heq
      obtain ⟨hisTag, rest, rfl⟩ := ih htag
      exact ⟨hisTag, rest, rfl⟩
    · rw [escapedTag?_of_ne hc] at h
      obtain ⟨tag', htag, heq⟩ := Option.map_eq_some_iff.1 h
      cases heq
      obtain ⟨hisTag, rest, hcs⟩ := tag?_eq_some htag
      exact ⟨hisTag, rest, hcs⟩

/-- A text in which every tag has an odd number of backslashes in front of it. -/
inductive Escaped : List Char → Prop
  | nil : Escaped []
  | char {c : Char} {cs : List Char} : Plain (c :: cs) → Escaped cs → Escaped (c :: cs)
  | tagged {half : Nat} {tag rest : List Char} : IsTag tag → Escaped rest →
      Escaped (tagged (2 * half + 1) tag rest)

/-- A backslash more at the end makes no tag. -/
theorem Plain.concat_backslash (h : Plain cs) : Plain (cs ++ ['\\']) := by
  induction cs with
  | nil => rfl
  | cons c cs ih =>
    rw [List.cons_append]
    by_cases hc : c = '\\'
    · subst hc
      rw [plain_backslash_iff] at h ⊢
      exact ih h
    · rw [plain_cons_iff hc] at h ⊢
      by_cases hb : c = '['
      · subst hb
        cases cs with
        | nil => rfl
        | cons b cs =>
          rw [List.cons_append, tag?_bracket]
          rw [tag?_bracket] at h
          have hfind : (cs ++ ['\\']).find? isBracket = cs.find? isBracket := by
            rw [List.find?_append]
            exact Option.or_none
          rw [hfind]
          split at h
          · cases h
          · next hopen => rw [if_neg hopen]
      · exact tag?_of_ne hb

theorem Escaped.concat_backslash (h : Escaped cs) : Escaped (cs ++ ['\\']) := by
  induction h with
  | nil => exact .char rfl .nil
  | char hplain _ ih => exact .char hplain.concat_backslash ih
  | @tagged half tag rest htag _ ih =>
    have hmore := @Escaped.tagged half _ _ htag ih
    simpa [Markup.tagged] using hmore

theorem escapeFrom_append (taken cs : List Char) :
    escapeFrom taken.length (taken ++ cs) = taken ++ escapeFrom 0 cs := by
  induction taken with
  | nil => rfl
  | cons c taken ih => rw [List.length_cons, List.cons_append, escapeFrom, ih, List.cons_append]

theorem escapeFrom_plain (h : Plain (c :: cs)) : escapeFrom 0 (c :: cs) = c :: escapeFrom 0 cs := by
  rw [escapeFrom, h]

/-- What is taken over behind the first character of a tag with its backslashes. -/
theorem exists_tagged_eq_cons (slashes : Nat) (tag : List Char) : ∃ c taken,
    taken.length = slashes + tag.length + 1 ∧ ∀ rest, tagged slashes tag rest = c :: (taken ++ rest) := by
  cases slashes with
  | zero => exact ⟨'[', tag ++ [']'], by simp, fun rest => by simp [tagged]⟩
  | succ slashes =>
    refine ⟨'\\', List.replicate slashes '\\' ++ '[' :: (tag ++ [']']), ?_, fun rest => ?_⟩
    · simp
      omega
    · simp [tagged, List.replicate_succ]

theorem escapeFrom_tagged (h : IsTag tag) (slashes : Nat) (rest : List Char) :
    escapeFrom 0 (tagged slashes tag rest) = tagged (2 * slashes + 1) tag (escapeFrom 0 rest) := by
  have hfront := escapedTag?_tagged h slashes rest
  have hdouble : ∀ cs, List.replicate (slashes + 1) '\\' ++ tagged slashes tag cs =
      tagged (2 * slashes + 1) tag cs := by
    intro cs
    rw [tagged, ← List.append_assoc, List.replicate_append_replicate, tagged,
      show slashes + 1 + slashes = 2 * slashes + 1 by omega]
  obtain ⟨c, taken, hlength, heq⟩ := exists_tagged_eq_cons slashes tag
  rw [heq] at hfront ⊢
  rw [escapeFrom, hfront]
  simp only
  rw [← hlength, escapeFrom_append, ← heq, hdouble]

/-- The first bracket stays the first one. -/
theorem find?_isBracket_escapeFrom (cs : List Char) :
    (escapeFrom 0 cs).find? isBracket = cs.find? isBracket := by
  induction cs with
  | nil => rfl
  | cons c cs ih =>
    cases h : escapedTag? (c :: cs) with
    | none =>
      rw [escapeFrom_plain h, List.find?_cons, List.find?_cons, ih]
    | some found =>
      obtain ⟨slashes, tag⟩ := found
      obtain ⟨htag, rest, hcs⟩ := eq_tagged h
      have hfirst : ∀ n rest, (tagged n tag rest).find? isBracket = some '[' := by
        intro n rest
        refine List.find?_eq_some_iff_append.2 ⟨rfl, List.replicate n '\\', _, rfl, fun d hd => ?_⟩
        rw [List.eq_of_mem_replicate hd]
        rfl
      rw [hcs, escapeFrom_tagged htag, hfirst, hfirst]

/-- What is no tag does not become one when more behind it is escaped. -/
theorem Plain.escape_rest (h : Plain (c :: cs)) : Plain (c :: escapeFrom 0 cs) := by
  induction cs generalizing c with
  | nil => exact h
  | cons b cs ih =>
    by_cases hc : c = '\\'
    · subst hc
      rw [plain_backslash_iff] at h ⊢
      rw [escapeFrom_plain h]
      exact ih h
    · rw [plain_cons_iff hc] at h ⊢
      by_cases hb : c = '['
      · subst hb
        cases hnext : escapedTag? (b :: cs) with
        | none =>
          rw [escapeFrom_plain hnext, tag?_bracket, find?_isBracket_escapeFrom]
          rw [tag?_bracket] at h
          split at h
          · cases h
          · next hopen => rw [if_neg hopen]
        | some found =>
          obtain ⟨slashes, tag⟩ := found
          obtain ⟨htag, rest, hcs⟩ := eq_tagged hnext
          rw [hcs, escapeFrom_tagged htag, tagged, List.replicate_succ, List.cons_append, tag?_bracket]
          rfl
      · exact tag?_of_ne hb

theorem escaped_escapeFrom (cs : List Char) : Escaped (escapeFrom 0 cs) := by
  induction hn : cs.length using Nat.strong_induction_on generalizing cs with
  | _ n ih =>
    cases cs with
    | nil => exact .nil
    | cons c cs =>
      cases h : escapedTag? (c :: cs) with
      | none =>
        rw [escapeFrom_plain h]
        exact .char (Plain.escape_rest h) (ih _ (by simp [← hn]) cs rfl)
      | some found =>
        obtain ⟨slashes, tag⟩ := found
        obtain ⟨htag, rest, hcs⟩ := eq_tagged h
        rw [hcs, escapeFrom_tagged htag]
        refine .tagged htag (ih _ ?_ rest rfl)
        rw [← hn, hcs]
        simp [tagged]
        omega

theorem escaped_escape (text : String) : Escaped (escape text).toList := by
  have hescaped := escaped_escapeFrom text.toList
  simp only [escape, String.toList_ofList]
  split
  · exact hescaped.concat_backslash
  · exact hescaped

theorem exists_printPieces_eq_ok {pieces : List (Nat × Piece)}
    (h : ∀ p ∈ pieces, ∃ text, p.2 = .plain text) (opened : List (List Char)) :
    ∃ printed, printPieces opened pieces = .ok printed := by
  induction pieces with
  | nil => exact ⟨[], rfl⟩
  | cons p pieces ih =>
    obtain ⟨position, piece⟩ := p
    obtain ⟨text, rfl⟩ := h _ List.mem_cons_self
    obtain ⟨printed, hprinted⟩ := ih fun p hp => h p (List.mem_cons_of_mem _ hp)
    exact ⟨_, by rw [printPieces, hprinted]; rfl⟩

theorem flush_plain (position : Nat) (before : List Char) :
    ∀ p ∈ piecesFrom.flush position before, ∃ text, p.2 = .plain text := by
  intro p hp
  unfold piecesFrom.flush at hp
  split at hp
  · cases hp
  · exact ⟨_, by rw [List.mem_singleton.1 hp]⟩

theorem piecesFrom_append (taken cs : List Char) (position : Nat) (before : List Char) :
    piecesFrom position taken.length before (taken ++ cs) =
      piecesFrom (position + taken.length) 0 before cs := by
  induction taken generalizing position with
  | nil => rfl
  | cons c taken ih =>
    rw [List.length_cons, List.cons_append, piecesFrom, ih, Nat.add_assoc, Nat.add_comm 1]

theorem Escaped.pieces_plain (h : Escaped cs) (position : Nat) (before : List Char) :
    ∀ p ∈ piecesFrom position 0 before cs, ∃ text, p.2 = .plain text := by
  induction h generalizing position before with
  | nil => exact flush_plain position before
  | char hplain _ ih =>
    rw [piecesFrom, hplain]
    exact ih _ _
  | @tagged half tag rest htag _ ih =>
    have hfront := escapedTag?_tagged htag (2 * half + 1) rest
    obtain ⟨c, taken, hlength, heq⟩ := exists_tagged_eq_cons (2 * half + 1) tag
    rw [heq] at hfront ⊢
    rw [piecesFrom, hfront]
    simp only
    rw [← hlength, piecesFrom_append]
    refine List.forall_mem_append.2 ⟨List.forall_mem_append.2 ⟨flush_plain _ _, ?_⟩, ih _ _⟩
    -- one backslash is left over, so the tag is plain
    have hodd : (2 * half + 1) % 2 = 1 := by omega
    rw [tagPieces, if_pos hodd]
    refine List.forall_mem_append.2 ⟨?_, List.forall_mem_singleton.2 ⟨_, rfl⟩⟩
    split
    · exact List.forall_mem_nil _
    · exact List.forall_mem_singleton.2 ⟨_, rfl⟩

/-- The word that announces an error stands between two tags that count. -/
theorem piecesFrom_error (cs : List Char) : piecesFrom 0 0 [] ("[red]Error:[/red] ".toList ++ cs) =
    (0, .tag "red".toList) :: (5, .plain "Error:".toList) :: (11, .tag "/red".toList) ::
      piecesFrom 18 0 [' '] cs := by
  simp [piecesFrom, escapedTag?, tag?, startsTag, piecesFrom.flush, tagPieces, List.takeWhile]

/-- An escaped text can be printed behind the word that announces an error. -/
theorem exists_print_error (reason : String) :
    ∃ text, print ("[red]Error:[/red] " ++ escape reason) = .ok text := by
  obtain ⟨printed, hprinted⟩ :=
    exists_printPieces_eq_ok ((escaped_escape reason).pieces_plain 18 [' ']) []
  have hpieces : ∀ pieces, printPieces [] ((0, .tag "red".toList) :: (5, .plain "Error:".toList) ::
      (11, .tag "/red".toList) :: pieces) = (printPieces [] pieces).map ("Error:".toList ++ ·) :=
    fun _ => rfl
  refine ⟨String.ofList ("Error:".toList ++ printed), ?_⟩
  rw [print, String.toList_append, piecesFrom_error, hpieces, hprinted]
  rfl

end FormatFuzz.Markup

namespace FormatFuzz.CommandEnd

/-- Whatever the reason is, a command that could not be carried out says so and ends with its exit
code. -/
theorem exists_refused_eq_done (reason : String) : ∃ text, refused reason = .done usageCode text := by
  obtain ⟨text, htext⟩ := Markup.exists_print_error reason
  refine ⟨Report.textLines (withoutControls text), ?_⟩
  simp [refused, refusedAs, saying, printedLine, htext]

end FormatFuzz.CommandEnd
