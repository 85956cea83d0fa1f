import FormatFuzz.Proofs.Program.Rows
import FormatFuzz.Proofs.Random.Yields

namespace FormatFuzz.Program

open FormatFuzz.Random FormatFuzz.Random.Draw FormatFuzz.Program.Lex

/-- The pieces of a line that is read as its tokens: a row that fits and closes its brackets, or a
text in triple quotes that takes two lines. -/
inductive Piece.Row : List Piece → Prop
  | flat {ps : List Piece} : ps ≠ [] → Piece.Fits none ps → balance (Piece.tokens ps) = 0 → Row ps
  | broken {first second : List Char} : Broken first second →
      Row [.lexeme .string (String.ofList (first ++ '\n' :: second))]

namespace Line

/-- Lines of which the first row stands at a level up to `bound`, and every other one at most one
level deeper than the row before; a row behind them can stand at a level up to the last argument. -/
inductive Lays : (bound : Nat) → List Line → Nat → Prop
  | nil (bound : Nat) : Lays bound [] bound
  | blank {bound end' : Nat} {ls : List Line} : ls ≠ [] → Lays bound ls end' →
      Lays bound (.blank :: ls) end'
  | row {bound end' : Nat} {l : Line} {ls : List Line} : Piece.Row l.pieces → l.level ≤ bound →
      Lays (l.level + 1) ls end' → Lays bound (l :: ls) end'

theorem Lays.append {a b c : Nat} {ls more : List Line} (h : Lays a ls b) (hmore : Lays b more c) :
    Lays a (ls ++ more) c := by
  induction h with
  | nil => exact hmore
  | blank hne _ ih =>
    refine .blank ?_ (ih hmore)
    exact fun hnil => hne (List.append_eq_nil_iff.1 hnil).1
  | row hrow hlevel _ ih => exact .row hrow hlevel (ih hmore)

def tokens (level : Nat) : List Line → List Token
  | [] => closingTokens level
  | l :: ls =>
    if l.pieces.isEmpty then ⟨.nl, "\n"⟩ :: tokens level ls
    else turn level l.level ++ Piece.tokens l.pieces ++
      ⟨.newline, if ls.isEmpty then "" else "\n"⟩ :: tokens l.level ls

end Line

variable {ps : List Piece}

theorem Piece.Row.ne_nil (h : Row ps) : ps ≠ [] := by
  cases h with
  | flat hne _ _ => exact hne
  | broken _ => exact List.cons_ne_nil _ _

theorem Piece.exists_cons_chars (hne : ps ≠ []) (h : Fits none ps) :
    ∃ c cs, chars ps = c :: cs ∧ isOpening c = true := by
  cases ps with
  | nil => exact absurd rfl hne
  | cons p ps =>
    cases p with
    | gap => simp [Fits] at h
    | lexeme kind text =>
      obtain ⟨c, cs, htext, hc⟩ := Token.exists_cons_of_readable h.1
      change text.toList = c :: cs at htext
      exact ⟨c, cs ++ chars ps, by simp [chars, Piece.text, htext], hc⟩

theorem Line.toList_text {l : Line} (hne : l.pieces ≠ []) :
    l.text.toList = blanks (4 * l.level) ++ Piece.chars l.pieces := by
  rw [Line.text, if_neg (by simpa using hne), String.toList_append, String.toList_ofList,
    Piece.toList_textOf]
  rfl

theorem rowReads_text {l : Line} (h : Piece.Row l.pieces) :
    ∃ before line, RowReads l.level (Piece.tokens l.pieces) before line ∧
      before.flatten ++ line = l.text.toList := by
  rw [Line.toList_text h.ne_nil]
  revert h
  generalize l.pieces = ps
  intro h
  cases h with
  | flat hne hfits hbalance =>
    obtain ⟨c, cs, hchars, hc⟩ := Piece.exists_cons_chars hne hfits
    have hspells := Piece.spells_chars hfits
    rw [hchars] at hspells ⊢
    exact ⟨[], _, .flat hc hbalance hspells, rfl⟩
  | broken hbroken =>
    refine ⟨_, _, .broken hbroken balance_nil .done, ?_⟩
    simp [Piece.chars, Piece.text]

theorem reads_lines {bound end' level : Nat} {ls : List Line} (h : Line.Lays bound ls end')
    (hne : ls ≠ []) (hlevel : bound ≤ level + 1) :
    ∃ lines, Reads level (Line.tokens level ls) lines ∧
      lines.flatten = ("\n".intercalate (ls.map Line.text)).toList := by
  induction h generalizing level with
  | nil => exact absurd rfl hne
  | @blank bound end' ls hne' _ ih =>
    obtain ⟨lines, hreads, hflatten⟩ := ih hne' hlevel
    refine ⟨['\n'] :: lines, .blank hreads, ?_⟩
    rw [List.map_cons, String.intercalate_cons_of_ne_nil (by simpa using hne')]
    simp [hflatten, Line.text, Line.blank]
  | @row bound end' l ls hrow hl _ ih =>
    obtain ⟨before, line, hreads, htext⟩ := rowReads_text hrow
    have hpieces : ¬ l.pieces.isEmpty = true := by simpa using hrow.ne_nil
    -- the last line has no end, so it is read by a rule of its own
    by_cases hlast : ls = []
    · subst hlast
      refine ⟨before ++ [line], ?_, by simp [← htext]⟩
      rw [Line.tokens, if_neg hpieces]
      exact .last (by omega) hreads
    · obtain ⟨lines, hlines, hflatten⟩ := ih hlast (Nat.le_refl _)
      refine ⟨before ++ (line ++ ['\n']) :: lines, ?_, ?_⟩
      · rw [Line.tokens, if_neg hpieces, if_neg (by simpa using hlast)]
        exact .row (by omega) hreads hlines
      · rw [List.map_cons, String.intercalate_cons_of_ne_nil (by simpa using hlast)]
        simp [← htext, hflatten]

/-- Tokens with padding and with comments before the ends of statements. -/
inductive Respaced : List Token → List Token → Prop
  | nil : Respaced [] []
  | padded {t u : Token} {ts us : List Token} : Piece.Padded t u → Respaced ts us →
      Respaced (t :: ts) (u :: us)
  | commented {t : Token} {text : List Char} {ts us : List Token} : t.kind = .newline →
      Unbroken text → Respaced ts us →
      Respaced (t :: ts) (⟨.comment, String.ofList ('#' :: text)⟩ :: t :: us)

theorem exists_comment : ∀ comment ∈ comments, ∃ text, Unbroken text ∧
    (if comment.isEmpty then "#" else "# " ++ comment) = String.ofList ('#' :: text) := by
  intro comment hcomment
  by_cases hempty : comment.isEmpty = true
  · exact ⟨[], List.forall_mem_nil _, by rw [if_pos hempty]⟩
  · refine ⟨' ' :: comment.toList, ?_, ?_⟩
    · have hall : ∀ s ∈ comments, ∀ c ∈ ' ' :: s.toList, c ≠ '\r' ∧ c ≠ '\n' := by decide
      exact hall comment hcomment
    · rw [if_neg hempty, ← String.toList_inj]
      simp

section

variable {σ : Type} [Source σ]

theorem spaceBefore_yields (t : Token) :
    Yields (spaceBefore t : Draw σ (List Token)) fun before => before = [] ∨
      ∃ text, t.kind = .newline ∧ Unbroken text ∧
        before = [⟨.comment, String.ofList ('#' :: text)⟩] := by
  rw [spaceBefore]
  refine yields_ite (fun hkind => ?_) (fun _ => yields_pure (.inl rfl))
  refine yields_bind fun drawn => yields_ite (fun _ => ?_) (fun _ => yields_pure (.inl rfl))
  refine (choose_yields _).bind fun comment hcomment => ?_
  obtain ⟨text, htext, heq⟩ := exists_comment comment hcomment
  exact yields_pure (.inr ⟨text, hkind, htext, by rw [heq]⟩)

theorem spaceAfter_yields (t : Token) :
    Yields (spaceAfter t : Draw σ Token) fun u => Piece.Padded t u ∧ (t.kind = .newline → u = t) := by
  rw [spaceAfter]
  refine yields_ite (fun hkind => ?_) (fun _ => yields_pure ⟨.same t, fun _ => rfl⟩)
  have hkind : t.kind = .name ∨ t.kind = .number ∨ t.kind = .operator := by
    simpa [or_assoc] using hkind
  refine yields_bind fun padding => yields_pure ⟨.more padding hkind, fun h => ?_⟩
  simp [h] at hkind

theorem spaceTokens_yields (ts : List Token) :
    Yields (spaceTokens ts : Draw σ (List Token)) (Respaced ts) := by
  induction ts with
  | nil => exact yields_pure .nil
  | cons t ts ih =>
    refine (spaceBefore_yields t).bind fun before hbefore => ?_
    refine (spaceAfter_yields t).bind fun u hu => ih.bind fun us hus => ?_
    apply yields_pure
    rcases hbefore with rfl | ⟨text, hkind, htext, rfl⟩
    · exact .padded hu.1 hus
    · rw [hu.2 hkind]
      exact .commented hkind htext hus

end

def isFrame (t : Token) : Bool :=
  t.kind = .indent || t.kind = .dedent || t.kind = .nl || t.kind = .endMarker

def isInner (t : Token) : Bool := !isFrame t && t.kind != .newline

variable {ts us vs : List Token} {t : Token}

theorem Respaced.of_frame (ht : isFrame t = true) (h : Respaced (t :: ts) vs) :
    ∃ us, vs = t :: us ∧ Respaced ts us := by
  cases h with
  | padded hpadded hrest =>
    cases hpadded with
    | same => exact ⟨_, rfl, hrest⟩
    | more n hkind =>
      rcases hkind with hkind | hkind | hkind
      · simp [isFrame, hkind] at ht
      · simp [isFrame, hkind] at ht
      · simp [isFrame, hkind] at ht
  | commented hkind _ _ => simp [isFrame, hkind] at ht

theorem Respaced.of_frames (hts : ∀ t ∈ ts, isFrame t = true) (h : Respaced (ts ++ us) vs) :
    ∃ ws, vs = ts ++ ws ∧ Respaced us ws := by
  induction ts generalizing vs with
  | nil => exact ⟨vs, rfl, h⟩
  | cons t ts ih =>
    obtain ⟨rest, rfl, hrest⟩ := h.of_frame (hts t List.mem_cons_self)
    obtain ⟨ws, rfl, hws⟩ := ih (fun t ht => hts t (List.mem_cons_of_mem _ ht)) hrest
    exact ⟨ws, rfl, hws⟩

theorem Respaced.of_inner (hts : ∀ t ∈ ts, isInner t = true) (h : Respaced (ts ++ us) vs) :
    ∃ row ws, vs = row ++ ws ∧ List.Forall₂ Piece.Padded ts row ∧ Respaced us ws := by
  induction ts generalizing vs with
  | nil => exact ⟨[], vs, rfl, .nil, h⟩
  | cons t ts ih =>
    cases h with
    | padded hpadded hrest =>
      obtain ⟨row, ws, rfl, hrow, hws⟩ := ih (fun t ht => hts t (List.mem_cons_of_mem _ ht)) hrest
      exact ⟨_, ws, rfl, .cons hpadded hrow, hws⟩
    | commented hkind _ _ =>
      have ht := hts t List.mem_cons_self
      simp [isInner, hkind] at ht

inductive Remark : List Token → Prop
  | none : Remark []
  | comment {text : List Char} : Unbroken text →
      Remark [⟨.comment, String.ofList ('#' :: text)⟩]

theorem Respaced.of_newline (ht : t.kind = .newline) (h : Respaced (t :: ts) vs) :
    ∃ remark ws, Remark remark ∧ vs = remark ++ t :: ws ∧ Respaced ts ws := by
  cases h with
  | padded hpadded hrest =>
    cases hpadded with
    | same => exact ⟨[], _, .none, rfl, hrest⟩
    | more n hkind => simp [ht] at hkind
  | commented _ htext hrest => exact ⟨_, _, .comment htext, rfl, hrest⟩

def indents : Nat → List String
  | 0 => []
  | level + 1 => String.ofList (blanks (4 * (level + 1))) :: indents level

/-- What the text of a token on a line stands behind: nothing, but the indentation at the start of a
line of a block. -/
theorem writeTokens_inner (ht : isInner t = true) (names : List String) (start afterString : Bool)
    (ts : List Token) : writeTokens ⟨names, start, afterString⟩ (t :: ts) =
      (if start then names.headD "" else "") ++ (t.written afterString ++
        writeTokens ⟨names, start && names.isEmpty, t.kind == TokenKind.string⟩ ts) := by
  obtain ⟨kind, text⟩ := t
  cases kind with
  | indent | dedent | newline | nl => simp [isInner, isFrame] at ht
  | _ =>
    cases start with
    | false => simp [writeTokens]
    | true =>
      cases names with
      | nil => simp [writeTokens]
      | cons name names => simp [writeTokens, String.append_assoc]

theorem writeTokens_newline (names : List String) (start afterString : Bool) (text : String)
    (ts : List Token) : writeTokens ⟨names, start, afterString⟩ (⟨.newline, text⟩ :: ts) =
      text ++ writeTokens ⟨names, true, false⟩ ts := by
  rw [writeTokens]
  rfl

theorem writeTokens_nl (names : List String) (start afterString : Bool) (text : String)
    (ts : List Token) : writeTokens ⟨names, start, afterString⟩ (⟨.nl, text⟩ :: ts) =
      text ++ writeTokens ⟨names, true, false⟩ ts := by
  rw [writeTokens]
  rfl

/-- On a line the tokens are written one behind the other. -/
theorem writeTokens_line {row : List Token} (hrow : ∀ t ∈ row, isInner t = true)
    (names : List String) (start afterString : Bool) (hstart : start = false ∨ names = [])
    (text : String) (ts : List Token) :
    (writeTokens ⟨names, start, afterString⟩ (row ++ ⟨.newline, text⟩ :: ts)).toList =
      Piece.written afterString row ++
        (text.toList ++ (writeTokens ⟨names, true, false⟩ ts).toList) := by
  induction row generalizing start afterString with
  | nil => simp [writeTokens_newline, Piece.written]
  | cons t row ih =>
    have hnext : (start && names.isEmpty) = false ∨ names = [] := by
      rcases hstart with rfl | rfl
      · exact .inl rfl
      · exact .inr rfl
    have hnothing : (if start then names.headD "" else "") = "" := by
      rcases hstart with rfl | rfl
      · rfl
      · cases start <;> rfl
    rw [List.cons_append, writeTokens_inner (hrow t List.mem_cons_self), hnothing]
    have hrest := ih (fun t ht => hrow t (List.mem_cons_of_mem _ ht)) _ (t.kind == .string) hnext
    simp [hrest, Piece.written]

theorem writeTokens_row {row : List Token} (hne : row ≠ []) (hrow : ∀ t ∈ row, isInner t = true)
    {level : Nat} {start : Bool} (hstart : start = true ∨ level = 0) (text : String)
    (ts : List Token) :
    (writeTokens ⟨indents level, start, false⟩ (row ++ ⟨.newline, text⟩ :: ts)).toList =
      blanks (4 * level) ++ (Piece.written false row ++
        (text.toList ++ (writeTokens ⟨indents level, true, false⟩ ts).toList)) := by
  cases level with
  | zero => exact writeTokens_line hrow [] start false (.inr rfl) text ts
  | succ level =>
    obtain rfl : start = true := hstart.resolve_right (Nat.succ_ne_zero level)
    -- the first token stands behind the indentation, and the others behind nothing
    obtain ⟨t, row, rfl⟩ := List.exists_cons_of_ne_nil hne
    have hrest := writeTokens_line (fun t ht => hrow t (List.mem_cons_of_mem _ ht))
      (indents (level + 1)) false (t.kind == .string) (.inl rfl) text ts
    rw [List.cons_append, writeTokens_inner (hrow t List.mem_cons_self)]
    simp [indents, Piece.written] at hrest ⊢
    simp [hrest]

theorem writeTokens_dedents (level count : Nat) (start : Bool) (ts : List Token) :
    writeTokens ⟨indents (level + count), start, false⟩ (List.replicate count ⟨.dedent, ""⟩ ++ ts) =
      writeTokens ⟨indents level, start, false⟩ ts := by
  induction count with
  | zero => rfl
  | succ count ih =>
    rw [← ih]
    rfl

theorem writeTokens_turn {level next : Nat} (h : next ≤ level + 1) (start : Bool) (ts : List Token) :
    writeTokens ⟨indents level, start, false⟩ (turn level next ++ ts) =
      writeTokens ⟨indents next, start, false⟩ ts := by
  rw [turn]
  split
  · obtain rfl : next = level + 1 := by omega
    rfl
  · obtain ⟨count, rfl⟩ : ∃ count, level = next + count := ⟨level - next, by omega⟩
    rw [Nat.add_sub_cancel_left]
    exact writeTokens_dedents next count start ts

theorem writeTokens_closing (level : Nat) (start : Bool) :
    writeTokens ⟨indents level, start, false⟩ (closingTokens level) = "" := by
  have hturn := writeTokens_turn (Nat.zero_le (level + 1)) start [⟨.endMarker, ""⟩]
  rw [turn, if_neg (Nat.not_lt_zero _), Nat.sub_zero] at hturn
  rw [closingTokens, hturn]
  cases start <;> rfl

theorem isInner_of_mem_tokens : ∀ t ∈ Piece.tokens ps, isInner t = true := by
  refine Piece.forall_mem_tokens fun kind text => ?_
  cases kind with
  | _ => rfl

theorem Piece.Row.tokens_ne_nil (h : Row ps) : tokens ps ≠ [] := by
  cases h with
  | flat hne hfits _ =>
    cases ps with
    | nil => exact absurd rfl hne
    | cons p ps =>
      cases p with
      | gap => simp [Fits] at hfits
      | lexeme kind text => exact List.cons_ne_nil _ _
  | broken _ => exact List.cons_ne_nil _ _

theorem isInner_of_padded {row : List Token} (h : List.Forall₂ Piece.Padded ts row)
    (hts : ∀ t ∈ ts, isInner t = true) : ∀ t ∈ row, isInner t = true := by
  induction h with
  | nil => exact List.forall_mem_nil _
  | cons hpadded _ ih =>
    obtain ⟨ht, hrest⟩ := List.forall_mem_cons.1 hts
    refine List.forall_mem_cons.2 ⟨?_, ih hrest⟩
    cases hpadded with
    | same => exact ht
    | more => exact ht

theorem isInner_of_mem_remark {remark : List Token} (h : Remark remark) :
    ∀ t ∈ remark, isInner t = true := by
  cases h with
  | none => exact List.forall_mem_nil _
  | comment _ =>
    intro t ht
    rw [List.mem_singleton.1 ht]
    rfl

theorem Remark.spells {remark : List Token} (h : Remark remark) : ∃ tail, Spells remark tail ∧
    (∀ c ∈ tail.head?, c ∈ Token.layoutChars) ∧ balance remark = 0 ∧
    ∀ afterString row, Piece.written afterString (row ++ remark) =
      Piece.written afterString row ++ tail := by
  cases h with
  | none => exact ⟨[], .done, by simp, rfl, by simp⟩
  | @comment text htext =>
    refine ⟨'#' :: text, .comment htext, ?_, rfl, fun afterString row => ?_⟩
    · rintro c ⟨⟩
      decide
    · induction row generalizing afterString with
      | nil => simp [Piece.written, Token.written]
      | cons t row ih => rw [List.cons_append, Piece.written, ih, Piece.written, List.append_assoc]

theorem Piece.exists_cons_written (hne : ps ≠ []) (h : Fits none ps) {row : List Token}
    (hrow : List.Forall₂ Padded (tokens ps) row) (tail : List Char) :
    ∃ c cs, written false row ++ tail = c :: cs ∧ isOpening c = true := by
  cases ps with
  | nil => exact absurd rfl hne
  | cons p ps =>
    cases p with
    | gap => simp [Fits] at h
    | lexeme kind text =>
      cases hrow with
      | @cons _ u _ row hu _ =>
        obtain ⟨m, n, hwritten, -, hm⟩ := hu.toList_written h.1 false
        obtain ⟨c, cs, htext, hc⟩ := Token.exists_cons_of_readable h.1
        rw [written, hwritten, hm rfl, htext]
        exact ⟨c, _, rfl, hc⟩

/-- A row in another spacing, with a remark behind it, is read as its tokens and the remark. -/
theorem rowReads_written (h : Piece.Row ps) {row remark : List Token}
    (hrow : List.Forall₂ Piece.Padded (Piece.tokens ps) row) (hremark : Remark remark) (level : Nat) :
    ∃ before line, RowReads level (Piece.tokens ps ++ remark) before line ∧
      before.flatten ++ line = blanks (4 * level) ++ Piece.written false (row ++ remark) := by
  obtain ⟨tail, hspells, htail, hbalance, hwritten⟩ := hremark.spells
  rw [hwritten]
  cases h with
  | flat hne hfits hzero =>
    obtain ⟨c, cs, hcs, hc⟩ := Piece.exists_cons_written hne hfits hrow tail
    have hread := Piece.spells_written hfits hrow hspells htail false
    rw [hcs] at hread ⊢
    exact ⟨[], _, .flat hc (by rw [balance_append, hzero, hbalance]; rfl) hread, rfl⟩
  | @broken first second hbroken =>
    refine ⟨_, _, .broken hbroken hbalance hspells, ?_⟩
    cases hrow with
    | cons hu hnil =>
      cases hnil
      cases hu with
      | same => simp [Piece.written, Token.written, LexemeKind.token]
      | more n hkind => simp [LexemeKind.token] at hkind

def isMeant (t : Token) : Bool := t.kind != .comment

theorem filter_inner (ps : List Piece) : (Piece.tokens ps).filter isMeant = Piece.tokens ps := by
  rw [List.filter_eq_self]
  refine Piece.forall_mem_tokens fun kind text => ?_
  cases kind with
  | _ => rfl

theorem filter_remark {remark : List Token} (h : Remark remark) : remark.filter isMeant = [] := by
  cases h with
  | none => rfl
  | comment _ => rfl

theorem filter_frames (hts : ∀ t ∈ ts, isFrame t = true) : ts.filter isMeant = ts := by
  rw [List.filter_eq_self]
  intro t ht
  obtain ⟨kind, text⟩ := t
  cases kind with
  | comment => exact absurd (hts _ ht) (by simp [isFrame])
  | _ => rfl

theorem isFrame_of_mem_turn {level next : Nat} : ∀ t ∈ turn level next, isFrame t = true := by
  intro t ht
  rw [turn] at ht
  split at ht
  · rw [List.mem_singleton.1 ht]
    rfl
  · rw [List.eq_of_mem_replicate ht]
    rfl

theorem isFrame_of_mem_closingTokens {level : Nat} : ∀ t ∈ closingTokens level, isFrame t = true := by
  intro t ht
  rcases List.mem_append.1 ht with ht | ht
  · rw [List.eq_of_mem_replicate ht]
    rfl
  · rw [List.mem_singleton.1 ht]
    rfl

/-- Lines in another spacing are read as their tokens and comments. -/
theorem reads_respaced {bound end' level : Nat} {ls : List Line} (h : Line.Lays bound ls end')
    (hne : ls ≠ []) (hlevel : bound ≤ level + 1) {start : Bool}
    (hstart : start = true ∨ bound = 0 ∧ level = 0) (hvs : Respaced (Line.tokens level ls) vs) :
    ∃ out lines, Reads level out lines ∧
      lines.flatten = (writeTokens ⟨indents level, start, false⟩ vs).toList ∧
      out.filter isMeant = Line.tokens level ls := by
  induction h generalizing level start vs with
  | nil => exact absurd rfl hne
  | @blank bound end' ls hne' _ ih =>
    obtain ⟨ws, rfl, hws⟩ := Respaced.of_frame (t := ⟨.nl, "\n"⟩) rfl hvs
    obtain ⟨out, lines, hreads, hflatten, hmeant⟩ := ih hne' hlevel (.inl rfl) hws
    refine ⟨⟨.nl, "\n"⟩ :: out, ['\n'] :: lines, .blank hreads, ?_, ?_⟩
    · rw [writeTokens_nl]
      simp [hflatten]
    · rw [List.filter_cons_of_pos rfl, hmeant]
      rfl
  | @row bound end' l ls hrow hl hls ih =>
    have hpieces : ¬ l.pieces.isEmpty = true := by simpa using hrow.ne_nil
    rw [Line.tokens, if_neg hpieces, List.append_assoc] at hvs ⊢
    -- in order: the indentation, the row, a remark, the end of the statement and the other lines
    obtain ⟨_, rfl, hbehind⟩ := Respaced.of_frames isFrame_of_mem_turn hvs
    obtain ⟨row, _, rfl, hpadded, hend⟩ := Respaced.of_inner isInner_of_mem_tokens hbehind
    obtain ⟨remark, ws, hremark, rfl, hrest⟩ := Respaced.of_newline rfl hend
    obtain ⟨before, line, hreads, htext⟩ := rowReads_written hrow hpadded hremark l.level
    have hinner : ∀ t ∈ row ++ remark, isInner t = true := by
      intro t ht
      rcases List.mem_append.1 ht with ht | ht
      · exact isInner_of_padded hpadded isInner_of_mem_tokens t ht
      · exact isInner_of_mem_remark hremark t ht
    have hnonempty : row ++ remark ≠ [] := by
      intro hnil
      obtain ⟨rfl, -⟩ := List.append_eq_nil_iff.1 hnil
      exact hrow.tokens_ne_nil (List.forall₂_nil_right_iff.1 hpadded)
    have hfirst : start = true ∨ l.level = 0 := hstart.imp_right fun h => by omega
    have hwritten := writeTokens_row hnonempty hinner hfirst (if ls.isEmpty then "" else "\n") ws
    have hkept : (turn level l.level ++ (Piece.tokens l.pieces ++ remark)).filter isMeant =
        turn level l.level ++ Piece.tokens l.pieces := by
      rw [List.filter_append, List.filter_append, filter_frames isFrame_of_mem_turn, filter_inner,
        filter_remark hremark, List.append_nil]
    rw [writeTokens_turn (by omega), ← List.append_assoc row, hwritten]
    by_cases hlast : ls = []
    · subst hlast
      rw [← List.append_nil (Line.tokens _ _)] at hrest
      obtain ⟨_, rfl, hnil⟩ := Respaced.of_frames isFrame_of_mem_closingTokens hrest
      cases hnil
      refine ⟨_, before ++ [line], .last (by omega) hreads, ?_, ?_⟩
      · rw [List.append_nil, writeTokens_closing]
        simp [htext]
      · rw [List.filter_append, hkept, List.filter_cons_of_pos rfl,
          filter_frames isFrame_of_mem_closingTokens, List.append_assoc]
        rfl
    · obtain ⟨out, lines, hlines, hflatten, hmeant⟩ := ih hlast (Nat.le_refl _) (.inl rfl) hrest
      have hmore : ¬ ls.isEmpty = true := by simpa using hlast
      rw [if_neg hmore]
      refine ⟨_, before ++ (line ++ ['\n']) :: lines, .row (by omega) hreads hlines, ?_, ?_⟩
      · rw [List.flatten_append, List.flatten_cons, List.append_assoc, ← List.append_assoc, htext,
          hflatten]
        simp
      · rw [List.filter_append, hkept, List.filter_cons_of_pos rfl, hmeant, List.append_assoc]

end FormatFuzz.Program
