import FormatFuzz.Proofs.Program.Respace
import FormatFuzz.Proofs.Program.Vocabulary
import Mathlib.Data.List.Chain

/-!
# Random programs name no outer scope

In `global` and in `nonlocal` an `l` stands directly behind a `g` or an `n`. No piece of a random program
has these two characters in it, nor do they meet where one piece ends and another one begins: names and
numbers end before a character of a word, and the others do not end in `g` or `n`. So neither word occurs
in the text of the program, in its printed form or in another spacing.
-/

namespace FormatFuzz.Program

open FormatFuzz.Random FormatFuzz.Random.Draw FormatFuzz.Program.Lex FormatFuzz.Program.Piece

/-- No `l` stands directly behind a `g` or an `n`. -/
def Mild (cs : List Char) : Prop := cs.IsChain fun a b => b = 'l' → a ≠ 'g' ∧ a ≠ 'n'

/-- A mild text that any other one can follow: it does not end in `g` or `n`. -/
def Settled (cs : List Char) : Prop := Mild cs ∧ ∀ a ∈ cs.getLast?, a ≠ 'g' ∧ a ≠ 'n'

def Visible (c : Char) : Prop := Text.isBlank c = false ∧ c ≠ ';'

instance (cs : List Char) : Decidable (Mild cs) := inferInstanceAs (Decidable (List.IsChain _ cs))

instance (cs : List Char) : Decidable (Settled cs) := inferInstanceAs (Decidable (_ ∧ _))

instance (c : Char) : Decidable (Visible c) := inferInstanceAs (Decidable (_ ∧ _))

variable {cs ds : List Char}

theorem Mild.notInfix (h : Mild cs) :
    ¬ "global".toList <:+: cs ∧ ¬ "nonlocal".toList <:+: cs := by
  have hwords : ¬ Mild "global".toList ∧ ¬ Mild "nonlocal".toList := by decide
  exact ⟨fun hpart => hwords.1 ( List.IsChain.infix h hpart),
    fun hpart => hwords.2 ( List.IsChain.infix h hpart)⟩

/-- Nothing can go wrong in front of another character than an `l`. -/
theorem Mild.append_of_head (hcs : Mild cs) (hds : Mild ds) (h : 'l' ∉ ds.head?) : Mild (cs ++ ds) :=
  List.isChain_append.2 ⟨hcs, hds, fun _ _ _ hb hl => absurd (hl ▸ hb) h⟩

theorem Settled.append_mild (hcs : Settled cs) (hds : Mild ds) : Mild (cs ++ ds) :=
  List.isChain_append.2 ⟨hcs.1, hds, fun a ha _ _ _ => hcs.2 a ha⟩

theorem Mild.append_settled (h : Mild (cs ++ ds)) (hcs : Settled cs) (hds : Settled ds) :
    Settled (cs ++ ds) := by
  refine ⟨h, fun a ha => ?_⟩
  rw [List.getLast?_append, Option.mem_def, Option.or_eq_some_iff] at ha
  rcases ha with ha | ⟨-, ha⟩
  · exact hds.2 a ha
  · exact hcs.2 a ha

theorem settled_of_forall (h : ∀ c ∈ cs, c ≠ 'g' ∧ c ≠ 'n') : Settled cs := by
  refine ⟨?_, fun a ha => h a (List.mem_of_getLast? ha)⟩
  induction cs with
  | nil => exact List.isChain_nil
  | cons c cs ih =>
    obtain ⟨hc, hcs⟩ := List.forall_mem_cons.1 h
    have hsingle : Settled [c] := ⟨List.isChain_singleton c, fun a ha => Option.some.inj ha ▸ hc⟩
    exact hsingle.append_mild (ih hcs)

theorem settled_blanks (n : Nat) : Settled (blanks n) := by
  refine settled_of_forall fun c hc => ?_
  rw [List.eq_of_mem_replicate hc]
  decide

theorem settled_lineFeed : Settled ['\n'] := by decide

/-- The text of a token is mild and, but for names and numbers, settled. -/
structure Token.Mild (t : Token) : Prop where
  text : Program.Mild t.text.toList
  settled : t.kind ≠ .name → t.kind ≠ .number → Settled t.text.toList

structure Token.Seen (t : Token) : Prop extends Token.Mild t where
  visible : ∃ c ∈ t.text.toList, Visible c

theorem Token.mild_of_settled {t : Token} (h : Settled t.text.toList) : t.Mild :=
  ⟨h.1, fun _ _ => h⟩

theorem seen_word : ∀ w ∈ vocabulary ++ ["True", "False", "None"], Token.Seen ⟨.name, w⟩ := by
  have hwords : ∀ w ∈ vocabulary ++ ["True", "False", "None"],
      Mild w.toList ∧ ∃ c ∈ w.toList, Visible c := by
    decide
  exact fun w hw => ⟨⟨(hwords w hw).1, fun h => absurd rfl h⟩, (hwords w hw).2⟩

theorem seen_operator : ∀ o ∈ operators, o ≠ ";" → Token.Seen ⟨.operator, o⟩ := by
  have hoperators : ∀ o ∈ operators, o ≠ ";" →
      Settled o.toList ∧ ∃ c ∈ o.toList, Visible c := by
    decide
  intro o ho hne
  obtain ⟨hsettled, hvisible⟩ := hoperators o ho hne
  exact ⟨Token.mild_of_settled hsettled, hvisible⟩

theorem seen_string : ∀ text ∈ sampleStrings.map Text.quoted ++ sampleBytes.map Text.quotedBytes ++
    sampleStrings.map docstring, Token.Seen ⟨.string, text⟩ := by
  have hstrings : ∀ text ∈ sampleStrings.map Text.quoted ++ sampleBytes.map Text.quotedBytes ++
      sampleStrings.map docstring, Settled text.toList ∧ ∃ c ∈ text.toList, Visible c := by
    decide +kernel
  intro text htext
  obtain ⟨hsettled, hvisible⟩ := hstrings text htext
  exact ⟨Token.mild_of_settled hsettled, hvisible⟩

theorem visible_of_isDigit {c : Char} (h : c.isDigit = true) : Visible c := by
  have hcheck := of_ascii (P := fun c => !c.isDigit || decide (Visible c)) (by decide)
    (toNat_lt_of_isDigit h)
  simpa [h] using hcheck

theorem seen_number {text : String} (h : NumberText text.toList) : Token.Seen ⟨.number, text⟩ := by
  have hletters : ∀ a ∈ ['g', 'n'], ¬ (Json.isNumberChar a = true ∨ a = 'j') := by decide
  have hsettled : Settled text.toList := by
    refine settled_of_forall fun c hc => ?_
    constructor
    · rintro rfl
      exact hletters _ (by decide) (mem_numberText h _ hc)
    · rintro rfl
      exact hletters _ (by decide) (mem_numberText h _ hc)
  obtain ⟨c, cs, hcs, hdigit⟩ := exists_cons_of_numberText h
  have hmem : c ∈ text.toList := by
    rw [hcs]
    exact List.mem_cons_self
  exact ⟨Token.mild_of_settled hsettled, c, hmem, visible_of_isDigit hdigit⟩

theorem Literal.Drawn.seen {v : Literal} (h : v.Drawn) : ∀ t ∈ Piece.tokens [v.piece], t.Seen := by
  refine List.forall_mem_singleton.2 ?_
  cases h with
  | int n => exact seen_number (numberText_toString n)
  | float hx => exact seen_number (numberText_float hx)
  | imaginary =>
    have hone : Json.Digital ['1'] := by simp [Json.Digital]
    exact seen_number (.imaginary hone)
  | str hs =>
    exact seen_string _ (List.mem_append_left _ (List.mem_append_left _ (List.mem_map_of_mem hs)))
  | bytes hb =>
    exact seen_string _ (List.mem_append_left _ (List.mem_append_right _ (List.mem_map_of_mem hb)))
  | bool b =>
    cases b with
    | _ => exact seen_word _ (by decide)
  | none => exact seen_word _ (by decide)
  | ellipsis => exact seen_operator _ (by decide) (by decide)

theorem Piece.Usual.seen {p : Piece} (h : p.Usual) : ∀ t ∈ Piece.tokens [p], t.Seen := by
  cases h with
  | gap => exact List.forall_mem_nil _
  | word hw => exact List.forall_mem_singleton.2 (seen_word _ (List.mem_append_left _ hw))
  | op ho hne => exact List.forall_mem_singleton.2 (seen_operator _ ho hne)
  | literal hv => exact hv.seen
  | docstring hdoc =>
    refine List.forall_mem_singleton.2 (seen_string _ (List.mem_append_right _ ?_))
    exact List.mem_map_of_mem hdoc

theorem Piece.UsualRow.seen {ps : List Piece} (h : UsualRow ps) : ∀ t ∈ Piece.tokens ps, t.Seen := by
  induction ps with
  | nil => exact List.forall_mem_nil _
  | cons p ps ih =>
    obtain ⟨hp, hps⟩ := List.forall_mem_cons.1 h
    rw [← List.singleton_append, tokens_append]
    exact List.forall_mem_append.2 ⟨hp.seen, ih hps⟩

/-- A mild token in front of a text that it ends before. -/
theorem Token.Mild.append {t : Token} (ht : t.Mild) (hclear : ∀ c ∈ cs.head?, t.ClearOf c)
    (hcs : Program.Mild cs) : Program.Mild (t.text.toList ++ cs) := by
  obtain ⟨kind, text⟩ := t
  have hword : Text.isWordChar 'l' = true := by decide
  cases kind with
  | name | number =>
    refine ht.text.append_of_head hcs fun hl => ?_
    have hfalse : Text.isWordChar 'l' = false := (hclear _ hl).1
    rw [hword] at hfalse
    cases hfalse
  | _ => exact (ht.settled nofun nofun).append_mild hcs

theorem mild_chars {ps : List Piece} {t : Option Token} (h : Fits t ps)
    (hmild : ∀ t ∈ Piece.tokens ps, t.Mild) : Mild (chars ps) := by
  induction ps generalizing t with
  | nil => exact List.isChain_nil
  | cons p ps ih =>
    cases p with
    | gap => exact (settled_blanks 1).append_mild (ih h.2 hmild)
    | lexeme kind text =>
      obtain ⟨hreadable, -, hfits⟩ := h
      obtain ⟨ht, hps⟩ := List.forall_mem_cons.1 hmild
      exact ht.append (clearOf_chars hreadable hfits) (ih hfits hps)

theorem Piece.Row.mild {ps : List Piece} (h : Row ps) (hmild : ∀ t ∈ Piece.tokens ps, t.Mild) :
    Mild (chars ps) := by
  cases h with
  | flat _ hfits _ => exact mild_chars hfits hmild
  | broken _ =>
    rw [chars, List.flatMap_singleton]
    exact (List.forall_mem_singleton.1 hmild).text

theorem mem_chars {ps : List Piece} {t : Token} (ht : t ∈ Piece.tokens ps) {c : Char}
    (hc : c ∈ t.text.toList) : c ∈ chars ps := by
  induction ps with
  | nil => cases ht
  | cons p ps ih =>
    cases p with
    | gap => exact List.mem_append_right _ (ih ht)
    | lexeme kind text =>
      rcases List.mem_cons.1 ht with rfl | ht
      · exact List.mem_append_left _ hc
      · exact List.mem_append_right _ (ih ht)

theorem Line.Lays.forall_row {bound end' : Nat} {ls : List Line} (h : Lays bound ls end') :
    ∀ l ∈ ls, l = .blank ∨ Row l.pieces := by
  induction h with
  | nil => exact List.forall_mem_nil _
  | blank _ _ ih => exact List.forall_mem_cons.2 ⟨.inl rfl, ih⟩
  | row hrow _ _ ih => exact List.forall_mem_cons.2 ⟨.inr hrow, ih⟩

theorem Line.Lays.exists_row {bound end' : Nat} {ls : List Line} (h : Lays bound ls end')
    (hne : ls ≠ []) : ∃ l ∈ ls, Row l.pieces := by
  induction h with
  | nil => exact absurd rfl hne
  | blank hrest _ ih =>
    obtain ⟨l, hl, hrow⟩ := ih hrest
    exact ⟨l, List.mem_cons_of_mem _ hl, hrow⟩
  | row hrow _ _ _ => exact ⟨_, List.mem_cons_self, hrow⟩

theorem mild_intercalate {parts : List String} (h : ∀ part ∈ parts, Mild part.toList) :
    Mild ("\n".intercalate parts).toList := by
  induction parts with
  | nil => exact List.isChain_nil
  | cons part parts ih =>
    obtain ⟨hpart, hparts⟩ := List.forall_mem_cons.1 h
    cases parts with
    | nil => simpa using hpart
    | cons next parts =>
      rw [String.intercalate_cons_of_ne_nil (List.cons_ne_nil _ _), String.append_assoc,
        String.toList_append]
      refine hpart.append_of_head ?_ (by simp)
      rw [String.toList_append]
      exact settled_lineFeed.append_mild (ih hparts)

theorem mem_intercalate {parts : List String} {part : String} (h : part ∈ parts) {c : Char}
    (hc : c ∈ part.toList) : c ∈ ("\n".intercalate parts).toList := by
  induction parts with
  | nil => cases h
  | cons first parts ih =>
    cases parts with
    | nil =>
      rw [List.mem_singleton.1 h] at hc
      simpa using hc
    | cons next parts =>
      rw [String.intercalate_cons_of_ne_nil (List.cons_ne_nil _ _), String.toList_append]
      rcases List.mem_cons.1 h with rfl | h
      · simp [hc]
      · exact List.mem_append_right _ (ih h)

theorem Token.Mild.padded {t u : Token} (h : t.Mild) (hu : Padded t u) : u.Mild := by
  cases hu with
  | same => exact h
  | more n hkind =>
    have hhead : 'l' ∉ (blanks n).head? := by
      intro hl
      have hblank := List.eq_of_mem_replicate (List.mem_of_mem_head? hl)
      exact absurd hblank (by decide)
    have htext := h.text.append_of_head (settled_blanks n).1 hhead
    rw [← String.toList_ofList (l := blanks n), ← String.toList_append] at htext
    refine ⟨htext, fun hname hnumber => ?_⟩
    rw [String.toList_append, String.toList_ofList] at htext ⊢
    exact htext.append_settled (h.settled hname hnumber) (settled_blanks n)

/-- A blank follows names and numbers, so whatever is written is settled. -/
theorem Token.Mild.settled_written {t : Token} (h : t.Mild) (afterString : Bool) :
    Settled (t.written afterString).toList := by
  have hblank : Settled [' '] := settled_blanks 1
  obtain ⟨kind, text⟩ := t
  cases kind with
  | name | number =>
    change Settled (text ++ " ").toList
    rw [String.toList_append]
    refine ⟨h.text.append_of_head hblank.1 (by decide), fun a ha => hblank.2 a ?_⟩
    rwa [List.getLast?_append_of_ne_nil _ (by decide)] at ha
  | string =>
    have htext := h.settled nofun nofun
    cases afterString with
    | false => exact htext
    | true =>
      change Settled (" " ++ text).toList
      rw [String.toList_append]
      exact (hblank.append_mild htext.1).append_settled hblank htext
  | _ => exact h.settled nofun nofun

theorem mild_writeTokens {ts : List Token} (hts : ∀ t ∈ ts, t.Mild) (j : Joint)
    (hj : ∀ indent ∈ j.indents, Settled indent.toList) : Mild (writeTokens j ts).toList := by
  induction ts generalizing j with
  | nil => exact List.isChain_nil
  | cons t ts ih =>
    obtain ⟨ht, hts⟩ := List.forall_mem_cons.1 hts
    have hwritten := ht.settled_written j.afterString
    rw [writeTokens]
    split
    · exact ih hts _ (List.forall_mem_cons.2 ⟨hwritten, hj⟩)
    · exact ih hts _ fun i hi => hj i (List.mem_of_mem_drop hi)
    · rw [String.toList_append]
      exact hwritten.append_mild (ih hts _ hj)
    · rw [String.toList_append]
      exact hwritten.append_mild (ih hts _ hj)
    · split
      · next indent outer _ hindents =>
        have hnames : j.indents = indent :: outer := hindents
        have hindent := hj indent (hnames ▸ List.mem_cons_self)
        rw [String.append_assoc, String.toList_append, String.toList_append]
        exact hindent.append_mild (hwritten.append_mild (ih hts _ hj))
      · rw [String.toList_append]
        exact hwritten.append_mild (ih hts _ hj)

theorem mem_writeTokens {ts : List Token} {t : Token} (ht : t ∈ ts) (hinner : isInner t = true)
    {c : Char} (hc : c ∈ t.text.toList) (j : Joint) : c ∈ (writeTokens j ts).toList := by
  have hwritten : ∀ afterString, c ∈ (t.written afterString).toList := by
    intro afterString
    obtain ⟨kind, text⟩ := t
    cases kind with
    | name | number =>
      simp only [Token.written, String.toList_append]
      exact List.mem_append_left _ hc
    | string =>
      cases afterString with
      | false => exact hc
      | true =>
        simp only [Token.written, if_true, String.toList_append]
        exact List.mem_append_right _ hc
    | _ => exact hc
  induction ts generalizing j with
  | nil => cases ht
  | cons first ts ih =>
    obtain ⟨names, start, afterString⟩ := j
    rcases List.mem_cons.1 ht with rfl | ht
    · rw [writeTokens_inner hinner, String.toList_append, String.toList_append]
      exact List.mem_append_right _ (List.mem_append_left _ (hwritten afterString))
    · have hrest := ih ht
      rw [writeTokens]
      split
      · exact hrest _
      · exact hrest _
      · simp [hrest]
      · simp [hrest]
      · split
        · simp [hrest]
        · simp [hrest]

theorem settled_comment : ∀ comment ∈ comments,
    Settled (if comment.isEmpty then "#" else "# " ++ comment).toList := by
  decide

section

variable {σ : Type} [Source σ]

theorem spaceBefore_mild (t : Token) :
    Yields (spaceBefore t : Draw σ (List Token)) fun before => ∀ u ∈ before, u.Mild := by
  rw [spaceBefore]
  refine yields_ite (fun _ => ?_) (fun _ => yields_pure (List.forall_mem_nil _))
  refine yields_bind fun drawn => yields_ite (fun _ => ?_) (fun _ => yields_pure (List.forall_mem_nil _))
  refine (choose_yields _).bind fun comment hcomment => yields_pure ?_
  exact List.forall_mem_singleton.2 (Token.mild_of_settled (settled_comment comment hcomment))

theorem spaceTokens_mild {ts : List Token} (h : ∀ t ∈ ts, t.Mild) :
    Yields (spaceTokens ts : Draw σ (List Token)) fun us => ∀ u ∈ us, u.Mild := by
  induction ts with
  | nil => exact yields_pure (List.forall_mem_nil _)
  | cons t ts ih =>
    obtain ⟨ht, hts⟩ := List.forall_mem_cons.1 h
    refine (spaceBefore_mild t).bind fun before hbefore => ?_
    refine (spaceAfter_yields t).bind fun u hu => (ih hts).bind fun us hus => yields_pure ?_
    exact List.forall_mem_append.2 ⟨hbefore, List.forall_mem_cons.2 ⟨ht.padded hu.1, hus⟩⟩

end

theorem Piece.Padded.mem_text {t u : Token} (h : Padded t u) {c : Char} (hc : c ∈ t.text.toList) :
    c ∈ u.text.toList := by
  cases h with
  | same => exact hc
  | more n _ =>
    rw [String.toList_append]
    exact List.mem_append_left _ hc

/-- Every token is still there, if with padding. -/
theorem Respaced.exists_padded {ts us : List Token} (h : Respaced ts us) {t : Token} (ht : t ∈ ts) :
    ∃ u ∈ us, Padded t u := by
  induction h with
  | nil => cases ht
  | padded hu _ ih =>
    rcases List.mem_cons.1 ht with rfl | ht
    · exact ⟨_, List.mem_cons_self, hu⟩
    · obtain ⟨u, hmem, hpadded⟩ := ih ht
      exact ⟨u, List.mem_cons_of_mem _ hmem, hpadded⟩
  | commented _ _ _ ih =>
    rcases List.mem_cons.1 ht with rfl | ht
    · exact ⟨_, List.mem_cons_of_mem _ List.mem_cons_self, .same _⟩
    · obtain ⟨u, hmem, hpadded⟩ := ih ht
      exact ⟨u, List.mem_cons_of_mem _ (List.mem_cons_of_mem _ hmem), hpadded⟩

theorem Line.mild_tokens {ls : List Line} (h : ∀ l ∈ ls, ∀ t ∈ Piece.tokens l.pieces, t.Mild)
    (level : Nat) : ∀ t ∈ Line.tokens level ls, t.Mild := by
  have hempty : Settled "".toList := by decide
  induction ls generalizing level with
  | nil =>
    intro t ht
    rcases List.mem_append.1 ht with ht | ht
    · rw [List.eq_of_mem_replicate ht]
      exact Token.mild_of_settled hempty
    · rw [List.mem_singleton.1 ht]
      exact Token.mild_of_settled hempty
  | cons l ls ih =>
    obtain ⟨hl, hls⟩ := List.forall_mem_cons.1 h
    rw [Line.tokens]
    split
    · exact List.forall_mem_cons.2 ⟨Token.mild_of_settled settled_lineFeed, ih hls level⟩
    · have hturn : ∀ t ∈ turn level l.level, t.Mild := by
        intro t ht
        rw [turn] at ht
        split at ht
        · rw [List.mem_singleton.1 ht]
          refine Token.mild_of_settled ?_
          rw [String.toList_ofList]
          exact settled_blanks _
        · rw [List.eq_of_mem_replicate ht]
          exact Token.mild_of_settled hempty
      have hend : Settled (if ls.isEmpty then "" else "\n").toList := by
        split
        · exact hempty
        · exact settled_lineFeed
      exact List.forall_mem_append.2 ⟨List.forall_mem_append.2 ⟨hturn, hl⟩,
        List.forall_mem_cons.2 ⟨Token.mild_of_settled hend, ih hls l.level⟩⟩

theorem Line.mem_tokens {ls : List Line} {l : Line} (hl : l ∈ ls) {t : Token}
    (ht : t ∈ Piece.tokens l.pieces) (level : Nat) : t ∈ Line.tokens level ls := by
  induction ls generalizing level with
  | nil => cases hl
  | cons first ls ih =>
    rw [Line.tokens]
    rcases List.mem_cons.1 hl with rfl | hl
    · have hne : ¬ l.pieces.isEmpty = true := by
        intro hempty
        rw [List.isEmpty_iff.1 hempty] at ht
        cases ht
      rw [if_neg hne]
      exact List.mem_append_left _ (List.mem_append_right _ ht)
    · split
      · exact List.mem_cons_of_mem _ (ih hl level)
      · exact List.mem_append_right _ (List.mem_cons_of_mem _ (ih hl first.level))

/-- The text of a program that has something to see in it and names no outer scope. -/
structure Telling (text : String) : Prop where
  mild : Mild text.toList
  visible : ∃ c ∈ text.toList, Visible c

variable {σ : Type} [Source σ]

theorem telling_lines {ls : List Line} (h : Line.Stand 0 ls) (husual : Line.Usual ls) :
    Telling (Line.textOf ls) := by
  obtain ⟨rows, end', hne, hlays, htext, hrows⟩ := h.exists_lays
  have hseen : ∀ l ∈ rows, ∀ t ∈ Piece.tokens l.pieces, t.Seen := fun l hl =>
    UsualRow.seen (husual l (hrows hl))
  rw [htext]
  constructor
  · refine mild_intercalate fun part hpart => ?_
    obtain ⟨l, hl, rfl⟩ := List.mem_map.1 hpart
    rcases hlays.forall_row l hl with rfl | hrow
    · decide
    · rw [Line.toList_text hrow.ne_nil]
      exact (settled_blanks _).append_mild (hrow.mild fun t ht => (hseen l hl t ht).toMild)
  · obtain ⟨l, hl, hrow⟩ := hlays.exists_row hne
    obtain ⟨t, ht⟩ := List.exists_mem_of_ne_nil _ hrow.tokens_ne_nil
    obtain ⟨c, hc, hvisible⟩ := (hseen l hl t ht).visible
    refine ⟨c, mem_intercalate (List.mem_map_of_mem hl) ?_, hvisible⟩
    rw [Line.toList_text hrow.ne_nil]
    exact List.mem_append_right _ (mem_chars ht hc)

theorem telling_respaced {ls : List Line} (h : Line.Stand 0 ls) (husual : Line.Usual ls) (t : σ) :
    ∃ spaced, ((respace (Line.textOf ls)).run t).1 = .ok spaced ∧ Telling spaced := by
  obtain ⟨rows, end', hne, hlays, htext, hrows⟩ := h.exists_lays
  have hread : Lexed.ofText (Line.textOf ls) = ⟨Line.tokens 0 rows, none⟩ := htext ▸ hlays.ofText hne
  refine ⟨_, respace_of_ofText hread t, ?_⟩
  have hseen : ∀ l ∈ rows, ∀ t ∈ Piece.tokens l.pieces, t.Seen := fun l hl =>
    UsualRow.seen (husual l (hrows hl))
  have htokens := Line.mild_tokens (fun l hl t ht => (hseen l hl t ht).toMild) 0
  constructor
  · exact mild_writeTokens (spaceTokens_mild htokens t) _ (List.forall_mem_nil _)
  · obtain ⟨l, hl, hrow⟩ := hlays.exists_row hne
    obtain ⟨u, hu⟩ := List.exists_mem_of_ne_nil _ hrow.tokens_ne_nil
    obtain ⟨c, hc, hvisible⟩ := (hseen l hl u hu).visible
    obtain ⟨v, hv, hpadded⟩ := (spaceTokens_yields _ t).exists_padded (Line.mem_tokens hl hu 0)
    have hinner : isInner v = true :=
      isInner_of_padded (.cons hpadded .nil) (List.forall_mem_singleton.2 (isInner_of_mem_tokens u hu)) v
        List.mem_cons_self
    exact ⟨c, mem_writeTokens hv hinner (hpadded.mem_text hc) _, hvisible⟩

/-- Both forms of a random program name no outer scope. -/
theorem telling_generated (depth : Nat) (t : σ) :
    Telling ((generatePlain depth).run t).1 ∧
      ∃ spaced, ((generateSpaced depth).run t).1 = .ok spaced ∧ Telling spaced := by
  obtain ⟨⟨hlength, -⟩, hdrawn⟩ := Build.module_yields depth t
  have hplain : (generatePlain depth).run t =
      (((Build.module depth).run t).1.source, ((Build.module depth).run t).2) := rfl
  have hspaced : (generateSpaced depth).run t =
      (respace ((generatePlain depth).run t).1).run ((generatePlain depth).run t).2 :=
    run_bind (generatePlain depth) respace t
  have hstand := Module.stand_lines hlength hdrawn
  have husual := Module.usual_lines hdrawn
  rw [hspaced, hplain]
  exact ⟨telling_lines hstand husual, telling_respaced hstand husual _⟩

end FormatFuzz.Program
