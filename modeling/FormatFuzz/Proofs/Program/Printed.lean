import FormatFuzz.Proofs.Program.Drawn
import FormatFuzz.Proofs.Program.Joining

namespace FormatFuzz.Program

open FormatFuzz.Program.Lex FormatFuzz.Program.Piece

theorem numberText_toString (n : Nat) : NumberText (toString n).toList := by
  have htext : (toString n).toList = (⟨false, Decimal.digitsOf n, none, none,
      Json.whole_digitsOf n, by simp, by simp⟩ : Json.Numeral).text := by
    simp [Json.Numeral.text, Json.Numeral.signText, Json.Numeral.placesText,
      Json.Numeral.exponentText, Decimal.digitsOf]
  rw [htext]
  exact .real rfl

/-- The sampled fractions are finite and not negative, and their texts are not digits alone. -/
theorem sampleFloats_spec : ∀ x ∈ sampleFloats, x.isFinite = true ∧
    (Decimal.plainStyle.write x).toList.head? ≠ some '-' ∧
    ∃ c ∈ (Decimal.plainStyle.write x).toList, c.isDigit = false := by
  decide +kernel

theorem numberText_float {x : Decimal.Binary64} (hx : x ∈ sampleFloats) :
    NumberText (Decimal.plainStyle.write x).toList := by
  obtain ⟨hfinite, hsign, -⟩ := sampleFloats_spec x hx
  obtain ⟨n, htext, -⟩ := Json.exists_numeral_write Decimal.plainStyle hfinite
  rw [← htext] at hsign ⊢
  refine .real ?_
  cases hnegative : n.negative with
  | false => rfl
  | true =>
    rw [Json.Numeral.text, Json.Numeral.signText, hnegative] at hsign
    exact absurd rfl hsign

/-- What is needed of a literal's token: it is readable, can stand where an operand can, and a point
can follow it, with a gap if it is a whole number or a truth value. -/
structure Literal.Printed (v : Literal) (kind : LexemeKind) : Prop where
  piece_eq : v.piece = .lexeme kind v.text
  readable : Token.Readable ⟨kind.token, v.text⟩
  head : ∀ c ∈ v.text.toList.head?, c ∉ joiningChars
  isEnd : isEnd ⟨kind.token, v.text⟩ = true
  depth : tokenDepth ⟨kind.token, v.text⟩ = 0
  clearOf : (Expr.constant v).isInteger = false → Token.ClearOf ⟨kind.token, v.text⟩ '.'
  not_reaches : (Expr.constant v).isInteger = true → reaches ⟨kind.token, v.text⟩ = false

theorem notMem_joiningChars_of_isDigit {c : Char} (h : c.isDigit = true) : c ∉ joiningChars := by
  intro hmem
  rw [(by decide : ∀ a ∈ joiningChars, a.isDigit = false) c hmem] at h
  cases h

theorem head_numberText {t : List Char} (h : NumberText t) : ∀ c ∈ t.head?, c ∉ joiningChars := by
  obtain ⟨c, cs, rfl, hc⟩ := exists_cons_of_numberText h
  rintro a ⟨⟩
  exact notMem_joiningChars_of_isDigit hc

theorem sampleTexts_spec : ∀ text ∈ sampleStrings.map Text.quoted ++ sampleBytes.map Text.quotedBytes,
    (Token.isString text.toList = true ∧ Unbroken text.toList) ∧
      ∀ c ∈ text.toList.head?, c ∉ joiningChars := by
  decide +kernel

theorem printed_number {v : Literal} (hpiece : v.piece = .lexeme .number v.text)
    (htext : NumberText v.text.toList)
    (hpoint : (Expr.constant v).isInteger = true ∨ ∃ c ∈ v.text.toList, c.isDigit = false) :
    v.Printed .number where
  piece_eq := hpiece
  readable := htext
  head := head_numberText htext
  isEnd := rfl
  depth := rfl
  clearOf hinteger := ⟨by decide, fun _ => hpoint.resolve_left (by simp [hinteger])⟩
  not_reaches _ := rfl

theorem printed_string {v : Literal} (hpiece : v.piece = .lexeme .string v.text)
    (hinteger : (Expr.constant v).isInteger = false)
    (hmem : v.text ∈ sampleStrings.map Text.quoted ++ sampleBytes.map Text.quotedBytes) :
    v.Printed .string where
  piece_eq := hpiece
  readable := (sampleTexts_spec _ hmem).1
  head := (sampleTexts_spec _ hmem).2
  isEnd := rfl
  depth := rfl
  clearOf _ := (rfl : isQuote '.' = false)
  not_reaches h := by simp [hinteger] at h

theorem printed_word {v : Literal} (hpiece : v.piece = .lexeme .name v.text)
    (hword : Token.isName v.text.toList = true) : v.Printed .name where
  piece_eq := hpiece
  readable := hword
  head c hc := (nameHead_spec hword c hc).2.2
  isEnd := rfl
  depth := rfl
  clearOf _ := ⟨by decide, by decide⟩
  not_reaches _ := rfl

theorem Literal.Drawn.printed {v : Literal} (h : v.Drawn) : ∃ kind, v.Printed kind := by
  cases h with
  | int n => exact ⟨_, printed_number rfl (numberText_toString n) (.inl rfl)⟩
  | float hx => exact ⟨_, printed_number rfl (numberText_float hx) (.inr (sampleFloats_spec _ hx).2.2)⟩
  | imaginary =>
    have hone : Json.Digital ['1'] := by simp [Json.Digital]
    have htext : NumberText ['1', 'j'] := .imaginary hone
    exact ⟨_, printed_number rfl htext (.inr (by decide))⟩
  | str hs => exact ⟨_, printed_string rfl rfl (List.mem_append_left _ (List.mem_map_of_mem hs))⟩
  | bytes hb => exact ⟨_, printed_string rfl rfl (List.mem_append_right _ (List.mem_map_of_mem hb))⟩
  | bool b =>
    cases b with
    | false => exact ⟨_, printed_word rfl (by decide)⟩
    | true => exact ⟨_, printed_word rfl (by decide)⟩
  | none => exact ⟨_, printed_word rfl (by decide)⟩
  | ellipsis =>
    exact ⟨.operator, rfl, (by decide : "..." ∈ operators), by decide, rfl, rfl,
      fun _ => clearOf_endOperator (by decide) '.', fun h => by simp [Expr.isInteger] at h⟩

/-- What is needed of the printed form of an expression: it is an operand in all surroundings in which
a tuple stands in brackets, where nothing binds tighter a point can follow it, and the elements of a
tuple are operands too. -/
structure Expr.Printed (e : Expr) : Prop where
  operand : ∀ level, Level.tuple < level → Operand (e.pieces level)
  pointed : Leads Open (e.pieces .atom ++ if e.isInteger then [gap] else []) Pointed 0
  elements : ∀ es ctx, e = .tuple es ctx → ∀ x ∈ es, ∀ level, Level.tuple < level →
    Operand (x.pieces level)

theorem Expr.printed_constant {v : Literal} (h : v.Drawn) : (Expr.constant v).Printed := by
  obtain ⟨kind, h⟩ := h.printed
  have hlexeme : ∀ Q : Option Token → Prop, Q (some ⟨kind.token, v.text⟩) →
      Leads Open [v.piece] Q 0 := by
    intro Q hQ
    rw [h.piece_eq, ← h.depth]
    exact leads_lexeme h.readable (fun t ht c hc => ht.clearOf (h.head c hc)) hQ
  refine ⟨fun level _ => ?_, ?_, nofun⟩
  · show Operand [v.piece]
    exact hlexeme Closed ⟨_, rfl, h.isEnd⟩
  · show Leads Open ([v.piece] ++ if (constant v).isInteger then [gap] else []) Pointed 0
    cases hinteger : (Expr.constant v).isInteger with
    | false =>
      refine hlexeme Pointed ?_
      rintro u ⟨⟩
      exact h.clearOf hinteger
    | true =>
      -- a number or a word need not be kept apart from what stands behind a gap
      have hgap : Leads (Eq (some ⟨kind.token, v.text⟩)) [gap] Pointed 0 := by
        refine ⟨?_, rfl⟩
        rintro t rfl
        refine ⟨⟨rfl, trivial⟩, ?_⟩
        rw [ending, Option.filter_some, h.not_reaches hinteger]
        rintro u ⟨⟩
      exact (hlexeme _ rfl).append hgap

theorem isName_names : ∀ n ∈ names, Token.isName n.toList = true := by
  decide

theorem Expr.printed_of_row {e : Expr} {row : List Piece} {Q : Option Token → Prop}
    (hrow : Leads Open row Q 0) (hclosed : ∀ t, Q t → Closed t) (hpointed : ∀ t, Q t → Pointed t)
    (h : ∀ level, e.pieces level = row) (hinteger : e.isInteger = false)
    (htuple : ∀ es ctx, e ≠ .tuple es ctx) : e.Printed := by
  refine ⟨fun level _ => ?_, ?_, fun es ctx heq => absurd heq (htuple es ctx)⟩
  · rw [h]
    exact hrow.mono (fun _ => id) hclosed
  · rw [h, hinteger]
    simpa using hrow.mono (fun _ => id) hpointed

theorem Expr.printed_of_parens {e : Expr} {row : List Piece} {l : Level} (hrow : Operand row)
    (hl : l < Level.atom) (h : ∀ level, e.pieces level = parens (level > l) row)
    (hinteger : e.isInteger = false) (htuple : ∀ es ctx, e ≠ .tuple es ctx) : e.Printed := by
  refine ⟨fun level _ => ?_, ?_, fun es ctx heq => absurd heq (htuple es ctx)⟩
  · rw [h]
    exact operand_parens hrow
  · have hatom : decide (Level.atom > l) = true := decide_eq_true hl
    rw [h, hinteger, hatom]
    simpa [parens] using (leads_enclose (by decide) hrow.between).mono (fun _ => .inl)
      fun _ => Bracketed.pointed

theorem Expr.printed_name {id : String} (h : Token.isName id.toList = true) (ctx : Context) :
    (Expr.name id ctx).Printed :=
  printed_of_row (leads_word h) (fun _ => Named.closed) (fun _ => Named.pointed)
    (fun _ => rfl) rfl nofun

theorem Level.tuple_lt_next {l : Level} (h : Level.tuple < l) : Level.tuple < l.next := by
  have hatom : Level.tuple < Level.atom := by decide
  exact lt_min (Nat.lt_succ_of_lt h) hatom

theorem rows_eq_map (level : Level) (es : List Expr) : rows level es = es.map (Expr.pieces level) := by
  induction es with
  | nil => rfl
  | cons e es ih => rw [rows, ih, List.map_cons]

theorem operand_of_mem_rows {es : List Expr} (h : ∀ e ∈ es, e.Printed) {level : Level}
    (hlevel : Level.tuple < level) : ∀ row ∈ rows level es, Operand row := by
  intro row hrow
  rw [rows_eq_map] at hrow
  obtain ⟨e, he, rfl⟩ := List.mem_map.1 hrow
  exact (h e he).operand level hlevel

theorem BinaryOp.leads (o : BinaryOp) : Leads Closed [gap, op o.text, gap] Open 0 := by
  have hspec : o.text ∈ operators ∧ o.text ≠ "." ∧ tokenDepth ⟨.operator, o.text⟩ = 0 := by
    cases o <;> decide
  rw [← hspec.2.2]
  exact leads_between hspec.1 hspec.2.1

theorem UnaryOp.leads (o : UnaryOp) : Leads Open o.pieces Open 0 := by
  have hsign : ∀ text ∈ ["-", "+", "~"], Leads Open [op text] Open 0 := by
    intro text htext
    have hspec : ∀ text ∈ ["-", "+", "~"], isTight text = true ∧
        tokenDepth ⟨.operator, text⟩ = 0 := by decide
    rw [← (hspec text htext).2]
    exact (leads_op (hspec text htext).1).mono (fun _ => .inl) fun _ => Operated.open
  cases o with
  | not => exact leads_word_gap (by decide)
  | minus => exact hsign "-" (by decide)
  | plus => exact hsign "+" (by decide)
  | invert => exact hsign "~" (by decide)

theorem CompareOp.leads (o : CompareOp) : Leads Closed (gap :: o.pieces ++ [gap]) Open 0 := by
  have hop : ∀ text ∈ ["==", "!=", "<", "<=", ">", ">="], Leads Closed [gap, op text, gap] Open 0 := by
    intro text htext
    have hspec : ∀ text ∈ ["==", "!=", "<", "<=", ">", ">="], text ∈ operators ∧ text ≠ "." ∧
        tokenDepth ⟨.operator, text⟩ = 0 := by decide
    rw [← (hspec text htext).2.2]
    exact leads_between (hspec text htext).1 (hspec text htext).2.1
  have hword : ∀ w ∈ ["is", "in", "not"], Token.isName w.toList = true := by decide
  cases o with
  | eq => exact hop "==" (by decide)
  | notEq => exact hop "!=" (by decide)
  | lt => exact hop "<" (by decide)
  | ltE => exact hop "<=" (by decide)
  | gt => exact hop ">" (by decide)
  | gtE => exact hop ">=" (by decide)
  | is => exact leads_between_word (hword "is" (by decide))
  | isIn => exact leads_between_word (hword "in" (by decide))
  | isNot =>
    exact (leads_between_word (hword "is" (by decide))).append (leads_word_gap (hword "not" (by decide)))
  | notIn =>
    exact (leads_between_word (hword "not" (by decide))).append (leads_word_gap (hword "in" (by decide)))

theorem operand_comparisons (ops : List CompareOp) {operands : List (List Piece)}
    (h : ∀ row ∈ operands, Operand row) : Leads Closed (comparisons ops operands) Closed 0 := by
  induction operands generalizing ops with
  | nil =>
    rw [comparisons, List.zipWith_nil_right]
    exact leads_nil
  | cons row operands ih =>
    obtain ⟨hrow, hrows⟩ := List.forall_mem_cons.1 h
    cases ops with
    | nil => exact leads_nil
    | cons o ops =>
      have hfirst : Leads Closed (gap :: o.pieces ++ gap :: row) Closed 0 := by
        have hall := o.leads.append hrow
        rwa [List.append_assoc] at hall
      exact hfirst.append (ih ops hrows)

theorem operand_chain {w : String} (hw : Token.isName w.toList = true) {vs : List Expr}
    (hne : vs ≠ []) (h : ∀ v ∈ vs, v.Printed) {level : Level} (hlevel : Level.tuple < level) :
    Operand (chain w level vs) := by
  induction vs generalizing level with
  | nil => exact absurd rfl hne
  | cons v vs ih =>
    obtain ⟨hv, hvs⟩ := List.forall_mem_cons.1 h
    cases vs with
    | nil => exact hv.operand level hlevel
    | cons v' vs =>
      have hrest := ih (List.cons_ne_nil _ _) hvs (Level.tuple_lt_next hlevel)
      exact ((hv.operand level hlevel).append (leads_between_word hw)).append hrest

theorem operand_keywordRows {kws : List (String × Expr)} (hns : ∀ n ∈ kws.map Prod.fst, n ∈ names)
    (h : ∀ k ∈ kws, k.2.Printed) : ∀ row ∈ keywordRows kws, Operand row := by
  induction kws with
  | nil => exact List.forall_mem_nil _
  | cons k kws ih =>
    obtain ⟨n, e⟩ := k
    obtain ⟨hn, hns⟩ := List.forall_mem_cons.1 hns
    obtain ⟨he, hkws⟩ := List.forall_mem_cons.1 h
    have hequal : Leads Named [op "="] Open 0 :=
      leads_equal.mono (fun _ => Named.closed) fun _ => id
    refine List.forall_mem_cons.2 ⟨?_, ih hns hkws⟩
    exact (leads_word (isName_names n hn)).append (hequal.append (he.operand .test (by decide)))

theorem operand_entries {keys values : List (List Piece)} (hkeys : ∀ row ∈ keys, Operand row)
    (hvalues : ∀ row ∈ values, Operand row) : ∀ row ∈ entries keys values, Operand row := by
  induction keys generalizing values with
  | nil => exact List.forall_mem_nil _
  | cons k keys ih =>
    cases values with
    | nil => exact List.forall_mem_nil _
    | cons v values =>
      obtain ⟨hk, hkeys⟩ := List.forall_mem_cons.1 hkeys
      obtain ⟨hv, hvalues⟩ := List.forall_mem_cons.1 hvalues
      exact List.forall_mem_cons.2 ⟨(hk.append leads_colon_gap).append hv, ih hkeys hvalues⟩

theorem leads_conditions {rows : List (List Piece)} (h : ∀ row ∈ rows, Operand row) :
    Leads Closed (conditions rows) Closed 0 := by
  induction rows with
  | nil => exact leads_nil
  | cons row rows ih =>
    obtain ⟨hrow, hrows⟩ := List.forall_mem_cons.1 h
    exact ((leads_between_word (w := "if") (by decide)).append hrow).append (ih hrows)

theorem leads_optionPieces {o : Option Expr} (h : ∀ e ∈ o, e.Printed) :
    Leads Open (optionPieces o) Between 0 := by
  cases o with
  | none => exact leads_nil.mono (fun _ => id) fun _ => .inl
  | some e => exact ((h e rfl).operand .test (by decide)).between

theorem Expr.Leaf.printed {e : Expr} (h : e.Leaf) : e.Printed := by
  cases h with
  | name hid => exact printed_name (isName_names _ hid) .load
  | constant hv => exact printed_constant hv

theorem Expr.LeafSlice.leads {e : Expr} (h : e.LeafSlice) (level : Level) :
    Leads Open (e.pieces level) Between 0 := by
  cases h with
  | @slice l u s hl hu hs =>
    have hoption : ∀ {o : Option Expr}, (∀ e ∈ o, e.Leaf) → Leads Open (optionPieces o) Between 0 :=
      fun ho => leads_optionPieces fun e he => (ho e he).printed
    have hcolon : Leads Between [op ":"] Open 0 :=
      (leads_op (o := ":") (by decide)).mono (fun _ => id) fun _ => Operated.open
    have hlast : Leads Between ((if s.isSome then [op ":"] else []) ++ optionPieces s) Between 0 := by
      cases s with
      | none => exact leads_nil
      | some e => exact hcolon.append (hoption hs)
    have hrow := ((hoption hl).append (hcolon.append (hoption hu))).append hlast
    rwa [← List.append_assoc] at hrow

end FormatFuzz.Program
