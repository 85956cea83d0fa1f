import FormatFuzz.Proofs.Program.Rows

/-!
# Rows put together

A printed row is put together from operands, operators, brackets and words. What may stand at a joint
depends on the token before it: an operand ends with a token that is clear of every bracket and
separator, and an operator is clear of every operand. A row leads from one kind of joint to another
and changes the number of open brackets; rows that meet at the same kind of joint can be put together.
-/

namespace FormatFuzz.Program

open FormatFuzz.Program.Lex

def endOperators : List String := ["...", ")", "]", "\x7d"]

def isEnd (t : Token) : Bool :=
  t.kind = .name || t.kind = .number || t.kind = .string ||
    (t.kind = .operator && endOperators.contains t.text)

/-- Where an operand can stand: at the start of a row or behind an operator. -/
def Open (t : Option Token) : Prop :=
  ∀ u ∈ t, u.kind = .operator ∧ u.text ∈ operators ∧ u.text ≠ "."

def Closed (t : Option Token) : Prop := ∃ u, t = some u ∧ isEnd u = true

def Between (t : Option Token) : Prop := Open t ∨ Closed t

def Pointed (t : Option Token) : Prop := ∀ u ∈ t, u.ClearOf '.'

def Named (t : Option Token) : Prop := ∃ w, t = some ⟨.name, w⟩

def Operated (t : Option Token) : Prop :=
  ∃ op, t = some ⟨.operator, op⟩ ∧ op ∈ operators ∧ op ≠ "."

def Bracketed (t : Option Token) : Prop := ∃ right ∈ [")", "]", "\x7d"], t = some ⟨.operator, right⟩

/-- The characters with which a shorter operator would go on. -/
def joiningChars : List Char := ['*', '=', '/', '>', '<']

theorem continuation_spec : ∀ op ∈ operators, op ≠ "." → ∀ q ∈ operators,
    op.toList <+: q.toList → ∀ c ∈ (q.toList.drop op.toList.length).head?, c ∈ joiningChars := by
  decide +kernel

theorem endOperators_spec : ∀ op ∈ endOperators, op ∈ operators ∧ op ≠ "." ∧
    ∀ q ∈ operators, op.toList <+: q.toList → q.toList.drop op.toList.length = [] := by
  decide

theorem drop_of_prefix {op q : List Char} {c : Char} (h : op ++ [c] <+: q) :
    op <+: q ∧ c ∈ (q.drop op.length).head? := by
  obtain ⟨rest, rfl⟩ := h
  refine ⟨⟨c :: rest, by simp⟩, ?_⟩
  rw [List.append_assoc, List.drop_left]
  rfl

theorem Open.clearOf {t : Option Token} (h : Open t) {c : Char} (hc : c ∉ joiningChars) :
    ∀ u ∈ t, u.ClearOf c := by
  intro u hu
  obtain ⟨hkind, hop, hpoint⟩ := h u hu
  obtain ⟨kind, text⟩ := u
  obtain rfl : kind = .operator := hkind
  refine ⟨fun q hq hprefix => ?_, fun h => absurd h hpoint⟩
  obtain ⟨hbegins, hnext⟩ := drop_of_prefix hprefix
  exact hc (continuation_spec text hop hpoint q hq hbegins c hnext)

theorem clearOf_endOperator {text : String} (h : text ∈ endOperators) (c : Char) :
    Token.ClearOf ⟨.operator, text⟩ c := by
  obtain ⟨-, hpoint, hend⟩ := endOperators_spec text h
  refine ⟨fun q hq hprefix => ?_, fun h => absurd h hpoint⟩
  obtain ⟨hbegins, hnext⟩ := drop_of_prefix hprefix
  rw [hend q hq hbegins] at hnext
  cases hnext

/-- What a row ends with is clear of what no word, no string and no number goes on with. -/
theorem clearOf_isEnd {u : Token} (hu : isEnd u = true) {c : Char} (hword : Text.isWordChar c = false)
    (hquote : isQuote c = false) (hpoint : c ≠ '.') : u.ClearOf c := by
  obtain ⟨kind, text⟩ := u
  cases kind with
  | name => exact ⟨hword, hquote⟩
  | number => exact ⟨hword, fun h => absurd h hpoint⟩
  | string => exact hquote
  | operator => exact clearOf_endOperator (by simpa [isEnd] using hu) c
  | _ => simp [isEnd] at hu

/-- What a row ends with is clear, behind a gap, of all but quotes. -/
theorem Closed.clearOf_gap {t : Option Token} (h : Closed t) {c : Char} (hquote : isQuote c = false) :
    ∀ u ∈ t.filter Piece.reaches, u.ClearOf c := by
  obtain ⟨u, rfl, hu⟩ := h
  intro v hv
  obtain ⟨rfl, hreaches⟩ : u = v ∧ Piece.reaches u = true := by
    simpa [Option.filter_some, and_comm] using hv
  obtain ⟨kind, text⟩ := u
  cases kind with
  | string => exact hquote
  | operator => exact clearOf_endOperator (by simpa [isEnd] using hu) c
  | _ => simp [Piece.reaches] at hreaches

theorem Between.clearOf {t : Option Token} (h : Between t) {c : Char}
    (hc : Text.isWordChar c = false ∧ isQuote c = false ∧ c ≠ '.' ∧ c ∉ joiningChars) :
    ∀ u ∈ t, u.ClearOf c := by
  rcases h with h | ⟨u, rfl, hu⟩
  · exact h.clearOf hc.2.2.2
  · rintro v ⟨⟩
    exact clearOf_isEnd hu hc.1 hc.2.1 hc.2.2.1

theorem Operated.open {t : Option Token} (h : Operated t) : Open t := by
  obtain ⟨op, rfl, hop⟩ := h
  rintro u ⟨⟩
  exact ⟨rfl, hop⟩

theorem Named.closed {t : Option Token} (h : Named t) : Closed t := by
  obtain ⟨w, rfl⟩ := h
  exact ⟨_, rfl, rfl⟩

theorem Named.pointed {t : Option Token} (h : Named t) : Pointed t := by
  obtain ⟨w, rfl⟩ := h
  rintro u ⟨⟩
  exact ⟨by decide, by decide⟩

theorem Bracketed.closed {t : Option Token} (h : Bracketed t) : Closed t := by
  obtain ⟨right, hright, rfl⟩ := h
  refine ⟨_, rfl, ?_⟩
  have hmem : right ∈ endOperators := List.mem_cons_of_mem _ hright
  simpa [isEnd] using hmem

theorem Bracketed.pointed {t : Option Token} (h : Bracketed t) : Pointed t := by
  obtain ⟨right, hright, rfl⟩ := h
  rintro u ⟨⟩
  exact clearOf_endOperator (List.mem_cons_of_mem _ hright) '.'

namespace Piece

/-- A row fits wherever one kind of joint is, leads to another one and opens a number of brackets. -/
def Leads (P : Option Token → Prop) (ps : List Piece) (Q : Option Token → Prop) (n : Int) : Prop :=
  (∀ t, P t → Fits t ps ∧ Q (ending t ps)) ∧ balance (tokens ps) = n

variable {P P' Q Q' R : Option Token → Prop} {ps qs : List Piece} {m n : Int}

theorem Leads.append (hps : Leads P ps Q m) (hqs : Leads Q qs R n) :
    Leads P (ps ++ qs) R (m + n) := by
  refine ⟨fun t ht => ?_, by rw [tokens_append, balance_append, hps.2, hqs.2]⟩
  obtain ⟨hfits, hending⟩ := hps.1 t ht
  obtain ⟨hfits', hending'⟩ := hqs.1 _ hending
  rw [fits_append, ending_append]
  exact ⟨⟨hfits, hfits'⟩, hending'⟩

theorem Leads.mono (h : Leads P ps Q n) (hP : ∀ t, P' t → P t) (hQ : ∀ t, Q t → Q' t) :
    Leads P' ps Q' n :=
  ⟨fun t ht => ⟨(h.1 t (hP t ht)).1, hQ _ (h.1 t (hP t ht)).2⟩, h.2⟩

theorem leads_nil : Leads P [] P 0 := ⟨fun _ ht => ⟨trivial, ht⟩, rfl⟩

/-- A readable lexeme leads on if the tokens at the joint are clear of it. -/
theorem leads_lexeme {kind : LexemeKind} {text : String} (h : Token.Readable ⟨kind.token, text⟩)
    (hclear : ∀ t, P t → ∀ c ∈ text.toList.head?, ∀ u ∈ t, u.ClearOf c)
    (hQ : Q (some ⟨kind.token, text⟩)) :
    Leads P [lexeme kind text] Q (tokenDepth ⟨kind.token, text⟩) := by
  refine ⟨fun t ht => ⟨⟨h, fun u hu c hc => hclear t ht c hc u hu, trivial⟩, hQ⟩, ?_⟩
  exact Int.add_zero _

theorem nameHead_spec {w : String} (hw : Token.isName w.toList = true) :
    ∀ c ∈ w.toList.head?, isNameStart c = true ∧ isQuote c = false ∧ c ∉ joiningChars := by
  revert hw
  generalize w.toList = cs
  intro hw c hc
  cases cs with
  | nil => cases hc
  | cons a cs =>
    obtain rfl := Option.some.inj hc
    have hstart := (Token.isName_cons hw).1
    have hchar := isNameChar_of_isNameStart hstart
    have hcheck := of_ascii (P := fun c => !isNameStart c || !joiningChars.contains c)
      (by decide) (toNat_lt_of_isNameChar hchar)
    exact ⟨hstart, (isNameChar_spec hchar).2.1, by simpa [hstart] using hcheck⟩

theorem leads_word {w : String} (hw : Token.isName w.toList = true) : Leads Open [word w] Named 0 := by
  refine leads_lexeme hw ?_ ⟨w, rfl⟩
  intro t ht c hc
  exact ht.clearOf (nameHead_spec hw c hc).2.2

/-- Behind an operand and a gap any lexeme but a string can stand. -/
theorem leads_gap_lexeme {kind : LexemeKind} {text : String}
    (h : Token.Readable ⟨kind.token, text⟩) (hquote : ∀ c ∈ text.toList.head?, isQuote c = false)
    (hQ : Q (some ⟨kind.token, text⟩)) :
    Leads Closed [gap, lexeme kind text] Q (tokenDepth ⟨kind.token, text⟩) := by
  refine ⟨fun t ht => ⟨⟨?_, h, fun u hu c hc => ht.clearOf_gap (hquote c hc) u hu, trivial⟩, hQ⟩, ?_⟩
  · obtain ⟨u, rfl, -⟩ := ht
    rfl
  · exact Int.add_zero _

theorem leads_gap_word {w : String} (hw : Token.isName w.toList = true) :
    Leads Closed [gap, word w] Named 0 :=
  leads_gap_lexeme hw (fun c hc => (nameHead_spec hw c hc).2.1) ⟨w, rfl⟩

theorem leads_named_gap : Leads Named [gap] Open 0 := by
  refine ⟨fun t ht => ?_, rfl⟩
  obtain ⟨w, rfl⟩ := ht
  refine ⟨⟨rfl, trivial⟩, ?_⟩
  rintro u ⟨⟩

theorem leads_operated_gap : Leads Operated [gap] Operated 0 := by
  refine ⟨fun t ht => ?_, rfl⟩
  obtain ⟨op, rfl, hop⟩ := ht
  exact ⟨⟨rfl, trivial⟩, op, rfl, hop⟩

def isTight (o : String) : Bool :=
  operators.contains o && o != "." && o.toList.head?.all fun c =>
    !Text.isWordChar c && !isQuote c && c != '.' && !joiningChars.contains c

theorem isTight_spec {o : String} (h : isTight o = true) : o ∈ operators ∧ o ≠ "." ∧
    ∀ c ∈ o.toList.head?, Text.isWordChar c = false ∧ isQuote c = false ∧ c ≠ '.' ∧
      c ∉ joiningChars := by
  simp only [isTight, Bool.and_eq_true, List.contains_iff_mem, bne_iff_ne, Option.all_eq_true,
    Bool.not_eq_true', and_assoc] at h
  refine ⟨h.1, h.2.1, fun c hc => ?_⟩
  obtain ⟨hword, hquote, hpoint, hjoining⟩ := h.2.2 c hc
  exact ⟨hword, hquote, hpoint, by simpa using hjoining⟩

theorem leads_op {o : String} (ho : isTight o = true) :
    Leads Between [op o] Operated (tokenDepth ⟨.operator, o⟩) := by
  obtain ⟨hmem, hpoint, hhead⟩ := isTight_spec ho
  exact leads_lexeme hmem (fun t ht c hc => ht.clearOf (hhead c hc)) ⟨o, rfl, hmem, hpoint⟩

theorem leads_closing {o : String} (ho : o ∈ [")", "]", "\x7d"]) :
    Leads Between [op o] Bracketed (tokenDepth ⟨.operator, o⟩) := by
  have htight : ∀ o ∈ [")", "]", "\x7d"], isTight o = true := by decide
  obtain ⟨hmem, -, hhead⟩ := isTight_spec (htight o ho)
  exact leads_lexeme hmem (fun t ht c hc => ht.clearOf (hhead c hc)) ⟨o, ho, rfl⟩

/-- No operator begins with a quote. -/
theorem isQuote_operator : ∀ o ∈ operators, ∀ c ∈ o.toList.head?, isQuote c = false := by
  decide

theorem leads_gap_op {o : String} (ho : o ∈ operators) (hpoint : o ≠ ".") :
    Leads Closed [gap, op o] Operated (tokenDepth ⟨.operator, o⟩) :=
  leads_gap_lexeme ho (isQuote_operator o ho) ⟨o, rfl, ho, hpoint⟩

/-- A gap on either side of an operator between operands. -/
theorem leads_between {o : String} (ho : o ∈ operators) (hpoint : o ≠ ".") :
    Leads Closed [gap, op o, gap] Open (tokenDepth ⟨.operator, o⟩) := by
  have h := (leads_gap_op ho hpoint).append leads_operated_gap
  rw [Int.add_zero] at h
  exact h.mono (fun _ => id) fun _ => Operated.open

theorem leads_between_word {w : String} (hw : Token.isName w.toList = true) :
    Leads Closed [gap, word w, gap] Open 0 :=
  (leads_gap_word hw).append leads_named_gap

theorem leads_word_gap {w : String} (hw : Token.isName w.toList = true) :
    Leads Open [word w, gap] Open 0 :=
  (leads_word hw).append leads_named_gap

theorem leads_op_gap {o : String} (ho : isTight o = true) :
    Leads Between [op o, gap] Open (tokenDepth ⟨.operator, o⟩) := by
  have h := (leads_op ho).append leads_operated_gap
  rw [Int.add_zero] at h
  exact h.mono (fun _ => id) fun _ => Operated.open

/-- The sign between the name and the value of an argument. -/
theorem leads_equal : Leads Closed [op "="] Open 0 := by
  have hequal : "=" ∈ operators := by decide
  have hspec : Text.isWordChar '=' = false ∧ isQuote '=' = false ∧ '=' ≠ '.' := by decide
  have hlexeme : Leads Closed [lexeme .operator "="] Open (tokenDepth ⟨.operator, "="⟩) := by
    refine leads_lexeme hequal ?_ ?_
    · rintro t ⟨u, rfl, hu⟩ c hc v ⟨⟩
      cases hc
      exact clearOf_isEnd hu hspec.1 hspec.2.1 hspec.2.2
    · rintro u ⟨⟩
      exact ⟨rfl, hequal, by decide⟩
  exact hlexeme

theorem leads_point {w : String} (hw : Token.isName w.toList = true) :
    Leads Pointed [op ".", word w] Named 0 := by
  have hpoint : "." ∈ operators := by decide
  have hnext : ∀ q ∈ operators, ".".toList <+: q.toList →
      ∀ c ∈ (q.toList.drop ".".toList.length).head?, c = '.' := by decide
  have hclear : ∀ c ∈ w.toList.head?, Token.ClearOf ⟨.operator, "."⟩ c := by
    intro c hc
    obtain ⟨-, hdigit, hne, -⟩ := isNameStart_spec (nameHead_spec hw c hc).1
    refine ⟨fun q hq hprefix => ?_, fun _ => hdigit⟩
    obtain ⟨hbegins, hhead⟩ := drop_of_prefix hprefix
    exact hne (hnext q hq hbegins c hhead)
  refine ⟨fun t ht => ⟨⟨hpoint, ?_, hw, ?_, trivial⟩, w, rfl⟩, rfl⟩
  · intro u hu c hc
    cases hc
    exact ht u hu
  · rintro u ⟨⟩
    exact hclear

def brackets : List (String × String) := [("(", ")"), ("[", "]"), ("\x7b", "\x7d")]

theorem brackets_spec : ∀ p ∈ brackets, isTight p.1 = true ∧ p.2 ∈ [")", "]", "\x7d"] ∧
    tokenDepth ⟨.operator, p.1⟩ = 1 ∧ tokenDepth ⟨.operator, p.2⟩ = -1 := by
  decide

theorem leads_enclose {left right : String} (h : (left, right) ∈ brackets)
    (hps : Leads Open ps Between 0) : Leads Between (enclose left right ps) Bracketed 0 := by
  obtain ⟨htight, hclosing, hleft, hright⟩ := brackets_spec _ h
  have hopen := (leads_op htight).mono (fun _ => id) fun _ => Operated.open
  have hall := (hopen.append hps).append (leads_closing hclosing)
  rw [hleft, hright] at hall
  exact hall

abbrev Operand (ps : List Piece) : Prop := Leads Open ps Closed 0

theorem Operand.between (h : Operand ps) : Leads Open ps Between 0 :=
  h.mono (fun _ => id) fun _ => .inr

theorem leads_enclose_operand {left right : String} (hb : (left, right) ∈ brackets)
    (hps : Leads Open ps Between 0) : Operand (enclose left right ps) :=
  (leads_enclose hb hps).mono (fun _ => .inl) fun _ => Bracketed.closed

theorem leads_comma : Leads Closed [op ",", gap] Open 0 :=
  (leads_op_gap (o := ",") (by decide)).mono (fun _ => .inr) fun _ => id

theorem leads_colon_gap : Leads Closed [op ":", gap] Open 0 :=
  (leads_op_gap (o := ":") (by decide)).mono (fun _ => .inr) fun _ => id

theorem operand_commas {rows : List (List Piece)} (hne : rows ≠ []) (h : ∀ row ∈ rows, Operand row) :
    Operand (commas rows) := by
  induction rows with
  | nil => exact absurd rfl hne
  | cons row rows ih =>
    obtain ⟨hrow, hrows⟩ := List.forall_mem_cons.1 h
    cases rows with
    | nil => exact hrow
    | cons row' rows =>
      have hrest := ih (List.cons_ne_nil _ _) hrows
      exact hrow.append (leads_comma.append hrest)

theorem leads_commas {rows : List (List Piece)} (h : ∀ row ∈ rows, Operand row) :
    Leads Open (commas rows) Between 0 := by
  cases rows with
  | nil => exact leads_nil.mono (fun _ => id) fun _ => .inl
  | cons row rows => exact (operand_commas (List.cons_ne_nil _ _) h).between

theorem leads_items {rows : List (List Piece)} (h : ∀ row ∈ rows, Operand row) :
    Leads Open (items rows) Between 0 := by
  match rows with
  | [] => exact leads_commas h
  | [row] =>
    have hcomma : Leads Closed [op ","] Between 0 :=
      (leads_op (o := ",") (by decide)).mono (fun _ => .inr) fun _ h => .inl h.open
    exact (h row List.mem_cons_self).append hcomma
  | _ :: _ :: _ => exact leads_commas h

theorem operand_parens {needed : Bool} (h : Operand ps) : Operand (parens needed ps) := by
  cases needed with
  | false => exact h
  | true => exact leads_enclose_operand (by decide) h.between

theorem operand_word {w : String} (hw : Token.isName w.toList = true) : Operand [word w] :=
  (leads_word hw).mono (fun _ => id) fun _ => Named.closed

end Piece

end FormatFuzz.Program
