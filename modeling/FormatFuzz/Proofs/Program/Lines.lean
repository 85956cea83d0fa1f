import FormatFuzz.Program.Lexed
import FormatFuzz.Proofs.Program.Lexeme

/-!
# Lines are read whole

The text of a line is its tokens with blanks between them, wherever they stand, and perhaps a comment
behind the last one. Reading such a line gives the tokens and the comment back, whatever the blanks
are. The lines of a program are read one after the other: the indentation of a line that begins a
statement opens a block or closes some.
-/

namespace FormatFuzz.Program

namespace Lex

/-! ## One line -/

def tokenDepth (t : Token) : Int :=
  if t.kind = .operator then depthChange t.text.toList else 0

def balance (ts : List Token) : Int := (ts.map tokenDepth).sum

@[simp] theorem balance_nil : balance [] = 0 := rfl

@[simp] theorem balance_cons (t : Token) (ts : List Token) :
    balance (t :: ts) = tokenDepth t + balance ts := by
  simp [balance]

@[simp] theorem balance_append (ts us : List Token) : balance (ts ++ us) = balance ts + balance us := by
  simp [balance]

/-- The tokens of a line and a text of it: blanks stand where they do not matter. -/
inductive Spells : List Token → List Char → Prop
  | done : Spells [] []
  | comment {text : List Char} : Unbroken text →
      Spells [⟨.comment, String.ofList ('#' :: text)⟩] ('#' :: text)
  | blank {ts : List Token} {cs : List Char} : Spells ts cs → Spells ts (' ' :: cs)
  | token {t : Token} {ts : List Token} {cs : List Char} : t.Readable →
      (∀ c ∈ cs.head?, t.ClearOf c) → Spells ts cs → Spells (t :: ts) (t.text.toList ++ cs)

/-- The end of a line, which the last line of a text does without. -/
def lineEnd (ended : Bool) : List Char := if ended then ['\n'] else []

def endTokens (ended : Bool) : List Token := if ended then [⟨.newline, "\n"⟩] else []

variable {ts : List Token} {cs : List Char}

theorem step_lineEnd (n : Nat) (ended : Bool) :
    step (blanks n ++ lineEnd ended) = if ended then .lineEnd ['\n'] [] else .done := by
  unfold step
  rw [List.dropWhile_append_of_pos isSkipped_of_mem_blanks]
  cases ended with
  | false => rfl
  | true => rfl

theorem step_comment (n : Nat) (ended : Bool) {text : List Char} (h : Unbroken text) :
    step (blanks n ++ ('#' :: text ++ lineEnd ended)) =
      .token .comment ('#' :: text) (lineEnd ended) := by
  have hinside : ∀ c ∈ text, (c != '\r' && c != '\n') = true := by
    intro c hc
    simpa using h c hc
  have htake : (text ++ lineEnd ended).takeWhile (fun c => c != '\r' && c != '\n') = text := by
    rw [List.takeWhile_append_of_pos hinside]
    cases ended with
    | false => exact List.append_nil _
    | true => exact List.append_nil _
  have hdrop : (text ++ lineEnd ended).dropWhile (fun c => c != '\r' && c != '\n') =
      lineEnd ended := by
    rw [List.dropWhile_append_of_pos hinside]
    cases ended with
    | false => rfl
    | true => rfl
  unfold step
  rw [List.dropWhile_append_of_pos isSkipped_of_mem_blanks, List.cons_append,
    List.dropWhile_cons_of_neg (by decide)]
  simp [htake, hdrop]

theorem scan_lineEnd (lineNumber width : Nat) {s : State} (hdepth : s.depth = 0) (n : Nat)
    (ended : Bool) {fuel : Nat} (hfuel : (blanks n ++ lineEnd ended).length ≤ fuel) :
    scan lineNumber width s fuel (blanks n ++ lineEnd ended) = (endTokens ended, s) := by
  cases fuel with
  | zero =>
    cases ended with
    | false => rfl
    | true => simp [lineEnd] at hfuel
  | succ fuel =>
    have hrest : scan lineNumber width s fuel [] = ([], s) := by
      cases fuel with
      | zero => rfl
      | succ fuel => rfl
    rw [scan, step_lineEnd]
    cases ended with
    | false => rfl
    | true =>
      simp [hrest, hdepth]
      rfl

theorem scan_token {rest : List Char} (t : Token)
    (hstep : step cs = .token t.kind t.text.toList rest) (lineNumber width : Nat) (s : State)
    (fuel : Nat) : scan lineNumber width s (fuel + 1) cs =
      Prod.map (t :: ·) id (scan lineNumber width { s with depth := s.depth + tokenDepth t } fuel rest) := by
  have hdepth : (if t.kind = .operator then s.depth + depthChange t.text.toList else s.depth) =
      s.depth + tokenDepth t := by
    rw [tokenDepth]
    split
    · rfl
    · exact (Int.add_zero _).symm
  have htoken : Lex.token t.kind t.text.toList = t := by rw [Lex.token, String.ofList_toList]
  rw [scan, hstep]
  simp only [hdepth, htoken]
  rfl

theorem scan_spells (h : Spells ts cs) (lineNumber width : Nat) (s : State)
    (hdepth : s.depth + balance ts = 0) (n : Nat) (ended : Bool) {fuel : Nat}
    (hfuel : (blanks n ++ (cs ++ lineEnd ended)).length ≤ fuel) :
    scan lineNumber width s fuel (blanks n ++ (cs ++ lineEnd ended)) =
      (ts ++ endTokens ended, { s with depth := 0 }) := by
  induction h generalizing s n fuel with
  | done =>
    have hzero : s.depth = 0 := by simpa using hdepth
    rw [List.nil_append] at hfuel ⊢
    rw [scan_lineEnd lineNumber width hzero n ended hfuel, ← hzero]
    rfl
  | @comment text htext =>
    have hzero : s.depth = 0 := by simpa [tokenDepth] using hdepth
    obtain ⟨fuel, rfl⟩ : ∃ k, fuel = k + 1 := ⟨fuel - 1, by simp at hfuel; omega⟩
    have hstep := step_comment n ended htext
    rw [scan_token ⟨.comment, String.ofList ('#' :: text)⟩ (by rw [hstep, String.toList_ofList])]
    have hfuel' : (blanks 0 ++ lineEnd ended).length ≤ fuel := by
      simp [blanks] at hfuel ⊢
      omega
    have hend := scan_lineEnd lineNumber width hzero 0 ended hfuel'
    have hsame : { s with depth := s.depth + 0 } = { s with depth := 0 } := by rw [hzero]; rfl
    change Prod.map _ id (scan lineNumber width { s with depth := s.depth + 0 } fuel _) = _
    rw [hsame, ← hzero]
    exact congrArg (Prod.map _ id) hend
  | @blank ts cs _ ih =>
    -- the blank joins those in front, so no step is taken for it
    have hshift : blanks n ++ (' ' :: cs ++ lineEnd ended) = blanks (n + 1) ++ (cs ++ lineEnd ended) := by
      simp [blanks, List.replicate_succ']
    rw [hshift] at hfuel ⊢
    exact ih s hdepth (n + 1) hfuel
  | @token t ts cs ht hclear _ ih =>
    have hlength : 0 < t.text.toList.length := by
      obtain ⟨c, rest, hcs, -⟩ := Token.exists_cons_of_readable ht
      rw [hcs]
      exact Nat.succ_pos _
    simp only [List.length_append] at hfuel
    obtain ⟨fuel, rfl⟩ : ∃ k, fuel = k + 1 := ⟨fuel - 1, by omega⟩
    -- behind the last token of the line stands its end
    have hends : ∀ c ∈ (cs ++ lineEnd ended).head?, t.ClearOf c := by
      intro c hc
      cases cs with
      | nil =>
        cases ended with
        | false => cases hc
        | true => exact Token.clearOf_layout ht (by cases hc; decide)
      | cons a cs => exact hclear c hc
    have hstep := Token.step_readable ht hends n
    rw [balance_cons] at hdepth
    have hfuel' : (blanks 0 ++ (cs ++ lineEnd ended)).length ≤ fuel := by
      simp only [blanks, List.replicate_zero, List.nil_append, List.length_append]
      omega
    have hrest := ih { s with depth := s.depth + tokenDepth t } (by simp only; omega) 0 hfuel'
    rw [List.append_assoc, scan_token t hstep]
    exact congrArg (Prod.map (t :: ·) id) hrest

theorem Spells.unbroken (h : Spells ts cs) : Unbroken cs := by
  induction h with
  | done => exact List.forall_mem_nil _
  | comment htext =>
    intro c hc
    rcases List.mem_cons.1 hc with rfl | hc
    · decide
    · exact htext c hc
  | blank _ ih =>
    intro c hc
    rcases List.mem_cons.1 hc with rfl | hc
    · decide
    · exact ih c hc
  | token ht _ _ ih =>
    intro c hc
    rcases List.mem_append.1 hc with hc | hc
    · exact Token.unbroken_text ht c hc
    · exact ih c hc

/-! ## Indentation -/

def columns : Nat → List Nat
  | 0 => [0]
  | level + 1 => 4 * (level + 1) :: columns level

def between (level : Nat) : State := ⟨none, 0, false, columns level⟩

/-- The tokens that lead from a line of one level to a line of another one. -/
def turn (level next : Nat) : List Token :=
  if level < next then [⟨.indent, String.ofList (blanks (4 * next))⟩]
  else List.replicate (level - next) ⟨.dedent, ""⟩

theorem length_columns (level : Nat) : (columns level).length = level + 1 := by
  induction level with
  | zero => rfl
  | succ level ih => rw [columns, List.length_cons, ih]

theorem headD_columns (level : Nat) : (columns level).headD 0 = 4 * level := by
  cases level with
  | zero => rfl
  | succ level => rfl

theorem closeBlocks_columns {level next : Nat} (h : next ≤ level) :
    closeBlocks (4 * next) (columns level) = some (level - next, columns next) := by
  induction level with
  | zero =>
    obtain rfl : next = 0 := by omega
    rfl
  | succ level ih =>
    by_cases heq : next = level + 1
    · subst heq
      rw [columns, closeBlocks, if_pos rfl, Nat.sub_self]
    · have hcount : level + 1 - next = level - next + 1 := by omega
      rw [columns, closeBlocks, if_neg (by omega), if_neg (by omega), ih (by omega), hcount]
      rfl

theorem column_blanks (n : Nat) {c : Char} {rest : List Char} (hc : isSkipped c = false) :
    column (blanks n ++ c :: rest) = n := by
  have hfold : ∀ start, (blanks n).foldl (fun col c => if c == ' ' then col + 1
      else if c == '\t' then (col / 8 + 1) * 8 else 0) start = start + n := by
    induction n with
    | zero => exact fun start => rfl
    | succ n ih =>
      intro start
      rw [blanks, List.replicate_succ, List.foldl_cons]
      refine (ih _).trans ?_
      change start + 1 + n = start + (n + 1)
      omega
  rw [column, takeWhile_blanks n hc, hfold, Nat.zero_add]

/-- A line that begins a statement opens or closes blocks and is read on. -/
theorem lexLines_start {level next : Nat} (hlevel : next ≤ level + 1) {c : Char} {rest : List Char}
    (hc : isOpening c = true) (lineNumber : Nat) (last : List Char) (lines : List (List Char)) :
    lexLines lineNumber last (between level) ((blanks (4 * next) ++ c :: rest) :: lines) =
      Lexed.prepend (turn level next ++
        (scanAll lineNumber (between next) (blanks (4 * next) ++ c :: rest) (c :: rest)).1)
        (lexLines (lineNumber + 1) (blanks (4 * next) ++ c :: rest)
          (scanAll lineNumber (between next) (blanks (4 * next) ++ c :: rest) (c :: rest)).2 lines) := by
  obtain ⟨-, hskipped, -, hfeed, hreturn, hcomment⟩ := isOpening_spec hc
  have hopen : (between level).openString = none := rfl
  have hdrop : (blanks (4 * next) ++ c :: rest).dropWhile isSkipped = c :: rest :=
    dropWhile_blanks (4 * next) hskipped
  have htake : (blanks (4 * next) ++ c :: rest).takeWhile isSkipped = blanks (4 * next) :=
    takeWhile_blanks (4 * next) hskipped
  have hcolumn : column (blanks (4 * next) ++ c :: rest) = 4 * next := column_blanks (4 * next) hskipped
  have hplain : ¬ (c == '#' || c == '\r' || c == '\n') = true := by
    simp [hcomment, hreturn, hfeed]
  rw [lexLines, hopen]
  simp only [between, ne_eq, not_true_eq_false, decide_false, Bool.or_self, Bool.false_eq_true,
    if_false, hdrop, hplain, hcolumn, headD_columns, htake]
  by_cases hdeeper : level < next
  · obtain rfl : next = level + 1 := by omega
    rw [if_pos (by omega), turn, if_pos hdeeper]
    rfl
  · rw [if_neg (by omega), turn, if_neg hdeeper, closeBlocks_columns (by omega)]
    rfl

/-! ## Rows -/

/-- A text in triple quotes that goes on over one end of a line, in its two parts. -/
structure Broken (first second : List Char) : Prop where
  opened : ∃ quote, step (first ++ ['\n']) = .opened quote true (first ++ ['\n']) ∧
    closing quote true second = some (second, [])
  first_opening : ∃ c rest, first = c :: rest ∧ isOpening c = true
  second_opening : ∃ c rest, second = c :: rest ∧ isOpening c = true
  first_unbroken : Unbroken first
  second_unbroken : Unbroken second

/-- What is read from the lines that a statement or the opening of a block is printed on: the lines
before the last one, and the last one without its end. Only a text in triple quotes, which stands
first, takes two lines. -/
inductive RowReads (level : Nat) : List Token → List (List Char) → List Char → Prop
  | flat {ts : List Token} {c : Char} {cs : List Char} : isOpening c = true → balance ts = 0 →
      Spells ts (c :: cs) → RowReads level ts [] (blanks (4 * level) ++ c :: cs)
  | broken {ts : List Token} {first second cs : List Char} : Broken first second →
      balance ts = 0 → Spells ts cs →
      RowReads level (⟨.string, String.ofList (first ++ '\n' :: second)⟩ :: ts)
        [blanks (4 * level) ++ (first ++ ['\n'])] (second ++ cs)

theorem scan_opened {quote : Char} {tripled : Bool} {text : List Char}
    (hstep : step cs = .opened quote tripled text) (lineNumber width : Nat) (s : State) (fuel : Nat) :
    scan lineNumber width s (fuel + 1) cs =
      ([], { s with
        openString := some ⟨quote, tripled, text, lineNumber, width - text.length⟩ }) := by
  rw [scan, hstep]

theorem lexLines_closing {s : State} {o : OpenString} (hopen : s.openString = some o)
    {line text rest : List Char} (hclosed : closing o.quote o.tripled line = some (text, rest))
    (lineNumber : Nat) (last : List Char) (lines : List (List Char)) :
    lexLines lineNumber last s (line :: lines) =
      Lexed.prepend (token .string (o.text ++ text) ::
        (scanAll lineNumber { s with openString := none } line rest).1)
        (lexLines (lineNumber + 1) line
          (scanAll lineNumber { s with openString := none } line rest).2 lines) := by
  rw [lexLines, hopen]
  simp only [hclosed]

@[simp] theorem prepend_prepend (ts us : List Token) (l : Lexed) :
    Lexed.prepend ts (Lexed.prepend us l) = Lexed.prepend (ts ++ us) l := by
  simp [Lexed.prepend]

/-- The tokens of a row are read from its lines, and then the next line is read at its level. -/
theorem lexLines_row {level next : Nat} (hlevel : next ≤ level + 1) {before : List (List Char)}
    {line : List Char} (h : RowReads next ts before line) (ended : Bool) (lineNumber : Nat)
    (last : List Char) (lines : List (List Char)) :
    lexLines lineNumber last (between level) (before ++ (line ++ lineEnd ended) :: lines) =
      Lexed.prepend (turn level next ++ ts ++ endTokens ended)
        (lexLines (lineNumber + before.length + 1) (line ++ lineEnd ended) (between next) lines) := by
  cases h with
  | @flat _ c cs hc hbalance hspells =>
    rw [List.nil_append, List.append_assoc, List.cons_append, lexLines_start hlevel hc, scanAll]
    have hscan := scan_spells hspells lineNumber (blanks (4 * next) ++ c :: (cs ++ lineEnd ended)).length
      (between next) (by rw [hbalance]; rfl) 0 ended (Nat.le_refl _)
    change scan _ _ _ (c :: (cs ++ lineEnd ended)).length (c :: (cs ++ lineEnd ended)) = _ at hscan
    rw [hscan, List.append_assoc]
    rfl
  | @broken ts first second cs hbroken hbalance hspells =>
    obtain ⟨quote, hopened, hclosed⟩ := hbroken.opened
    obtain ⟨c, rest, rfl, hc⟩ := hbroken.first_opening
    rw [List.singleton_append, List.cons_append, lexLines_start hlevel hc, scanAll]
    rw [List.cons_append] at hopened
    have hclosing : closing quote true (second ++ (cs ++ lineEnd ended)) =
        some (second, cs ++ lineEnd ended) := closing_append hclosed _
    -- the first line ends inside the text, and the second one begins by closing it
    rw [List.length_cons, scan_opened hopened, List.append_assoc, lexLines_closing rfl hclosing, scanAll]
    have hscan := scan_spells hspells (lineNumber + 1) (second ++ (cs ++ lineEnd ended)).length
      (between next) (by rw [hbalance]; rfl) 0 ended (Nat.le_refl _)
    change scan _ _ _ (cs ++ lineEnd ended).length (cs ++ lineEnd ended) = _ at hscan
    change Lexed.prepend _ (Lexed.prepend (token .string _ :: (scan _ _ (between next) _ _).1)
      (lexLines _ _ (scan _ _ (between next) _ _).2 _)) = _
    rw [hscan, prepend_prepend]
    have htext : c :: (rest ++ ['\n']) ++ second = c :: rest ++ '\n' :: second := by simp
    simp [htext, token]
    rfl

/-! ## Whole texts -/

def closingTokens (level : Nat) : List Token :=
  List.replicate level ⟨.dedent, ""⟩ ++ [⟨.endMarker, ""⟩]

/-- What is read from the lines of a program behind a line of a level. The last line is a row without
an end; its statement ends with an empty text. -/
inductive Reads : Nat → List Token → List (List Char) → Prop
  | last {level next : Nat} {ts : List Token} {before : List (List Char)} {line : List Char} :
      next ≤ level + 1 → RowReads next ts before line →
      Reads level (turn level next ++ ts ++ ⟨.newline, ""⟩ :: closingTokens next) (before ++ [line])
  | blank {level : Nat} {ts : List Token} {lines : List (List Char)} : Reads level ts lines →
      Reads level (⟨.nl, "\n"⟩ :: ts) (['\n'] :: lines)
  | row {level next : Nat} {ts us : List Token} {before lines : List (List Char)}
      {line : List Char} : next ≤ level + 1 → RowReads next ts before line → Reads next us lines →
      Reads level (turn level next ++ ts ++ ⟨.newline, "\n"⟩ :: us)
        (before ++ (line ++ ['\n']) :: lines)

theorem unbroken_append {cs ds : List Char} (hcs : Unbroken cs) (hds : Unbroken ds) :
    Unbroken (cs ++ ds) := by
  intro c hc
  exact (List.mem_append.1 hc).elim (hcs c) (hds c)

theorem unbroken_blanks (n : Nat) : Unbroken (blanks n) := by
  intro c hc
  rw [List.eq_of_mem_replicate hc]
  decide

/-- The last line of a row has a character that is not blank and begins no comment. -/
theorem RowReads.line_spec {level : Nat} {before : List (List Char)} {line : List Char}
    (h : RowReads level ts before line) :
    Unbroken line ∧ ∃ n c rest, line = blanks n ++ c :: rest ∧ isOpening c = true := by
  cases h with
  | flat hc _ hspells =>
    exact ⟨unbroken_append (unbroken_blanks _) hspells.unbroken, 4 * level, _, _, rfl, hc⟩
  | @broken ts first second cs hbroken _ hspells =>
    obtain ⟨c, rest, hsecond, hc⟩ := hbroken.second_opening
    refine ⟨unbroken_append hbroken.second_unbroken hspells.unbroken, 0, c, rest ++ cs, ?_, hc⟩
    rw [hsecond]
    rfl

theorem RowReads.before_spec {level : Nat} {before : List (List Char)} {line : List Char}
    (h : RowReads level ts before line) :
    ∀ l ∈ before, ∃ cs, l = cs ++ ['\n'] ∧ Unbroken cs := by
  cases h with
  | flat _ _ _ => exact List.forall_mem_nil _
  | @broken ts first _ _ hbroken _ _ =>
    intro l hl
    rw [List.mem_singleton.1 hl]
    refine ⟨blanks (4 * level) ++ first, by simp, ?_⟩
    exact unbroken_append (unbroken_blanks _) hbroken.first_unbroken

/-- A last line without an end gets the end of its statement. -/
theorem closeText_row {level next : Nat} {before : List (List Char)} {line : List Char}
    (h : RowReads level ts before line) :
    closeText line (between next) = ⟨.newline, ""⟩ :: closingTokens next := by
  obtain ⟨hunbroken, n, c, rest, rfl, hc⟩ := h.line_spec
  obtain ⟨hblank, -, -, -, -, hcomment⟩ := isOpening_spec hc
  have hdrop : (blanks n ++ c :: rest).dropWhile Text.isBlank = c :: rest := by
    rw [List.dropWhile_append_of_pos, List.dropWhile_cons_of_neg (by simp [hblank])]
    intro a ha
    rw [List.eq_of_mem_replicate ha]
    decide
  have hne : blanks n ++ c :: rest ≠ [] := by simp
  obtain ⟨hreturn, hfeed⟩ := hunbroken _ (List.getLast_mem hne)
  rw [closeText, List.getLast?_eq_some_getLast hne]
  have hcolumns : (between next).columns.length - 1 = next := by
    rw [between, length_columns, Nat.add_sub_cancel]
  simp only [hdrop, List.head?_cons, bne_iff_ne.2 hreturn, bne_iff_ne.2 hfeed, hcolumns]
  rw [if_pos (by simpa using hcomment)]
  rfl

theorem lexLines_reads {level : Nat} {lines : List (List Char)} (h : Reads level ts lines)
    (lineNumber : Nat) (last : List Char) :
    lexLines lineNumber last (between level) lines = ⟨ts, none⟩ := by
  induction h generalizing lineNumber last with
  | @last level next ts before line hlevel hrow =>
    have hread := lexLines_row hlevel hrow false lineNumber last []
    have hend : lexLines (lineNumber + before.length + 1) line (between next) [] =
        ⟨closeText line (between next), none⟩ := rfl
    simp only [lineEnd, Bool.false_eq_true, if_false, List.append_nil] at hread
    rw [hread, hend, closeText_row hrow]
    simp [Lexed.prepend, endTokens]
  | @blank level ts lines _ ih =>
    have hread : lexLines lineNumber last (between level) (['\n'] :: lines) =
        Lexed.prepend [⟨.nl, "\n"⟩] (lexLines (lineNumber + 1) ['\n'] (between level) lines) := rfl
    rw [hread, ih]
    rfl
  | @row level next ts us before lines line hlevel hrow _ ih =>
    have hread := lexLines_row hlevel hrow true lineNumber last lines
    rw [ih] at hread
    refine hread.trans ?_
    simp [Lexed.prepend, endTokens]

/-! ## The lines of a text -/

theorem linesOf_append {cs : List Char} (h : '\n' ∉ cs) (rest : List Char) :
    linesOf (cs ++ '\n' :: rest) = (cs ++ ['\n']) :: linesOf rest := by
  induction cs with
  | nil => rfl
  | cons c cs ih =>
    obtain ⟨hc, hcs⟩ := not_or.1 fun hor => h (List.mem_cons.2 hor)
    rw [List.cons_append, linesOf, if_neg (by simpa using Ne.symm hc), ih hcs]
    rfl

theorem linesOf_last {cs : List Char} (hne : cs ≠ []) (h : '\n' ∉ cs) : linesOf cs = [cs] := by
  induction cs with
  | nil => exact absurd rfl hne
  | cons c cs ih =>
    obtain ⟨hc, hcs⟩ := not_or.1 fun hor => h (List.mem_cons.2 hor)
    rw [linesOf, if_neg (by simpa using Ne.symm hc)]
    cases cs with
    | nil => rfl
    | cons a cs => rw [ih (List.cons_ne_nil _ _) hcs]

theorem Unbroken.feed_notMem {cs : List Char} (h : Unbroken cs) : '\n' ∉ cs :=
  fun hmem => (h _ hmem).2 rfl

theorem linesOf_before {before : List (List Char)}
    (h : ∀ l ∈ before, ∃ cs, l = cs ++ ['\n'] ∧ Unbroken cs) (rest : List Char) :
    linesOf (before.flatten ++ rest) = before ++ linesOf rest := by
  induction before with
  | nil => rfl
  | cons l before ih =>
    obtain ⟨cs, rfl, hcs⟩ := h l List.mem_cons_self
    have hrest := ih fun l hl => h l (List.mem_cons_of_mem _ hl)
    rw [List.flatten_cons, List.append_assoc, List.append_assoc, List.singleton_append,
      linesOf_append hcs.feed_notMem, hrest]
    rfl

theorem linesOf_reads {level : Nat} {lines : List (List Char)} (h : Reads level ts lines) :
    linesOf lines.flatten = lines := by
  induction h with
  | @last level next ts before line _ hrow =>
    obtain ⟨hunbroken, n, c, rest, hline, -⟩ := hrow.line_spec
    have hne : line ≠ [] := by simp [hline]
    rw [List.flatten_append, List.flatten_singleton, linesOf_before hrow.before_spec,
      linesOf_last hne hunbroken.feed_notMem]
  | @blank level ts lines _ ih =>
    rw [List.flatten_cons, List.singleton_append, linesOf, if_pos (beq_self_eq_true _), ih]
  | @row level next ts us before lines line _ hrow _ ih =>
    have hunbroken := hrow.line_spec.1
    rw [List.flatten_append, List.flatten_cons, linesOf_before hrow.before_spec, List.append_assoc,
      List.singleton_append, linesOf_append hunbroken.feed_notMem, ih]

end Lex

/-- A text with the lines of a program is read to its end. -/
theorem Lexed.ofText_reads {text : String} {ts : List Token} {lines : List (List Char)}
    (htext : text.toList = lines.flatten) (h : Lex.Reads 0 ts lines) :
    Lexed.ofText text = ⟨ts, none⟩ := by
  rw [Lexed.ofText, htext, Lex.linesOf_reads h]
  exact Lex.lexLines_reads h 1 []

end FormatFuzz.Program
