import FormatFuzz.Text.Blank
import FormatFuzz.Proofs.Program.Numeral
import FormatFuzz.Proofs.Program.Quote

namespace FormatFuzz.Program

open Json (DigitFree)

namespace Lex

variable {cs rest t : List Char} {c : Char}

/-! ## Characters of a text

A quantifier over the characters of a text is decided along the text and not over all characters. -/

section

variable {p : Char → Prop} [DecidablePred p]

scoped instance (priority := 2000) decidableForallMem (l : List Char) : Decidable (∀ a ∈ l, p a) :=
  l.decidableBAll p

scoped instance (priority := 2000) decidableExistsMem (l : List Char) : Decidable (∃ a ∈ l, p a) :=
  l.decidableBEx p

scoped instance (priority := 2000) decidableForallHead (o : Option Char) : Decidable (∀ a ∈ o, p a) :=
  o.decidableForallMem

end

/-! ## The step on a line -/

def blanks (n : Nat) : List Char := List.replicate n ' '

theorem isSkipped_of_mem_blanks {n : Nat} : ∀ a ∈ blanks n, isSkipped a = true := by
  intro a ha
  rw [List.eq_of_mem_replicate ha]
  rfl

theorem dropWhile_blanks (n : Nat) (hc : isSkipped c = false) :
    (blanks n ++ c :: rest).dropWhile isSkipped = c :: rest := by
  rw [List.dropWhile_append_of_pos isSkipped_of_mem_blanks,
    List.dropWhile_cons_of_neg (by simp [hc])]

theorem takeWhile_blanks (n : Nat) (hc : isSkipped c = false) :
    (blanks n ++ c :: rest).takeWhile isSkipped = blanks n := by
  rw [List.takeWhile_append_of_pos isSkipped_of_mem_blanks,
    List.takeWhile_cons_of_neg (by simp [hc]), List.append_nil]

/-- Whether a character begins a token: it is not blank and begins neither a comment nor the end of a
line that is joined to the next one. -/
def isOpening (c : Char) : Bool := !Text.isBlank c && c != '\\' && c != '#'

theorem isOpening_spec (h : isOpening c = true) : Text.isBlank c = false ∧ isSkipped c = false ∧
    c ≠ '\\' ∧ c ≠ '\n' ∧ c ≠ '\r' ∧ c ≠ '#' := by
  simp only [isOpening, Bool.and_eq_true, Bool.not_eq_true', bne_iff_ne, ne_eq] at h
  obtain ⟨⟨hblank, hbackslash⟩, hcomment⟩ := h
  have hne : ∀ a, Text.isBlank a = true → c ≠ a := by
    rintro a ha rfl
    rw [ha] at hblank
    cases hblank
  have hskipped : isSkipped c = false := by
    simp [isSkipped, hne ' ' (by decide), hne '\t' (by decide), hne '\x0c' (by decide)]
  exact ⟨hblank, hskipped, hbackslash, hne _ (by decide), hne _ (by decide), hcomment⟩

theorem step_opening (n : Nat) (hc : isOpening c = true) :
    step (blanks n ++ c :: rest) =
      (((number (c :: rest)).map fun s => Step.token .number s.1 s.2).or
        (((operator? (c :: rest)).map fun s => Step.token .operator s.1 s.2).or
          ((string? (c :: rest)).or (word? (c :: rest))))).getD
        (.token .stray ((blanks n ++ c :: rest).take 1) ((blanks n ++ c :: rest).drop 1)) := by
  obtain ⟨-, hskipped, hbackslash, hfeed, hreturn, hcomment⟩ := isOpening_spec hc
  unfold step
  rw [dropWhile_blanks n hskipped]
  split
  · next heq => cases heq
  · next heq => exact absurd (List.cons.inj heq).1 hbackslash
  · next heq => exact absurd (List.cons.inj heq).1 hbackslash
  · next heq => exact absurd (List.cons.inj heq).1 hfeed
  · next heq => exact absurd (List.cons.inj heq).1 hreturn
  · next heq =>
    obtain ⟨rfl, rfl⟩ := List.cons.inj heq
    rw [if_neg (by simpa using hcomment)]

theorem step_number (n : Nat) {r : List Char} (hc : isOpening c = true)
    (h : number (c :: rest) = some (t, r)) : step (blanks n ++ c :: rest) = .token .number t r := by
  rw [step_opening n hc, h]
  rfl

theorem step_operator (n : Nat) {r : List Char} (hc : isOpening c = true)
    (hnumber : number (c :: rest) = none) (h : operator? (c :: rest) = some (t, r)) :
    step (blanks n ++ c :: rest) = .token .operator t r := by
  rw [step_opening n hc, hnumber, h]
  rfl

theorem step_string (n : Nat) {s : Step} (hc : isOpening c = true)
    (hnumber : number (c :: rest) = none) (hoperator : operator? (c :: rest) = none)
    (h : string? (c :: rest) = some s) : step (blanks n ++ c :: rest) = s := by
  rw [step_opening n hc, hnumber, hoperator, h]
  rfl

theorem step_word (n : Nat) {s : Step} (hc : isOpening c = true)
    (hnumber : number (c :: rest) = none) (hoperator : operator? (c :: rest) = none)
    (hstring : string? (c :: rest) = none) (h : word? (c :: rest) = some s) :
    step (blanks n ++ c :: rest) = s := by
  rw [step_opening n hc, hnumber, hoperator, hstring, h]
  rfl

/-! ## Operators -/

/-- Longer operators are looked for first. -/
theorem pairwise_operators : operators.Pairwise fun p q => q.toList.length ≤ p.toList.length := by
  decide

theorem operator?_append {op : String} (hop : op ∈ operators)
    (hrest : ∀ c ∈ rest.head?, ∀ q ∈ operators, ¬ op.toList ++ [c] <+: q.toList) :
    operator? (op.toList ++ rest) = some (op.toList, rest) := by
  obtain ⟨before, behind, hsplit, hfirst⟩ := List.eq_append_cons_of_mem hop
  have hlonger : ∀ q ∈ before, op.toList.length ≤ q.toList.length := by
    have hpairs := pairwise_operators
    rw [hsplit, List.pairwise_append] at hpairs
    exact fun q hq => hpairs.2.2 q hq op List.mem_cons_self
  rw [operator?, List.findSome?_eq_some_iff]
  refine ⟨before, op, behind, hsplit, ?_, ?_⟩
  · have hlength : op.length = op.toList.length := String.length_toList.symm
    rw [if_pos (by simp [List.isPrefixOf_iff_prefix]), hlength, List.drop_left]
  · -- an operator found before would be longer and go on with the next character
    intro q hq
    have hprefix : ¬ q.toList <+: op.toList ++ rest := by
      intro hq'
      obtain ⟨more, hmore⟩ := List.prefix_of_prefix_length_le (List.prefix_append _ _) hq' (hlonger q hq)
      cases more with
      | nil =>
        rw [List.append_nil] at hmore
        exact hfirst (String.toList_inj.1 hmore ▸ hq)
      | cons c more =>
        rw [← hmore, List.prefix_append_right_inj] at hq'
        obtain ⟨end', hend⟩ := hq'
        refine hrest c (by rw [← hend]; rfl) q (by rw [hsplit]; exact List.mem_append_left _ hq) ?_
        rw [← hmore]
        exact ⟨more, by simp⟩
    rw [if_neg (by rwa [List.isPrefixOf_iff_prefix])]

theorem operator_ne_nil : ∀ q ∈ operators, q.toList ≠ [] := by
  decide

theorem operator?_eq_none (h : ∀ q ∈ operators, q.toList.head? ≠ some c) :
    operator? (c :: rest) = none := by
  rw [operator?, List.findSome?_eq_none_iff]
  intro q hq
  have hprefix : ¬ q.toList <+: c :: rest := by
    intro hq'
    cases hlist : q.toList with
    | nil => exact operator_ne_nil q hq hlist
    | cons a as =>
      rw [hlist, List.cons_prefix_cons] at hq'
      exact h q hq (by rw [hlist, hq'.1]; rfl)
  rw [if_neg (by rwa [List.isPrefixOf_iff_prefix])]

/-- What an operator begins with is neither a digit nor a blank. Two operators begin with a point. -/
theorem operatorHead_spec : ∀ q ∈ operators, ∀ c ∈ q.toList.head?,
    c.isDigit = false ∧ isOpening c = true ∧ (c = '.' → q = "." ∨ q = "...") := by
  decide

/-! ## Characters of ASCII -/

/-- A statement about the characters of ASCII is checked for each of them. -/
theorem of_ascii {P : Char → Bool} (h : ∀ n < 128, P (Char.ofNat n) = true) (hc : c.toNat < 128) :
    P c = true := by
  rw [← Char.ofNat_toNat c]
  exact h _ hc

def Unbroken (cs : List Char) : Prop := ∀ c ∈ cs, c ≠ '\r' ∧ c ≠ '\n'

instance (cs : List Char) : Decidable (Unbroken cs) :=
  inferInstanceAs (Decidable (∀ c ∈ cs, c ≠ '\r' ∧ c ≠ '\n'))

theorem unbroken_numberText (ht : NumberText t) : Unbroken t := by
  have hends : ∀ e ∈ ['\r', '\n'], ¬ (Json.isNumberChar e = true ∨ e = 'j') := by decide
  intro c hc
  constructor
  · rintro rfl
    exact hends _ (by decide) (mem_numberText ht _ hc)
  · rintro rfl
    exact hends _ (by decide) (mem_numberText ht _ hc)

theorem isOpening_of_isDigit (h : c.isDigit = true) : isOpening c = true := by
  have hcheck := of_ascii (P := fun c => !c.isDigit || isOpening c) (by decide)
    (toNat_lt_of_isDigit h)
  simpa [h] using hcheck

/-! ## Words -/

def isNameChar (c : Char) : Bool := c.isAlphanum || c == '_'

def isNameStart (c : Char) : Bool := c.isAlpha || c == '_'

theorem toNat_lt_of_isNameChar (h : isNameChar c = true) : c.toNat < 128 := by
  have hupper (h : c.isUpper = true) : c.toNat < 128 := by
    have hle : c.val ≤ 'Z'.val := (of_decide_eq_true h).2
    exact Nat.lt_of_le_of_lt (UInt32.le_iff_toNat_le.1 hle) (by decide)
  have hlower (h : c.isLower = true) : c.toNat < 128 := by
    have hle : c.val ≤ 'z'.val := of_decide_eq_true (Bool.and_eq_true_iff.1 h).2
    exact Nat.lt_of_le_of_lt (UInt32.le_iff_toNat_le.1 hle) (by decide)
  rcases Bool.or_eq_true_iff.1 h with h | h
  · rcases Bool.or_eq_true_iff.1 h with h | h
    · exact (Bool.or_eq_true_iff.1 h).elim hupper hlower
    · exact toNat_lt_of_isDigit h
  · rw [beq_iff_eq.1 h]
    decide

theorem isNameChar_of_isNameStart (h : isNameStart c = true) : isNameChar c = true := by
  simp only [isNameStart, isNameChar, Char.isAlphanum, Bool.or_eq_true] at h ⊢
  exact h.elim (fun h => .inl (.inl h)) .inr

theorem isNameChar_spec (h : isNameChar c = true) :
    Text.isWordChar c = true ∧ isQuote c = false ∧ c ≠ '\r' ∧ c ≠ '\n' := by
  have hcheck := of_ascii (P := fun c => !isNameChar c ||
    (Text.isWordChar c && !isQuote c && c != '\r' && c != '\n')) (by decide)
    (toNat_lt_of_isNameChar h)
  simpa [h, and_assoc] using hcheck

theorem isNameStart_spec (h : isNameStart c = true) :
    Text.isIdentifierStart c = true ∧ c.isDigit = false ∧ c ≠ '.' ∧ isOpening c = true ∧
      ∀ q ∈ operators, q.toList.head? ≠ some c := by
  have hcheck := of_ascii (P := fun c => !isNameStart c ||
    (Text.isIdentifierStart c && !c.isDigit && c != '.' && isOpening c &&
      operators.all fun q => q.toList.head? != some c)) (by decide +kernel)
    (toNat_lt_of_isNameChar (isNameChar_of_isNameStart h))
  simpa [h, and_assoc] using hcheck

theorem stringStart?_eq_some {mark : List Char} {q : Char}
    (h : stringStart? cs = some (mark, q, rest)) :
    cs = mark ++ q :: rest ∧ isStringMark mark = true ∧ isQuote q = true := by
  obtain ⟨n, -, hn⟩ := List.exists_of_findSome?_eq_some h
  split at hn
  · next hdrop =>
    split at hn
    · next hcheck =>
      rw [Bool.and_eq_true] at hcheck
      obtain ⟨hmark, hn⟩ := Prod.mk.inj (Option.some.inj hn)
      obtain ⟨rfl, rfl⟩ := Prod.mk.inj hn
      rw [← hmark]
      exact ⟨by rw [← hdrop, List.take_append_drop], hcheck.2, hcheck.1⟩
    · cases hn
  · cases hn

def isMarkLetter (c : Char) : Bool := ['b', 'r', 'u', 'f'].contains c.toLower

theorem toNat_lt_of_isMarkLetter (h : isMarkLetter c = true) : c.toNat < 128 := by
  by_contra hge
  have hsame : c.toLower = c := by
    refine dif_neg ?_
    rintro ⟨-, hle⟩
    exact hge (Nat.lt_of_le_of_lt (UInt32.le_iff_toNat_le.1 hle) (by decide))
  rw [isMarkLetter, hsame, List.contains_iff_mem] at h
  exact hge ((by decide : ∀ a ∈ ['b', 'r', 'u', 'f'], a.toNat < 128) c h)

theorem isMarkLetter_of_isStringMark {mark : List Char} (h : isStringMark mark = true) :
    ∀ c ∈ mark, isMarkLetter c = true := by
  intro c hc
  have hletters : ∀ ls ∈ [[], ['b'], ['r'], ['u'], ['f'], ['b', 'r'], ['r', 'b'], ['f', 'r'],
      ['r', 'f']], ∀ a ∈ ls, a ∈ ['b', 'r', 'u', 'f'] := by decide
  rw [isMarkLetter, List.contains_iff_mem]
  exact hletters _ (List.contains_iff_mem.1 h) _ (List.mem_map_of_mem hc)

theorem isWordChar_of_isMarkLetter (h : isMarkLetter c = true) : Text.isWordChar c = true := by
  have hcheck := of_ascii (P := fun c => !isMarkLetter c || Text.isWordChar c) (by decide)
    (toNat_lt_of_isMarkLetter h)
  simpa [h] using hcheck

/-- A string begins with a quote or with a mark. -/
theorem stringHead_spec (h : isQuote c = true ∨ isMarkLetter c = true) :
    c.isDigit = false ∧ c ≠ '.' ∧ isOpening c = true ∧
      ∀ q ∈ operators, q.toList.head? ≠ some c := by
  have hlt : c.toNat < 128 := by
    rcases h with h | h
    · simp only [isQuote, Bool.or_eq_true, beq_iff_eq] at h
      rcases h with rfl | rfl
      · decide
      · decide
    · exact toNat_lt_of_isMarkLetter h
  have hcheck := of_ascii (P := fun c => !(isQuote c || isMarkLetter c) ||
    (!c.isDigit && c != '.' && isOpening c && operators.all fun q => q.toList.head? != some c))
    (by decide) hlt
  rw [← Bool.or_eq_true] at h
  simpa [h, and_assoc] using hcheck

theorem exists_cons_of_string? {s : Step} (h : string? cs = some s) :
    ∃ c rest, cs = c :: rest ∧ (isQuote c = true ∨ isMarkLetter c = true) := by
  cases hstart : stringStart? cs with
  | none => simp [string?, hstart] at h
  | some start =>
    obtain ⟨mark, q, body⟩ := start
    obtain ⟨hsplit, hmark, hq⟩ := stringStart?_eq_some hstart
    cases mark with
    | nil => exact ⟨q, body, hsplit, .inl hq⟩
    | cons c mark =>
      have hc := isMarkLetter_of_isStringMark hmark c List.mem_cons_self
      exact ⟨c, mark ++ q :: body, hsplit, .inr hc⟩

theorem string?_eq_none (ht : ∀ c ∈ t, isQuote c = false) (hword : WordFree rest)
    (hquote : QuoteFree rest) : string? (t ++ rest) = none := by
  cases hstart : stringStart? (t ++ rest) with
  | none =>
    rw [string?, hstart]
    rfl
  | some start =>
    obtain ⟨mark, q, body⟩ := start
    obtain ⟨hsplit, hmark, hq⟩ := stringStart?_eq_some hstart
    exfalso
    rcases List.append_eq_append_iff.1 hsplit with ⟨more, hmore, hrest⟩ | ⟨more, hmore, hrest⟩
    · -- the mark goes on behind the word, or the quote follows it
      cases more with
      | nil => simp [hquote q (by rw [hrest]; rfl)] at hq
      | cons c more =>
        have hc := isWordChar_of_isMarkLetter
          (isMarkLetter_of_isStringMark hmark c (by rw [hmore]; simp))
        simp [hword c (by rw [hrest]; rfl)] at hc
    · cases more with
      | nil => simp [hquote q (by rw [← List.nil_append rest, ← hrest]; rfl)] at hq
      | cons c more =>
        have hc := (List.cons.inj hrest).1
        simp [ht c (by rw [hmore]; simp), hc] at hq

theorem word?_append (hc : isNameStart c = true) (ht : ∀ a ∈ t, isNameChar a = true)
    (hrest : WordFree rest) : word? (c :: t ++ rest) = some (.token .name (c :: t) rest) := by
  have hword : ∀ a ∈ c :: t, Text.isWordChar a = true := by
    intro a ha
    rcases List.mem_cons.1 ha with rfl | ha
    · exact (isNameChar_spec (isNameChar_of_isNameStart hc)).1
    · exact (isNameChar_spec (ht a ha)).1
  have htake : (c :: t ++ rest).takeWhile Text.isWordChar = c :: t := by
    rw [List.takeWhile_append_of_pos hword]
    cases rest with
    | nil => simp
    | cons a rest => rw [List.takeWhile_cons_of_neg (by simp [hrest a rfl]), List.append_nil]
  have hdrop : (c :: t ++ rest).dropWhile Text.isWordChar = rest := by
    rw [List.dropWhile_append_of_pos hword]
    cases rest with
    | nil => rfl
    | cons a rest => rw [List.dropWhile_cons_of_neg (by simp [hrest a rfl])]
  rw [word?, htake, hdrop]
  simp [(isNameStart_spec hc).1]

end Lex

/-! ## Tokens -/

open FormatFuzz.Program.Lex

namespace Token

def isName : List Char → Bool
  | [] => false
  | c :: cs => isNameStart c && cs.all isNameChar

theorem isName_cons {c : Char} {cs : List Char} (h : isName (c :: cs) = true) :
    isNameStart c = true ∧ ∀ a ∈ cs, isNameChar a = true := by
  rw [isName, Bool.and_eq_true, List.all_eq_true] at h
  exact h

def isString (cs : List Char) : Bool :=
  match string? cs with
  | some (.token .string t []) => t == cs
  | _ => false

theorem string?_of_isString {cs : List Char} (h : isString cs = true) :
    string? cs = some (.token .string cs []) := by
  rw [isString] at h
  split at h
  · next t heq => rw [heq, beq_iff_eq.1 h]
  · cases h

def Readable (t : Token) : Prop :=
  match t.kind with
  | .name => isName t.text.toList = true
  | .number => NumberText t.text.toList
  | .string => isString t.text.toList = true ∧ Unbroken t.text.toList
  | .operator => t.text ∈ operators
  | _ => False

/-- Whether a token ends before a character that follows it. -/
def ClearOf (t : Token) (c : Char) : Prop :=
  match t.kind with
  | .name => Text.isWordChar c = false ∧ isQuote c = false
  | .number => Text.isWordChar c = false ∧ (c = '.' → ∃ a ∈ t.text.toList, a.isDigit = false)
  | .string => isQuote c = false
  | .operator => (∀ q ∈ operators, ¬ t.text.toList ++ [c] <+: q.toList) ∧
      (t.text = "." → c.isDigit = false)
  | _ => True

variable {t : Token}

theorem step_name {cs rest : List Char} (hname : isName cs = true) (hword : WordFree rest)
    (hquote : QuoteFree rest) (n : Nat) :
    step (blanks n ++ (cs ++ rest)) = .token .name cs rest := by
  cases cs with
  | nil => cases hname
  | cons c cs =>
    obtain ⟨hstart, hchars⟩ := isName_cons hname
    obtain ⟨-, hdigit, hpoint, hopening, hoperator⟩ := isNameStart_spec hstart
    have hquotes : ∀ a ∈ c :: cs, isQuote a = false := by
      intro a ha
      rcases List.mem_cons.1 ha with rfl | ha
      · exact (isNameChar_spec (isNameChar_of_isNameStart hstart)).2.1
      · exact (isNameChar_spec (hchars a ha)).2.1
    exact step_word n hopening (number_eq_none hdigit fun h => absurd h hpoint)
      (operator?_eq_none hoperator) (string?_eq_none hquotes hword hquote)
      (word?_append hstart hchars hword)

theorem step_numberText {cs rest : List Char} (hnumber : NumberText cs) (hword : WordFree rest)
    (hpoint : '.' ∈ rest.head? → ∃ c ∈ cs, c.isDigit = false) (n : Nat) :
    step (blanks n ++ (cs ++ rest)) = .token .number cs rest := by
  have hread := number_append hnumber hword hpoint
  obtain ⟨c, cs, rfl, hdigit⟩ := exists_cons_of_numberText hnumber
  exact step_number n (isOpening_of_isDigit hdigit) hread

theorem step_stringText {cs rest : List Char} (hstring : isString cs = true)
    (hquote : QuoteFree rest) (n : Nat) :
    step (blanks n ++ (cs ++ rest)) = .token .string cs rest := by
  have hread := string?_append (string?_of_isString hstring) hquote
  obtain ⟨c, cs, rfl, hc⟩ := exists_cons_of_string? (string?_of_isString hstring)
  obtain ⟨hdigit, hpoint, hopening, hoperator⟩ := stringHead_spec hc
  exact step_string n hopening (number_eq_none hdigit fun h => absurd h hpoint)
    (operator?_eq_none hoperator) hread

theorem step_operatorText {o : String} {rest : List Char} (ho : o ∈ operators)
    (hlonger : ∀ c ∈ rest.head?, ∀ q ∈ operators, ¬ o.toList ++ [c] <+: q.toList)
    (hpoint : o = "." → DigitFree rest) (n : Nat) :
    step (blanks n ++ (o.toList ++ rest)) = .token .operator o.toList rest := by
  have hread := operator?_append ho hlonger
  obtain ⟨c, cs, hcs⟩ := List.exists_cons_of_ne_nil (operator_ne_nil o ho)
  obtain ⟨hdigit, hopening, hhead⟩ := operatorHead_spec o ho c (by rw [hcs]; rfl)
  -- numbers are looked for first, and two operators begin with a point
  have hnumber : number (c :: (cs ++ rest)) = none := by
    refine number_eq_none hdigit fun hc => ?_
    rcases hhead hc with rfl | rfl
    · obtain rfl : cs = [] := (List.cons.inj hcs).2.symm
      exact hpoint rfl
    · obtain rfl : cs = ['.', '.'] := (List.cons.inj hcs).2.symm
      rintro a ⟨⟩
      rfl
  rw [hcs] at hread ⊢
  exact step_operator n hopening hnumber hread

/-- A token is read in front of any text that begins with a character it is clear of. -/
theorem step_readable (ht : t.Readable) {rest : List Char} (hrest : ∀ c ∈ rest.head?, t.ClearOf c)
    (n : Nat) : step (blanks n ++ (t.text.toList ++ rest)) = .token t.kind t.text.toList rest := by
  obtain ⟨kind, text⟩ := t
  cases kind with
  | name => exact step_name ht (fun c hc => (hrest c hc).1) (fun c hc => (hrest c hc).2) n
  | number =>
    exact step_numberText ht (fun c hc => (hrest c hc).1) (fun hc => (hrest _ hc).2 rfl) n
  | string => exact step_stringText ht.1 hrest n
  | operator =>
    exact step_operatorText ht (fun c hc => (hrest c hc).1) (fun ho c hc => (hrest c hc).2 ho) n
  | _ => exact ht.elim

theorem exists_cons_of_readable (ht : t.Readable) :
    ∃ c cs, t.text.toList = c :: cs ∧ isOpening c = true := by
  obtain ⟨kind, text⟩ := t
  cases kind with
  | name =>
    change isName text.toList = true at ht
    change ∃ c cs, text.toList = c :: cs ∧ isOpening c = true
    cases h : text.toList with
    | nil =>
      rw [h] at ht
      cases ht
    | cons c cs =>
      rw [h] at ht
      exact ⟨c, cs, rfl, (isNameStart_spec (isName_cons ht).1).2.2.2.1⟩
  | number =>
    obtain ⟨c, cs, hcs, hdigit⟩ := exists_cons_of_numberText ht
    exact ⟨c, cs, hcs, isOpening_of_isDigit hdigit⟩
  | string =>
    obtain ⟨c, cs, hcs, hc⟩ := exists_cons_of_string? (string?_of_isString ht.1)
    exact ⟨c, cs, hcs, (stringHead_spec hc).2.2.1⟩
  | operator =>
    obtain ⟨c, cs, hcs⟩ := List.exists_cons_of_ne_nil (operator_ne_nil text ht)
    exact ⟨c, cs, hcs, (operatorHead_spec text ht c (by rw [hcs]; rfl)).2.1⟩
  | _ => exact ht.elim

def layoutChars : List Char := [' ', '#', '\n']

/-- No operator holds what lies between tokens. -/
theorem operatorChars_spec : ∀ q ∈ operators, ∀ c ∈ q.toList, c ∉ layoutChars ∧ c ≠ '\r' := by
  decide

/-- Every token ends before a blank, a comment and the end of its line. -/
theorem clearOf_layout (ht : t.Readable) {c : Char} (hc : c ∈ layoutChars) : t.ClearOf c := by
  have hspec : Text.isWordChar c = false ∧ isQuote c = false ∧ c ≠ '.' ∧ c.isDigit = false :=
    (by decide : ∀ a ∈ layoutChars, Text.isWordChar a = false ∧ isQuote a = false ∧
      a ≠ '.' ∧ a.isDigit = false) c hc
  obtain ⟨kind, text⟩ := t
  cases kind with
  | name => exact ⟨hspec.1, hspec.2.1⟩
  | number => exact ⟨hspec.1, fun h => absurd h hspec.2.2.1⟩
  | string => exact hspec.2.1
  | operator =>
    refine ⟨fun q hq hlonger => ?_, fun _ => hspec.2.2.2⟩
    exact (operatorChars_spec q hq c (hlonger.mem List.mem_concat_self)).1 hc
  | _ => exact ht.elim

theorem unbroken_text (ht : t.Readable) : Unbroken t.text.toList := by
  obtain ⟨kind, text⟩ := t
  cases kind with
  | name =>
    change isName text.toList = true at ht
    change Unbroken text.toList
    revert ht
    generalize text.toList = cs
    intro ht a ha
    cases cs with
    | nil => cases ht
    | cons c cs =>
      have ht := isName_cons ht
      rcases List.mem_cons.1 ha with rfl | ha
      · exact (isNameChar_spec (isNameChar_of_isNameStart ht.1)).2.2
      · exact (isNameChar_spec (ht.2 _ ha)).2.2
  | number => exact unbroken_numberText ht
  | string => exact ht.2
  | operator =>
    intro c hc
    obtain ⟨hlayout, hreturn⟩ := operatorChars_spec text ht c hc
    refine ⟨hreturn, ?_⟩
    rintro rfl
    exact hlayout (by decide)
  | _ => exact ht.elim

end Token

end FormatFuzz.Program
