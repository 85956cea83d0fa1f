import FormatFuzz.Program.Respace
import FormatFuzz.Proofs.Program.Lines

/-!
# Printed rows

A printed row is read as its lexemes if each of them is clear of what stands directly behind it. Names
and numbers are written again with a blank behind them, but any other gap can be lost, so an operator
or a string must be clear of the lexeme behind its gap as well. A row that fits in this sense is read
as the same tokens in its printed form and in every other spacing.
-/

namespace FormatFuzz.Program

open FormatFuzz.Program.Lex

def LexemeKind.token : LexemeKind → TokenKind
  | name => .name
  | number => .number
  | string => .string
  | operator => .operator

namespace Piece

def tokens : List Piece → List Token
  | [] => []
  | lexeme kind text :: ps => ⟨kind.token, text⟩ :: tokens ps
  | gap :: ps => tokens ps

@[simp] theorem tokens_append (ps qs : List Piece) : tokens (ps ++ qs) = tokens ps ++ tokens qs := by
  induction ps with
  | nil => rfl
  | cons p ps ih =>
    cases p with
    | lexeme kind text => simp [tokens, ih]
    | gap => simp [tokens, ih]

theorem forall_mem_tokens {P : Token → Prop} {ps : List Piece}
    (h : ∀ (kind : LexemeKind) (text : String), P ⟨kind.token, text⟩) : ∀ t ∈ tokens ps, P t := by
  induction ps with
  | nil => exact List.forall_mem_nil _
  | cons p ps ih =>
    cases p with
    | gap => exact ih
    | lexeme kind text => exact List.forall_mem_cons.2 ⟨h kind text, ih⟩

/-- Whether the next lexeme must still be kept apart from a token behind a gap. -/
def reaches (t : Token) : Bool := t.kind = .operator || t.kind = .string

def ending : Option Token → List Piece → Option Token
  | t, [] => t
  | _, lexeme kind text :: ps => ending (some ⟨kind.token, text⟩) ps
  | t, gap :: ps => ending (t.filter reaches) ps

/-- Behind a token, if there is one, a row of readable tokens, each clear of what stands behind it,
with gaps only behind tokens. -/
def Fits : Option Token → List Piece → Prop
  | _, [] => True
  | t, lexeme kind text :: ps =>
    Token.Readable ⟨kind.token, text⟩ ∧ (∀ u ∈ t, ∀ c ∈ text.toList.head?, u.ClearOf c) ∧
      Fits (some ⟨kind.token, text⟩) ps
  | t, gap :: ps => t.isSome ∧ Fits (t.filter reaches) ps

theorem ending_append (t : Option Token) (ps qs : List Piece) :
    ending t (ps ++ qs) = ending (ending t ps) qs := by
  induction ps generalizing t with
  | nil => rfl
  | cons p ps ih =>
    cases p with
    | lexeme kind text => exact ih _
    | gap => exact ih _

theorem fits_append (t : Option Token) (ps qs : List Piece) :
    Fits t (ps ++ qs) ↔ Fits t ps ∧ Fits (ending t ps) qs := by
  induction ps generalizing t with
  | nil => simp [Fits, ending]
  | cons p ps ih =>
    cases p with
    | lexeme kind text => simp [Fits, ending, ih, and_assoc]
    | gap => simp [Fits, ending, ih, and_assoc]

def chars (ps : List Piece) : List Char := ps.flatMap (·.text.toList)

theorem toList_textOf (ps : List Piece) : (textOf ps).toList = chars ps := by
  rw [textOf, String.toList_join, List.flatMap_map]
  rfl

variable {ps : List Piece} {t : Token}

/-- A token is clear of the printed form of what fits behind it. -/
theorem clearOf_chars (ht : t.Readable) (h : Fits (some t) ps) :
    ∀ c ∈ (chars ps).head?, t.ClearOf c := by
  intro c hc
  cases ps with
  | nil => cases hc
  | cons p ps =>
    cases p with
    | gap =>
      cases hc
      exact Token.clearOf_layout ht (by decide)
    | lexeme kind text =>
      obtain ⟨hreadable, hclear, -⟩ := h
      obtain ⟨a, rest, htext, -⟩ := Token.exists_cons_of_readable hreadable
      change text.toList = a :: rest at htext
      have hhead : (chars (lexeme kind text :: ps)).head? = some a := by
        simp [chars, Piece.text, htext]
      rw [hhead] at hc
      exact hclear t rfl c (by rw [htext]; exact hc)

theorem spells_chars {t : Option Token} (h : Fits t ps) : Spells (tokens ps) (chars ps) := by
  induction ps generalizing t with
  | nil => exact .done
  | cons p ps ih =>
    cases p with
    | gap => exact .blank (ih h.2)
    | lexeme kind text =>
      obtain ⟨hreadable, -, hfits⟩ := h
      exact .token hreadable (clearOf_chars hreadable hfits) (ih hfits)

/-- A token with blanks behind it, if it is a name, a number or an operator. -/
inductive Padded : Token → Token → Prop
  | same (t : Token) : Padded t t
  | more {t : Token} (n : Nat) : t.kind = .name ∨ t.kind = .number ∨ t.kind = .operator →
      Padded t { t with text := t.text ++ String.ofList (blanks n) }

def written : (afterString : Bool) → List Token → List Char
  | _, [] => []
  | afterString, t :: ts =>
    (t.written afterString).toList ++ written (t.kind == TokenKind.string) ts

theorem spells_blanks {ts : List Token} {cs : List Char} (h : Spells ts cs) (n : Nat) :
    Spells ts (blanks n ++ cs) := by
  induction n with
  | zero => exact h
  | succ n ih => exact .blank ih

/-- A padded token is written as the token with blanks around it: behind it if what follows need not
be kept apart otherwise, in front of it only between strings. -/
theorem Padded.toList_written {u : Token} (h : Padded t u) (ht : t.Readable) (afterString : Bool) :
    ∃ m n, (u.written afterString).toList = blanks m ++ (t.text.toList ++ blanks n) ∧
      (reaches t = false → 0 < n) ∧ (afterString = false → m = 0) := by
  obtain ⟨kind, text⟩ := t
  cases h with
  | same =>
    cases kind with
    | name => exact ⟨0, 1, by simp [Token.written, blanks], fun _ => Nat.one_pos, fun _ => rfl⟩
    | number => exact ⟨0, 1, by simp [Token.written, blanks], fun _ => Nat.one_pos, fun _ => rfl⟩
    | string =>
      cases afterString with
      | false => exact ⟨0, 0, by simp [Token.written, blanks], by simp [reaches], fun _ => rfl⟩
      | true => exact ⟨1, 0, by simp [Token.written, blanks], by simp [reaches], by simp⟩
    | operator => exact ⟨0, 0, by simp [Token.written, blanks], by simp [reaches], fun _ => rfl⟩
    | _ => exact ht.elim
  | more k hkind =>
    cases kind with
    | name =>
      refine ⟨0, k + 1, ?_, fun _ => Nat.succ_pos k, fun _ => rfl⟩
      simp [Token.written, blanks, List.replicate_succ']
    | number =>
      refine ⟨0, k + 1, ?_, fun _ => Nat.succ_pos k, fun _ => rfl⟩
      simp [Token.written, blanks, List.replicate_succ']
    | operator => exact ⟨0, k, by simp [Token.written, blanks], by simp [reaches], fun _ => rfl⟩
    | _ => simp at hkind

theorem blanks_head {n : Nat} {cs : List Char} {c : Char} (hc : c ∈ (blanks n ++ cs).head?) :
    c = ' ' ∨ n = 0 ∧ c ∈ cs.head? := by
  cases n with
  | zero => exact .inr ⟨rfl, hc⟩
  | succ n => exact .inl (Option.some.inj hc).symm

variable {ts us : List Token} {tail : List Char}

/-- Behind an operator or a string every gap can be lost. -/
theorem clearOf_written (ht : t.Readable) (hreaches : reaches t = true) (h : Fits (some t) ps)
    (hpadded : List.Forall₂ Padded (tokens ps) us) (htail : ∀ c ∈ tail.head?, c ∈ Token.layoutChars)
    (afterString : Bool) : ∀ c ∈ (written afterString us ++ tail).head?, t.ClearOf c := by
  induction ps with
  | nil =>
    cases hpadded
    exact fun c hc => Token.clearOf_layout ht (htail c hc)
  | cons p ps ih =>
    cases p with
    | gap =>
      obtain ⟨-, hfits⟩ := h
      rw [Option.filter_some, if_pos hreaches] at hfits
      exact ih hfits hpadded
    | lexeme kind text =>
      obtain ⟨hreadable, hclear, -⟩ := h
      cases hpadded with
      | cons hu _ =>
        obtain ⟨m, n, hwritten, -⟩ := hu.toList_written hreadable afterString
        obtain ⟨a, rest, htext, -⟩ := Token.exists_cons_of_readable hreadable
        change text.toList = a :: rest at htext
        intro c hc
        rw [written, hwritten, List.append_assoc, List.append_assoc] at hc
        rcases blanks_head hc with rfl | ⟨-, hc⟩
        · exact Token.clearOf_layout ht (by decide)
        · exact hclear t rfl c (by rw [htext] at hc ⊢; exact hc)

/-- A row that fits is read as its tokens in every spacing, in front of a comment as well. -/
theorem spells_written {t : Option Token} (h : Fits t ps) (hpadded : List.Forall₂ Padded (tokens ps) us)
    (hspells : Spells ts tail) (htail : ∀ c ∈ tail.head?, c ∈ Token.layoutChars) (afterString : Bool) :
    Spells (tokens ps ++ ts) (written afterString us ++ tail) := by
  induction ps generalizing t us afterString with
  | nil =>
    cases hpadded
    exact hspells
  | cons p ps ih =>
    cases p with
    -- nothing is written for a gap: its blanks are those of the token before it
    | gap => exact ih h.2 hpadded afterString
    | lexeme kind text =>
      obtain ⟨hreadable, -, hfits⟩ := h
      cases hpadded with
      | @cons _ u _ us hu hus =>
        obtain ⟨m, n, hwritten, hpositive, -⟩ := hu.toList_written hreadable afterString
        have hrest := spells_blanks (ih hfits hus (u.kind == TokenKind.string)) n
        rw [written, hwritten, List.append_assoc, List.append_assoc, List.append_assoc]
        refine spells_blanks (.token hreadable ?_ hrest) m
        intro c hc
        rcases blanks_head hc with rfl | ⟨hzero, hc⟩
        · exact Token.clearOf_layout hreadable (by decide)
        · -- without a blank behind it the token is an operator or a string
          have hreaches : reaches ⟨kind.token, text⟩ = true := by
            by_contra hnot
            have hn := hpositive (by simpa using hnot)
            omega
          exact clearOf_written hreadable hreaches hfits hus htail _ c hc

end Piece

end FormatFuzz.Program
