import FormatFuzz.Program.Lexeme
import Mathlib.Data.List.Basic

namespace FormatFuzz.Program.Lex

variable {t u r mark rest : List Char} {q c : Char}

theorem closing_escaped {tripled : Bool} (hc : c ≠ '\n') (cs : List Char) :
    closing q tripled ('\\' :: c :: cs) =
      (closing q tripled cs).map (Prod.map (fun u => '\\' :: c :: u) id) := by
  have hnewline : ¬ (c == '\n') = true := by simpa using hc
  exact if_neg hnewline

theorem closing_cons {tripled : Bool} (hc : c ≠ '\\') (cs : List Char) :
    closing q tripled (c :: cs) =
      if c == q then
        if !tripled then some ([c], cs)
        else match cs with
          | a :: b :: rest =>
            if a == q && b == q then some ([c, a, b], rest)
            else (closing q tripled cs).map (Prod.map (c :: ·) id)
          | _ => none
      else (closing q tripled cs).map (Prod.map (c :: ·) id) := by
  rw [closing.eq_def]
  split
  · next heq => cases heq
  · next heq => exact absurd (List.cons.inj heq).1 hc
  · next heq =>
    obtain ⟨rfl, rfl⟩ := List.cons.inj heq
    rw [if_neg (by simpa using hc)]
    rfl

theorem closing_other {tripled : Bool} (hc : c ≠ '\\') (hq : c ≠ q) (cs : List Char) :
    closing q tripled (c :: cs) = (closing q tripled cs).map (Prod.map (c :: ·) id) := by
  rw [closing_cons hc, if_neg (by simpa using hq)]

theorem closing_quote (hq : q ≠ '\\') (cs : List Char) :
    closing q false (q :: cs) = some ([q], cs) := by
  rw [closing_cons hq, if_pos (by simp)]
  rfl

theorem closing_quotes (hq : q ≠ '\\') (a b : Char) (cs : List Char) :
    closing q true (q :: a :: b :: cs) =
      if a == q && b == q then some ([q, a, b], cs)
      else (closing q true (a :: b :: cs)).map (Prod.map (q :: ·) id) := by
  rw [closing_cons hq, if_pos (by simp)]
  rfl

theorem closing_append {tripled : Bool} (h : closing q tripled t = some (u, r)) (cs : List Char) :
    closing q tripled (t ++ cs) = some (u, r ++ cs) := by
  induction t using closing.induct q tripled generalizing u with
  | case1 => cases h
  | case2 c t hc => simp [closing, hc] at h
  | case3 c t hc ih =>
    have hc : c ≠ '\n' := by simpa using hc
    rw [closing_escaped hc, Option.map_eq_some_iff] at h
    obtain ⟨⟨v, s⟩, hv, heq⟩ := h
    obtain ⟨rfl, rfl⟩ := Prod.mk.inj heq
    rw [List.cons_append, List.cons_append, closing_escaped hc, ih hv]
    rfl
  | case4 c t hne hc =>
    rw [beq_iff_eq] at hc
    cases t with
    | nil => simp [closing, hc] at h
    | cons a t => exact (hne a t hc rfl).elim
  | case5 c t hne hc hq htripled =>
    obtain rfl : c = q := by simpa using hq
    obtain rfl : tripled = false := by simpa using htripled
    rw [closing_quote (by simpa using hc)] at h
    obtain ⟨rfl, rfl⟩ := Prod.mk.inj (Option.some.inj h)
    rw [List.cons_append, closing_quote (by simpa using hc)]
  | case6 c hc hq htripled a b t hquotes hne =>
    obtain rfl : c = q := by simpa using hq
    obtain rfl : tripled = true := by simpa using htripled
    rw [closing_quotes (by simpa using hc), if_pos hquotes] at h
    obtain ⟨rfl, rfl⟩ := Prod.mk.inj (Option.some.inj h)
    rw [List.cons_append, List.cons_append, List.cons_append, closing_quotes (by simpa using hc),
      if_pos hquotes]
  | case7 c hc hq htripled a b t hquotes hne ih =>
    obtain rfl : c = q := by simpa using hq
    obtain rfl : tripled = true := by simpa using htripled
    rw [closing_quotes (by simpa using hc), if_neg hquotes, Option.map_eq_some_iff] at h
    obtain ⟨⟨v, s⟩, hv, heq⟩ := h
    obtain ⟨rfl, rfl⟩ := Prod.mk.inj heq
    rw [List.cons_append, List.cons_append, List.cons_append, closing_quotes (by simpa using hc),
      if_neg hquotes, ← List.cons_append, ← List.cons_append, ih hv]
    rfl
  | case8 c t hne hc hq htripled hshort =>
    rw [closing_cons (by simpa using hc), if_pos hq, if_neg htripled] at h
    split at h
    · next a b t => exact (hshort a b t rfl).elim
    · cases h
  | case9 c t hne hc hq ih =>
    have hc : c ≠ '\\' := by simpa using hc
    have hq : c ≠ q := by simpa using hq
    rw [closing_other hc hq, Option.map_eq_some_iff] at h
    obtain ⟨⟨v, s⟩, hv, heq⟩ := h
    obtain ⟨rfl, rfl⟩ := Prod.mk.inj heq
    rw [List.cons_append, closing_other hc hq, ih hv]
    rfl

theorem shortEnding_append {seen : List Char} (h : shortEnding q seen t = .closed u r)
    (cs : List Char) : shortEnding q seen (t ++ cs) = .closed u (r ++ cs) := by
  induction seen, t using shortEnding.induct q with
  | case1 => cases h
  | case2 => cases h
  | case3 => cases h
  | case4 seen c t hfeed hreturn ih =>
    rw [shortEnding.eq_4 _ _ _ _ hfeed hreturn] at h
    rw [List.cons_append, List.cons_append, shortEnding.eq_4 _ _ _ _ hfeed, ih h]
    rintro tail hc heq
    cases t with
    | nil => cases h
    | cons a t => exact hreturn t hc (by rw [(List.cons.inj heq).1])
  | case5 seen c t h1 h2 h3 hc =>
    rw [shortEnding.eq_5 _ _ _ _ h1 h2 h3, if_pos hc] at h
    cases h
  | case6 seen c t h1 h2 h3 hc hq =>
    have hc' : c ≠ '\\' := by simp at hc; exact hc.2
    rw [shortEnding.eq_5 _ _ _ _ h1 h2 h3, if_neg hc, if_pos hq] at h
    obtain ⟨rfl, rfl⟩ := Ending.closed.inj h
    rw [List.cons_append, shortEnding.eq_5 _ _ _ _ (fun _ h _ => hc' h) (fun _ h _ => hc' h)
      (fun _ _ h _ => hc' h), if_neg hc, if_pos hq]
  | case7 seen c t h1 h2 h3 hc hq ih =>
    have hc' : c ≠ '\\' := by simp at hc; exact hc.2
    rw [shortEnding.eq_5 _ _ _ _ h1 h2 h3, if_neg hc, if_neg hq] at h
    rw [List.cons_append, shortEnding.eq_5 _ _ _ _ (fun _ h _ => hc' h) (fun _ h _ => hc' h)
      (fun _ _ h _ => hc' h), if_neg hc, if_neg hq, ih h]

def QuoteFree (rest : List Char) : Prop := ∀ c ∈ rest.head?, isQuote c = false

theorem stringStart?_append (h : stringStart? t = some (mark, q, rest)) (cs : List Char) :
    isQuote q = true ∧ stringStart? (t ++ cs) = some (mark, q, rest ++ cs) := by
  rcases t with _ | ⟨a, _ | ⟨b, _ | ⟨c, t⟩⟩⟩
  · cases h
  all_goals
    simp only [stringStart?, List.findSome?_cons, List.findSome?_nil, List.drop, List.take,
      List.cons_append, List.nil_append] at h ⊢
    grind

theorem short_append (h : string?.short mark q t = some (.token .string u r)) (cs : List Char) :
    string?.short mark q (t ++ cs) = some (.token .string u (r ++ cs)) := by
  rw [string?.short] at h
  cases hending : shortEnding q [] t with
  | closed v s =>
    rw [hending] at h
    injection h with h
    injection h with _ hu hr
    rw [string?.short, shortEnding_append hending, ← hu, ← hr]
  | continued v =>
    rw [hending] at h
    injection h with h
    cases h
  | stray =>
    rw [hending] at h
    cases h

theorem short_nil : string?.short mark q [] = none := by
  rw [string?.short, shortEnding]

theorem string?_append (h : string? t = some (.token .string t [])) {cs : List Char}
    (hcs : QuoteFree cs) : string? (t ++ cs) = some (.token .string t cs) := by
  cases hstart : stringStart? t with
  | none => simp [string?, hstart] at h
  | some start =>
    obtain ⟨mark, q, rest⟩ := start
    obtain ⟨hquote, happend⟩ := stringStart?_append hstart cs
    simp only [string?, hstart, happend, bind, Option.bind] at h ⊢
    match rest with
    | [] =>
      rw [short_nil] at h
      cases h
    | [a] =>
      have hshort := short_append h cs
      cases cs with
      | nil => exact hshort
      | cons c cs =>
        -- what follows the second of two quotes is not a third one
        have hc : ¬ (a == q && c == q) = true := by
          simp only [Bool.and_eq_true, beq_iff_eq, not_and]
          rintro - rfl
          rw [hcs c rfl] at hquote
          cases hquote
        simpa [hc] using hshort
    | a :: b :: body =>
      simp only [List.cons_append] at h ⊢
      split at h
      · next hquotes =>
        rw [if_pos hquotes]
        cases hclosing : closing q true body with
        | none => simp [hclosing, pure] at h
        | some split =>
          obtain ⟨v, s⟩ := split
          rw [hclosing] at h
          rw [closing_append hclosing cs]
          injection h with h
          injection h with _ ht hs
          simp only [← ht, hs, List.nil_append]
          rfl
      · next hquotes =>
        rw [if_neg hquotes]
        exact short_append h cs

end FormatFuzz.Program.Lex
