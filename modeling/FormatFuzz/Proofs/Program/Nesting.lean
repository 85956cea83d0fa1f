import FormatFuzz.Proofs.Program.Drawn
import FormatFuzz.Proofs.Random.Reaches

/-!
# How deep trees are nested

A statement with bodies stands one level above the deepest statement in them, and all bodies are drawn
one level below, so the depth bounds the levels of statements. An expression takes one level more: the
method of a call is drawn two levels below the call, but it is an attribute, which is a level of its own,
and so is the value that it is taken from, even where no depth is left.
-/

namespace FormatFuzz.Program

open FormatFuzz.Random FormatFuzz.Random.Draw

mutual

/-- The levels of an expression: one for a name or a literal, and one more than the deepest of its parts
for every other one. A slice is not a level, and neither are keywords and the parts of a comprehension. -/
def Expr.nesting : Expr → Nat
  | .name _ _ | .constant _ => 1
  | .binary l _ r => max l.nesting r.nesting + 1
  | .unary _ e => e.nesting + 1
  | .bool _ vs => nestingAll vs + 1
  | .compare l _ rs => max l.nesting (nestingAll rs) + 1
  | .call f args kws => max f.nesting (max (nestingAll args) (nestingKeywords kws)) + 1
  | .attribute v _ _ => v.nesting + 1
  | .subscript v i _ => max v.nesting i.nesting + 1
  | .slice l u s => max (nestingOption l) (max (nestingOption u) (nestingOption s))
  | .list es _ | .tuple es _ | .set es => nestingAll es + 1
  | .dict ks vs => max (nestingAll ks) (nestingAll vs) + 1
  | .conditional t b o => max t.nesting (max b.nesting o.nesting) + 1
  | .lambda _ b => b.nesting + 1
  | .comprehension e t i cs => max e.nesting (max t.nesting (max i.nesting (nestingAll cs))) + 1
  | .walrus t v => max t.nesting v.nesting + 1

def nestingAll : List Expr → Nat
  | [] => 0
  | e :: es => max e.nesting (nestingAll es)

def nestingOption : Option Expr → Nat
  | none => 0
  | some e => e.nesting

def nestingKeywords : List (String × Expr) → Nat
  | [] => 0
  | (_, e) :: rest => max e.nesting (nestingKeywords rest)

end

mutual

/-- The levels of a statement: one, and those of the deepest statement in its bodies. -/
def Stmt.nesting : Stmt → Nat
  | .branch _ b o => max (nestingBody b) (nestingBody o) + 1
  | .whileLoop _ b | .forLoop _ _ b | .withBlock _ _ b => nestingBody b + 1
  | .tryBlock b _ _ h f => max (nestingBody b) (max (nestingBody h) (nestingBody f)) + 1
  | .function _ _ b _ _ | .classDef _ _ b => nestingBody b + 1
  | _ => 1

def nestingBody : List Stmt → Nat
  | [] => 0
  | s :: ss => max s.nesting (nestingBody ss)

end

def Module.nesting (m : Module) : Nat := nestingBody m.body

section

variable {n : Nat}

@[simp] theorem nestingAll_le_iff {es : List Expr} :
    nestingAll es ≤ n ↔ ∀ e ∈ es, e.nesting ≤ n := by
  induction es with
  | nil => simp [nestingAll]
  | cons e es ih => rw [nestingAll, Nat.max_le, ih, List.forall_mem_cons]

@[simp] theorem nestingOption_le_iff {o : Option Expr} :
    nestingOption o ≤ n ↔ ∀ e ∈ o, e.nesting ≤ n := by
  cases o with
  | none => simp [nestingOption]
  | some e => simp [nestingOption]

@[simp] theorem nestingKeywords_le_iff {kws : List (String × Expr)} :
    nestingKeywords kws ≤ n ↔ ∀ k ∈ kws, k.2.nesting ≤ n := by
  induction kws with
  | nil => simp [nestingKeywords]
  | cons k kws ih => rw [nestingKeywords, Nat.max_le, ih, List.forall_mem_cons]

@[simp] theorem nestingBody_le_iff {b : List Stmt} :
    nestingBody b ≤ n ↔ ∀ s ∈ b, s.nesting ≤ n := by
  induction b with
  | nil => simp [nestingBody]
  | cons s b ih => rw [nestingBody, Nat.max_le, ih, List.forall_mem_cons]

end

namespace Expr

variable {e : Expr} {d : Nat}

theorem Leaf.nesting_eq (h : e.Leaf) : e.nesting = 1 := by
  cases h with
  | name => rfl
  | constant => rfl

theorem LeafSlice.nesting_le (h : e.LeafSlice) : e.nesting ≤ 1 := by
  cases h with
  | slice hl hu hs =>
    simp only [nesting, Nat.max_le, nestingOption_le_iff]
    exact ⟨fun e he => Nat.le_of_eq (hl e he).nesting_eq,
      fun e he => Nat.le_of_eq (hu e he).nesting_eq, fun e he => Nat.le_of_eq (hs e he).nesting_eq⟩

theorem Drawn.nesting_eq (h : e.Drawn d) (hd : d ≤ 1) : e.nesting = 1 := by
  cases h with
  | leaf h => exact h.nesting_eq
  | _ => omega

/-- The parts of an expression are drawn for one level less, and so are nested one level less, but for the
value that a method or an attribute is taken from, which is drawn for two. -/
theorem Drawn.nesting_le (h : e.Drawn d) : e.nesting ≤ d + 1 := by
  induction h with
  | leaf h =>
    rw [h.nesting_eq]
    omega
  | binary _ _ ihl ihr => exact Nat.succ_le_succ (Nat.max_le.2 ⟨ihl, ihr⟩)
  | unary _ ih => exact Nat.succ_le_succ ih
  | bool _ _ ih => exact Nat.succ_le_succ (nestingAll_le_iff.2 ih)
  | compare _ _ _ _ ihl ihrs => exact Nat.succ_le_succ (Nat.max_le.2 ⟨ihl, nestingAll_le_iff.2 ihrs⟩)
  | call _ _ _ _ ihargs ihkws =>
    rw [nesting, nesting]
    refine Nat.succ_le_succ (Nat.max_le.2 ⟨by omega, Nat.max_le.2 ⟨?_, ?_⟩⟩)
    · exact nestingAll_le_iff.2 ihargs
    · exact nestingKeywords_le_iff.2 ihkws
  | method _ _ _ _ _ ihv ihargs ihkws =>
    rw [nesting, nesting]
    refine Nat.succ_le_succ (Nat.max_le.2 ⟨by omega, Nat.max_le.2 ⟨?_, ?_⟩⟩)
    · exact nestingAll_le_iff.2 ihargs
    · exact nestingKeywords_le_iff.2 ihkws
  | «attribute» _ _ ih =>
    rw [nesting]
    omega
  | item _ _ ih =>
    rw [nesting, nesting]
    omega
  | slice _ hslice =>
    have := hslice.nesting_le
    rw [nesting, nesting]
    omega
  | list _ ih => exact Nat.succ_le_succ (nestingAll_le_iff.2 ih)
  | tuple _ ih => exact Nat.succ_le_succ (nestingAll_le_iff.2 ih)
  | set _ _ ih => exact Nat.succ_le_succ (nestingAll_le_iff.2 ih)
  | dict _ _ _ ihks ihvs =>
    exact Nat.succ_le_succ (Nat.max_le.2 ⟨nestingAll_le_iff.2 ihks, nestingAll_le_iff.2 ihvs⟩)
  | conditional _ _ _ iht ihb iho =>
    exact Nat.succ_le_succ (Nat.max_le.2 ⟨iht, Nat.max_le.2 ⟨ihb, iho⟩⟩)
  | lambda _ _ ih => exact Nat.succ_le_succ ih
  | comprehension _ _ _ _ ihe ihi ihcs =>
    refine Nat.succ_le_succ (Nat.max_le.2 ⟨ihe, Nat.max_le.2 ⟨?_, ?_⟩⟩)
    · rw [nesting]
      omega
    · exact Nat.max_le.2 ⟨ihi, nestingAll_le_iff.2 ihcs⟩
  | walrus _ _ ih =>
    rw [nesting, nesting]
    omega

end Expr

namespace Stmt

variable {s : Stmt} {d : Nat} {place : Build.Place}

theorem SimpleDrawn.nesting_eq (h : s.SimpleDrawn d place) : s.nesting = 1 := by
  cases h with
  | _ => rfl

theorem nestingBody_lt {b : List Stmt} (h : ∀ s ∈ b, s.nesting ≤ max (d + 1) 1) :
    nestingBody b < max (d + 2) 1 := by
  have hle := nestingBody_le_iff.2 h
  omega

/-- The statements of all bodies are drawn for one level less. -/
theorem Drawn.nesting_le (h : s.Drawn d place) : s.nesting ≤ max d 1 := by
  induction h with
  | simple h =>
    rw [h.nesting_eq]
    exact Nat.le_max_right _ _
  | branch _ _ _ _ ihb iho => exact Nat.max_lt.2 ⟨nestingBody_lt ihb, nestingBody_lt iho⟩
  | whileLoop _ _ _ ihb => exact nestingBody_lt ihb
  | forLoop _ _ _ _ ihb => exact nestingBody_lt ihb
  | withBlock _ _ _ _ ihb => exact nestingBody_lt ihb
  | tryBlock _ _ _ _ _ _ _ ihb ihh ihf =>
    exact Nat.max_lt.2 ⟨nestingBody_lt ihb, Nat.max_lt.2 ⟨nestingBody_lt ihh, nestingBody_lt ihf⟩⟩
  | function _ _ _ _ _ _ ihb => exact nestingBody_lt ihb
  | classDef _ _ _ _ ihb => exact nestingBody_lt ihb

end Stmt

namespace Build

/-- A call of a method has three levels, though it is drawn where no depth is left for the name in front
of the dot. -/
theorem expr_two_reaches :
    Reaches (expr 2) (.call (.attribute (.name "a" .load) "real" .load) [] []) := by
  have hname : Reaches (name .load) (.name "a" .load) :=
    (choose_reaches (i := 0) (by decide) (by decide)).bind (reaches_pure _)
  have haccess : Reaches (accessOf (name .load) .load) (.attribute (.name "a" .load) "real" .load) :=
    hname.bind ((choose_reaches (i := 0) (by decide) (by decide)).bind (reaches_pure _))
  have hnames : Reaches (distinct names 0) [] := reaches_pure []
  have hkeywords : Reaches (keywords (expr 1) []) [] := reaches_pure []
  have hargs : Reaches (several 0 3 (expr 1)) [] :=
    (between_reaches (n := 0) (by decide) (by decide)).bind (reaches_pure [])
  have hkind : Reaches (below 15) 4 := below_reaches (by decide)
  refine (chance_reaches (n := 2 ^ 53 - 1) (by decide)).bind (hkind.bind ?_)
  refine (chance_reaches (n := 2 ^ 53 - 1) (by decide)).bind (haccess.bind ?_)
  refine (between_reaches (n := 0) (by decide) (by decide)).bind ?_
  exact hnames.bind (hkeywords.bind (hargs.bind (reaches_pure _)))

theorem expr_succ_reaches {d : Nat} {e : Expr} (h : Reaches (expr (d + 1)) e) :
    Reaches (expr (d + 2)) (.unary .not e) := by
  have hkind : Reaches (below 15) 1 := below_reaches (by decide)
  have hop : Reaches (choose unaryOps) UnaryOp.not := choose_reaches (i := 0) (by decide) (by decide)
  refine (chance_reaches (n := 2 ^ 53 - 1) (by decide)).bind ?_
  exact hkind.bind (hop.bind (h.bind (reaches_pure _)))

theorem exists_expr_nesting_eq (d : Nat) : ∃ e, Reaches (expr (d + 2)) e ∧ e.nesting = d + 3 := by
  induction d with
  | zero => exact ⟨_, expr_two_reaches, rfl⟩
  | succ d ih =>
    obtain ⟨e, hreaches, hnesting⟩ := ih
    exact ⟨_, expr_succ_reaches hreaches, congrArg (· + 1) hnesting⟩

end Build

/-- A random statement has at most as many levels as its depth says, and so has a random program, but for
the one level that every statement has. Without depth left a random expression has one level; else it has
at most one more than its depth says, and that many for some words. -/
theorem nesting_bounded {σ : Type} [Source σ] (depth : Nat) (place : Build.Place) (source : σ) :
    ((Build.stmt depth place).run source).1.nesting ≤ max depth 1 ∧
      (1 ≤ depth → ((Build.module depth).run source).1.nesting ≤ depth) ∧
      (depth ≤ 1 → ((Build.expr depth).run source).1.nesting = 1) ∧
      (2 ≤ depth → ((Build.expr depth).run source).1.nesting ≤ depth + 1 ∧
        ∃ words : Words, ((Build.expr depth).run words).1.nesting = depth + 1) := by
  refine ⟨(Build.stmt_yields depth place source).nesting_le, fun hdepth => ?_,
    (Build.expr_yields depth source).nesting_eq,
    fun hdepth => ⟨(Build.expr_yields depth source).nesting_le, ?_⟩⟩
  · apply nestingBody_le_iff.2
    intro s hs
    have hle := ((Build.module_yields depth source).2 s hs).nesting_le
    omega
  · obtain ⟨d, rfl⟩ := Nat.exists_eq_add_of_le' hdepth
    obtain ⟨e, ⟨words, hwords⟩, hnesting⟩ := Build.exists_expr_nesting_eq d
    exact ⟨⟨words ++ []⟩, (congrArg (Expr.nesting ·.1) (hwords [])).trans hnesting⟩

/-- Words that make a call of a method. -/
def methodWords : Words := ⟨[0xffffffff, 0xffffffff, 0x40000000, 0xffffffff, 0xffffffff]⟩

/-- The call has all levels that its depth allows. -/
theorem nesting_bounded_methodWords : 2 ≤ 2 ∧
    ((Build.expr 2).run methodWords).1.nesting = 3 ∧
      ((Build.expr 2).run methodWords).1.nesting ≤ 2 + 1 := by
  exact ⟨Nat.le_refl 2, by rfl,
    ((nesting_bounded 2 ⟨false, false⟩ methodWords).2.2.2 (Nat.le_refl 2)).1⟩

end FormatFuzz.Program
