import FormatFuzz.Proofs.Program.Drawn
import Mathlib.Data.List.Induction

/-!
# Where control statements stand

A statement of a program stands at the end of a path: the blocks that enclose it, from the outside in.
Each block sets, resets or passes on whether its statements are inside a function and inside a loop.
A random statement is drawn for the place that its path leads to, so what is allowed only inside a
function or a loop has one around it, and nothing between the two that closes it off.
-/

namespace FormatFuzz.Program

open FormatFuzz.Random FormatFuzz.Random.Draw

inductive Block
  | branchBody
  | branchAlternative
  | loopBody
  | withBody
  | tryBody
  | handlerBody
  | finallyBody
  | functionBody
  | classBody
deriving DecidableEq, Repr

def Stmt.blocks : Stmt → List (Block × List Stmt)
  | .branch _ b o => [(.branchBody, b), (.branchAlternative, o)]
  | .whileLoop _ b => [(.loopBody, b)]
  | .forLoop _ _ b => [(.loopBody, b)]
  | .withBlock _ _ b => [(.withBody, b)]
  | .tryBlock b _ _ h f => [(.tryBody, b), (.handlerBody, h), (.finallyBody, f)]
  | .function _ _ b _ _ => [(.functionBody, b)]
  | .classDef _ _ b => [(.classBody, b)]
  | _ => []

/-- A statement stands in a row of statements at the end of a path of blocks. -/
inductive Occurs (s : Stmt) : List Block → List Stmt → Prop
  | here {body : List Stmt} : s ∈ body → Occurs s [] body
  | inside {path : List Block} {body inner : List Stmt} {t : Stmt} {b : Block} : t ∈ body →
      (b, inner) ∈ t.blocks → Occurs s path inner → Occurs s (b :: path) body

def Build.Place.enter (place : Build.Place) : Block → Build.Place
  | .loopBody => { place with inLoop := true }
  | .functionBody => { inFunction := true, inLoop := false }
  | .classBody => { inFunction := false, inLoop := false }
  | _ => place

/-- The statements in a block of a random statement are drawn for the place of the block. -/
theorem Stmt.Drawn.block {d : Nat} {place : Build.Place} {t : Stmt} {b : Block} {inner : List Stmt}
    (h : t.Drawn d place) (hb : (b, inner) ∈ t.blocks) :
    ∃ d', ∀ s ∈ inner, s.Drawn d' (place.enter b) := by
  cases h with
  | simple h => cases h <;> cases hb
  | @branch d _ _ _ _ _ _ hbody halternative =>
    simp only [blocks, List.mem_cons, Prod.mk.injEq, List.not_mem_nil, or_false] at hb
    rcases hb with ⟨rfl, rfl⟩ | ⟨rfl, rfl⟩
    · exact ⟨d + 1, hbody⟩
    · exact ⟨d + 1, halternative⟩
  | @whileLoop d _ _ _ _ _ hbody =>
    simp only [blocks, List.mem_cons, Prod.mk.injEq, List.not_mem_nil, or_false] at hb
    obtain ⟨rfl, rfl⟩ := hb
    exact ⟨d + 1, hbody⟩
  | @forLoop d _ _ _ _ _ _ _ hbody =>
    simp only [blocks, List.mem_cons, Prod.mk.injEq, List.not_mem_nil, or_false] at hb
    obtain ⟨rfl, rfl⟩ := hb
    exact ⟨d + 1, hbody⟩
  | @withBlock d _ _ _ _ _ _ _ hbody =>
    simp only [blocks, List.mem_cons, Prod.mk.injEq, List.not_mem_nil, or_false] at hb
    obtain ⟨rfl, rfl⟩ := hb
    exact ⟨d + 1, hbody⟩
  | @tryBlock d _ _ _ _ _ _ _ _ _ hbody _ hhandler hfinally =>
    simp only [blocks, List.mem_cons, Prod.mk.injEq, List.not_mem_nil, or_false] at hb
    rcases hb with ⟨rfl, rfl⟩ | ⟨rfl, rfl⟩ | ⟨rfl, rfl⟩
    · exact ⟨d + 1, hbody⟩
    · exact ⟨d + 1, hhandler⟩
    · exact ⟨d + 1, hfinally⟩
  | @function d _ _ _ _ _ _ _ _ _ hbody =>
    simp only [blocks, List.mem_cons, Prod.mk.injEq, List.not_mem_nil, or_false] at hb
    obtain ⟨rfl, rfl⟩ := hb
    exact ⟨d + 1, hbody⟩
  | @classDef d _ _ _ _ _ _ _ hbody =>
    simp only [blocks, List.mem_cons, Prod.mk.injEq, List.not_mem_nil, or_false] at hb
    obtain ⟨rfl, rfl⟩ := hb
    exact ⟨d + 1, hbody⟩

theorem Occurs.drawn {s : Stmt} {path : List Block} {body : List Stmt} (h : Occurs s path body)
    {d : Nat} {place : Build.Place} (hbody : ∀ t ∈ body, t.Drawn d place) :
    ∃ d', s.Drawn d' (path.foldl Build.Place.enter place) := by
  induction h generalizing d place with
  | here hs => exact ⟨d, hbody _ hs⟩
  | inside ht hb _ ih =>
    obtain ⟨d', hinner⟩ := (hbody _ ht).block hb
    exact ih hinner

/-- A path that ends inside a kind of block enters one, and behind it none that leads out of the kind. -/
theorem path_of_inside {inside : Build.Place → Bool} {opens : Block} {closes : List Block}
    (hstart : inside ⟨false, false⟩ = false)
    (hcloses : ∀ b ∈ closes, ∀ place, inside (Build.Place.enter place b) = false)
    (hpasses : ∀ b, b ≠ opens → b ∉ closes → ∀ place,
      inside (Build.Place.enter place b) = inside place) {path : List Block}
    (h : inside (path.foldl Build.Place.enter ⟨false, false⟩) = true) :
    ∃ outer inner, path = outer ++ opens :: inner ∧ ∀ b ∈ closes, b ∉ inner := by
  induction path using List.reverseRecOn with
  | nil => exact absurd (hstart.symm.trans h) Bool.false_ne_true
  | append_singleton path b ih =>
    rw [List.foldl_append, List.foldl_cons, List.foldl_nil] at h
    by_cases hopens : b = opens
    · subst hopens
      exact ⟨path, [], rfl, fun _ _ => List.not_mem_nil⟩
    · have hb : b ∉ closes := fun hb => Bool.false_ne_true ((hcloses b hb _).symm.trans h)
      rw [hpasses b hopens hb] at h
      obtain ⟨outer, inner, rfl, hinner⟩ := ih h
      refine ⟨outer, inner ++ [b], by simp, fun c hc hmem => ?_⟩
      rcases List.mem_append.1 hmem with hmem | hmem
      · exact hinner c hc hmem
      · exact hb (List.mem_singleton.1 hmem ▸ hc)

/-- A path that leads inside a function enters one and no class after it. -/
theorem inFunction_path {path : List Block}
    (h : (path.foldl Build.Place.enter ⟨false, false⟩).inFunction = true) :
    ∃ outer inner, path = outer ++ .functionBody :: inner ∧ .classBody ∉ inner := by
  have hpasses : ∀ b, b ≠ .functionBody → b ∉ [Block.classBody] → ∀ place : Build.Place,
      (place.enter b).inFunction = place.inFunction := by
    intro b hopens hb place
    cases b with
    | functionBody => exact absurd rfl hopens
    | classBody => exact absurd List.mem_cons_self hb
    | _ => rfl
  obtain ⟨outer, inner, hpath, hinner⟩ := path_of_inside rfl
    (List.forall_mem_singleton.2 fun _ => rfl) hpasses h
  exact ⟨outer, inner, hpath, hinner _ List.mem_cons_self⟩

/-- A path that leads inside a loop enters one and no function or class after it. -/
theorem inLoop_path {path : List Block}
    (h : (path.foldl Build.Place.enter ⟨false, false⟩).inLoop = true) :
    ∃ outer inner, path = outer ++ .loopBody :: inner ∧ .functionBody ∉ inner ∧
      .classBody ∉ inner := by
  have hpasses : ∀ b, b ≠ .loopBody → b ∉ [Block.functionBody, .classBody] → ∀ place : Build.Place,
      (place.enter b).inLoop = place.inLoop := by
    intro b hopens hb place
    cases b with
    | loopBody => exact absurd rfl hopens
    | functionBody => exact absurd (by simp) hb
    | classBody => exact absurd (by simp) hb
    | _ => rfl
  obtain ⟨outer, inner, hpath, hinner⟩ := path_of_inside rfl
    (List.forall_mem_cons.2 ⟨fun _ => rfl, List.forall_mem_singleton.2 fun _ => rfl⟩) hpasses h
  exact ⟨outer, inner, hpath, hinner _ (by simp), hinner _ (by simp)⟩

/-- What a statement on a path must be like: it returns only from inside a function, with no class
between, leaves or continues only a loop around it, with no function or class between, and never
declares an outer name. -/
structure Stmt.Placed (s : Stmt) (path : List Block) : Prop where
  returns : ∀ v, s = .returnValue v →
    ∃ outer inner, path = outer ++ .functionBody :: inner ∧ .classBody ∉ inner
  leaves : s = .breakLoop ∨ s = .continueLoop →
    ∃ outer inner, path = outer ++ .loopBody :: inner ∧ .functionBody ∉ inner ∧ .classBody ∉ inner
  declares : ∀ ns, s ≠ .globalNames ns ∧ s ≠ .nonlocalNames ns

theorem Stmt.Drawn.placed {s : Stmt} {d : Nat} {path : List Block}
    (h : s.Drawn d (path.foldl Build.Place.enter ⟨false, false⟩)) : s.Placed path := by
  cases h with
  | simple h =>
    cases h with
    | returnValue hplace =>
      exact ⟨fun _ _ => inFunction_path hplace, by simp, by simp⟩
    | breakLoop hplace => exact ⟨by simp, fun _ => inLoop_path hplace, by simp⟩
    | continueLoop hplace => exact ⟨by simp, fun _ => inLoop_path hplace, by simp⟩
    | _ => exact ⟨by simp, by simp, by simp⟩
  | _ => exact ⟨by simp, by simp, by simp⟩

/-- Every statement of a random program is legally placed, for every depth and every source. -/
theorem module_placed {σ : Type} [Source σ] (depth : Nat) (source : σ) {s : Stmt} {path : List Block}
    (h : Occurs s path ((Build.module depth).run source).1.body) : s.Placed path := by
  obtain ⟨_, hbody⟩ := Build.module_yields depth source
  obtain ⟨d, hs⟩ := h.drawn hbody
  exact hs.placed

/-- Words that make a loop which is left at once. -/
def loopWords : Words := ⟨[0, 0xffffffff, 0xffffffff, 0x20000000, 0, 0, 0, 0, 0x80000000, 0]⟩

theorem module_loopWords : ((Build.module 2).run loopWords).1.body =
    [.whileLoop (.name "a" .load) [.breakLoop]] := by
  rfl

/-- The statement that leaves the loop stands in its body. -/
theorem module_placed_loopWords :
    Occurs .breakLoop [.loopBody] ((Build.module 2).run loopWords).1.body ∧
      Stmt.breakLoop.Placed [.loopBody] := by
  have hoccurs : Occurs .breakLoop [.loopBody] ((Build.module 2).run loopWords).1.body := by
    rw [module_loopWords]
    exact .inside List.mem_cons_self List.mem_cons_self (.here List.mem_cons_self)
  exact ⟨hoccurs, module_placed 2 loopWords hoccurs⟩

end FormatFuzz.Program
