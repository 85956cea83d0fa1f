import FormatFuzz.Proofs.Program.Placement

/-!
# Well-formed trees

An expression has a role in the node that holds it: it is a value, a place that is assigned to, one of
the places of a row, or a place that is deleted. The role decides which nodes may stand there and with
which context, and some nodes have a rule of their own for how many parts they have or which names they
bind. A tree is well formed when this holds of every node in it. What is drawn for a role has parts that
are drawn for theirs, so the rules of single nodes carry over to whole trees.
-/

namespace FormatFuzz.Program

open FormatFuzz.Random FormatFuzz.Random.Draw

/-- What an expression is for the node that holds it. -/
inductive Role
  | value
  | target
  | element
  | deleted
deriving DecidableEq, Repr

def values (es : List Expr) : List (Expr × Role) := es.map (·, .value)

/-- The parts of an expression in a role, each with its own role. Places stand in a row only in a tuple
that is itself assigned to. -/
def Expr.parts (role : Role) : Expr → List (Expr × Role)
  | .name _ _ | .constant _ => []
  | .binary l _ r => values [l, r]
  | .unary _ e => values [e]
  | .bool _ vs => values vs
  | .compare l _ rs => values (l :: rs)
  | .call f args kws => values (f :: args ++ kws.map Prod.snd)
  | .attribute v _ _ => values [v]
  | .subscript v i _ => values [v, i]
  | .slice l u s => values (l.toList ++ u.toList ++ s.toList)
  | .list es _ => values es
  | .tuple es _ => es.map (·, if role = .target then .element else .value)
  | .set es => values es
  | .dict ks vs => values (ks ++ vs)
  | .conditional t b o => values [t, b, o]
  | .lambda _ b => values [b]
  | .comprehension e t i cs => (t, .target) :: values (e :: i :: cs)
  | .walrus t v => [(t, .target), (v, .value)]

def Stmt.parts : Stmt → List (Expr × Role)
  | .assign ts v => (v, .value) :: ts.map (·, .target)
  | .augmented t _ v => [(t, .target), (v, .value)]
  | .annotated t a v => (t, .target) :: values (a :: v.toList)
  | .delete t => [(t, .deleted)]
  | .assert t m => values (t :: m.toList)
  | .raise e => values [e]
  | .returnValue v => values v.toList
  | .expr v => values [v]
  | .branch t _ _ => values [t]
  | .whileLoop t _ => values [t]
  | .forLoop t i _ => [(t, .target), (i, .value)]
  | .withBlock c t _ => (c, .value) :: t.toList.map (·, .target)
  | .tryBlock _ exc _ _ _ => values [exc]
  | .function _ _ _ ds r => values (ds ++ r.toList)
  | .classDef _ bs _ => values bs
  | _ => []

inductive Expr.Within (p : Expr × Role) : List (Expr × Role) → Prop
  | here {l : List (Expr × Role)} : p ∈ l → Within p l
  | inside {l : List (Expr × Role)} {q : Expr × Role} : q ∈ l → Within p (q.1.parts q.2) → Within p l

def Expr.context? : Expr → Option Context
  | .name _ c | .attribute _ _ c | .subscript _ _ c | .list _ c | .tuple _ c => some c
  | _ => none

/-- Which nodes may stand in a role. A value is read wherever it has a context. -/
def Role.Allows : Role → Expr → Prop
  | .value, e => ∀ c ∈ e.context?, c = .load
  | .target, .name _ c | .target, .attribute _ _ c | .target, .subscript _ _ c | .target, .tuple _ c =>
    c = .store
  | .target, _ => False
  | .element, e => ∃ id, e = .name id .store
  | .deleted, e => ∃ id, e = .name id .del

def Expr.Regular : Expr → Prop
  | .bool _ vs => 2 ≤ vs.length
  | .compare _ os rs => os.length = rs.length ∧ 1 ≤ rs.length
  | .call _ _ kws => (kws.map Prod.fst).Nodup
  | .set es => 1 ≤ es.length
  | .dict ks vs => ks.length = vs.length
  | .lambda ps _ => ps.Nodup
  | _ => True

def Stmt.Regular : Stmt → Prop
  | .function _ ps _ _ _ => ps.Nodup
  | _ => True

/-- The blocks that must hold a statement: all but an alternative and what is done finally. -/
def Block.Needed : Block → Prop
  | .branchAlternative | .finallyBody => False
  | _ => True

/-- No needed block is empty, whatever is tried has a handler, and every expression in the statement keeps
the rules of its node and of its role. -/
structure Stmt.WellFormed (s : Stmt) : Prop where
  blocks : ∀ b ∈ s.blocks, b.1.Needed → b.2 ≠ []
  handled : ∀ body, (Block.tryBody, body) ∈ s.blocks → ∃ handler, (Block.handlerBody, handler) ∈ s.blocks
  regular : s.Regular
  parts : ∀ e role, Expr.Within (e, role) s.parts → role.Allows e ∧ e.Regular

/-- There are one to four statements at the top, and all statements are well formed, however deep they
stand. -/
structure Module.WellFormed (m : Module) : Prop where
  count : 1 ≤ m.body.length ∧ m.body.length ≤ 4
  statements : ∀ s path, Occurs s path m.body → s.WellFormed

inductive Expr.DrawnAs : Role → Expr → Prop
  | value {d : Nat} {e : Expr} : e.Drawn d → DrawnAs .value e
  | slice {e : Expr} : e.LeafSlice → DrawnAs .value e
  | read (id : String) : DrawnAs .value (.name id .load)
  | raised {d : Nat} {id : String} {args : List Expr} : (∀ a ∈ args, a.Drawn d) →
      DrawnAs .value (.call (.name id .load) args [])
  | target {d : Nat} {e : Expr} : e.TargetDrawn d → DrawnAs .target e
  | element (id : String) : DrawnAs .element (.name id .store)
  | deleted (id : String) : DrawnAs .deleted (.name id .del)

namespace Expr

variable {e : Expr} {role : Role} {d : Nat}

/-- What is drawn for a role is allowed there. -/
theorem DrawnAs.allows (h : e.DrawnAs role) : role.Allows e := by
  cases h with
  | value h => cases h with
    | leaf h => cases h <;> simp [Role.Allows, context?]
    | _ => simp [Role.Allows, context?]
  | slice h =>
    cases h
    simp [Role.Allows, context?]
  | read id => simp [Role.Allows, context?]
  | raised h => simp [Role.Allows, context?]
  | target h => cases h <;> simp [Role.Allows]
  | element id => exact ⟨id, rfl⟩
  | deleted id => exact ⟨id, rfl⟩

theorem DrawnAs.regular (h : e.DrawnAs role) : e.Regular := by
  cases h with
  | value h => cases h with
    | leaf h => cases h <;> trivial
    | bool hlen => exact hlen
    | compare hops hlen => exact ⟨hops, hlen⟩
    | call _ _ hnames => exact hnames.1
    | method _ _ _ hnames => exact hnames.1
    | set hlen => exact hlen
    | dict hlen => exact hlen.symm
    | lambda hnames => exact hnames.1
    | _ => trivial
  | slice h =>
    cases h
    trivial
  | read id => trivial
  | raised h => exact List.nodup_nil
  | target h => cases h <;> trivial
  | element id => trivial
  | deleted id => trivial

theorem forall_values {P : Expr × Role → Prop} {es : List Expr} :
    (∀ p ∈ values es, P p) ↔ ∀ e ∈ es, P (e, .value) := List.forall_mem_map

theorem Leaf.drawnAs (h : e.Leaf) : e.DrawnAs .value := .value (.leaf (d := 0) h)

theorem drawnAs_option {o : Option Expr} (h : ∀ e ∈ o, e.DrawnAs role) :
    ∀ e ∈ o.toList, e.DrawnAs role := by
  intro e he
  exact h e (Option.mem_toList.1 he)

theorem Drawn.parts (h : e.Drawn d) : ∀ p ∈ e.parts .value, p.1.DrawnAs p.2 := by
  have hkeywords : ∀ {d : Nat} {kws : List (String × Expr)}, (∀ k ∈ kws, k.2.Drawn d) →
      ∀ v ∈ kws.map Prod.snd, v.DrawnAs .value :=
    fun h => List.forall_mem_map.2 fun k hk => .value (h k hk)
  cases h with
  | leaf h => cases h <;> simp [Expr.parts]
  | binary hl hr =>
    refine forall_values.2 (List.forall_mem_cons.2 ⟨.value hl, ?_⟩)
    exact List.forall_mem_singleton.2 (.value hr)
  | unary h => exact forall_values.2 (List.forall_mem_singleton.2 (.value h))
  | bool _ hvs => exact forall_values.2 fun v hv => .value (hvs v hv)
  | compare _ _ hl hrs =>
    exact forall_values.2 (List.forall_mem_cons.2 ⟨.value hl, fun r hr => .value (hrs r hr)⟩)
  | call hid hargs _ hkws =>
    refine forall_values.2 (List.forall_mem_cons.2 ⟨.read _, ?_⟩)
    exact List.forall_mem_append.2 ⟨fun a ha => .value (hargs a ha), hkeywords hkws⟩
  | method hv hattr hargs _ hkws =>
    refine forall_values.2 (List.forall_mem_cons.2 ⟨.value (.attribute hv hattr), ?_⟩)
    exact List.forall_mem_append.2 ⟨fun a ha => .value (hargs a ha), hkeywords hkws⟩
  | «attribute» hv _ => exact forall_values.2 (List.forall_mem_singleton.2 (.value hv))
  | item hid hi =>
    refine forall_values.2 (List.forall_mem_cons.2 ⟨.read _, ?_⟩)
    exact List.forall_mem_singleton.2 (.value hi)
  | slice hid hi =>
    refine forall_values.2 (List.forall_mem_cons.2 ⟨.read _, ?_⟩)
    exact List.forall_mem_singleton.2 (.slice hi)
  | list hes => exact forall_values.2 fun e he => .value (hes e he)
  | tuple hes => exact List.forall_mem_map.2 fun e he => .value (hes e he)
  | set _ hes => exact forall_values.2 fun e he => .value (hes e he)
  | dict _ hks hvs =>
    refine forall_values.2 (List.forall_mem_append.2 ⟨fun k hk => .value (hks k hk), ?_⟩)
    exact fun v hv => .value (hvs v hv)
  | conditional ht hb ho =>
    refine forall_values.2 (List.forall_mem_cons.2 ⟨.value ht, List.forall_mem_cons.2 ⟨.value hb, ?_⟩⟩)
    exact List.forall_mem_singleton.2 (.value ho)
  | lambda _ hb => exact forall_values.2 (List.forall_mem_singleton.2 (.value hb))
  | comprehension hid he hi hcs =>
    refine List.forall_mem_cons.2 ⟨.target (d := 0) (.name hid), forall_values.2 ?_⟩
    refine List.forall_mem_cons.2 ⟨.value he, List.forall_mem_cons.2 ⟨.value hi, ?_⟩⟩
    exact fun c hc => .value (hcs c hc)
  | walrus hid hv =>
    refine List.forall_mem_cons.2 ⟨.target (d := 0) (.name hid), ?_⟩
    exact List.forall_mem_singleton.2 (.value hv)

theorem DrawnAs.parts (h : e.DrawnAs role) : ∀ p ∈ e.parts role, p.1.DrawnAs p.2 := by
  cases h with
  | value h => exact h.parts
  | slice h =>
    obtain ⟨hl, hu, hs⟩ := h
    refine forall_values.2 (List.forall_mem_append.2 ⟨List.forall_mem_append.2 ⟨?_, ?_⟩, ?_⟩)
    · exact drawnAs_option fun e he => (hl e he).drawnAs
    · exact drawnAs_option fun e he => (hu e he).drawnAs
    · exact drawnAs_option fun e he => (hs e he).drawnAs
  | read id => simp [Expr.parts]
  | raised hargs =>
    refine forall_values.2 (List.forall_mem_cons.2 ⟨.read _, ?_⟩)
    exact List.forall_mem_append.2 ⟨fun a ha => .value (hargs a ha), by simp⟩
  | target h =>
    cases h with
    | name _ => simp [Expr.parts]
    | «attribute» _ _ => exact forall_values.2 (List.forall_mem_singleton.2 (.read _))
    | item hid hi =>
      refine forall_values.2 (List.forall_mem_cons.2 ⟨.read _, ?_⟩)
      exact List.forall_mem_singleton.2 (.value hi)
    | slice hid hi =>
      refine forall_values.2 (List.forall_mem_cons.2 ⟨.read _, ?_⟩)
      exact List.forall_mem_singleton.2 (.slice hi)
    | tuple _ _ =>
      exact List.forall_mem_map.2 (List.forall_mem_map.2 fun id _ => .element id)
  | element id => simp [Expr.parts]
  | deleted id => simp [Expr.parts]

/-- What stands in expressions that are drawn for their roles is drawn for its own. -/
theorem Within.drawnAs {p : Expr × Role} {l : List (Expr × Role)} (h : Within p l)
    (hl : ∀ q ∈ l, q.1.DrawnAs q.2) : p.1.DrawnAs p.2 := by
  induction h with
  | here hp => exact hl p hp
  | inside hq _ ih => exact ih (hl _ hq).parts

end Expr

namespace Stmt

variable {s : Stmt} {d : Nat} {place : Build.Place}

theorem SimpleDrawn.parts (h : s.SimpleDrawn d place) : ∀ p ∈ s.parts, p.1.DrawnAs p.2 := by
  have hoption : ∀ {o : Option Expr}, (∀ e ∈ o, e.Drawn d) → ∀ e ∈ o.toList, e.DrawnAs .value :=
    fun h => Expr.drawnAs_option fun e he => .value (h e he)
  cases h with
  | assign _ hts hv =>
    exact List.forall_mem_cons.2 ⟨.value hv, List.forall_mem_map.2 fun t ht => .target (hts t ht)⟩
  | augmented hid hv =>
    refine List.forall_mem_cons.2 ⟨.target (d := d) (.name hid), ?_⟩
    exact List.forall_mem_singleton.2 (.value hv)
  | annotated hid hnote hv =>
    refine List.forall_mem_cons.2 ⟨.target (d := d) (.name hid), Expr.forall_values.2 ?_⟩
    exact List.forall_mem_cons.2 ⟨.read _, hoption hv⟩
  | delete _ => exact List.forall_mem_singleton.2 (.deleted _)
  | assert ht hm =>
    refine Expr.forall_values.2 (List.forall_mem_cons.2 ⟨.value ht, ?_⟩)
    exact Expr.drawnAs_option fun e he => (hm e he).drawnAs
  | raise _ hargs => exact Expr.forall_values.2 (List.forall_mem_singleton.2 (.raised hargs))
  | returnValue _ hv => exact Expr.forall_values.2 (hoption hv)
  | expr hv => exact Expr.forall_values.2 (List.forall_mem_singleton.2 (.value hv))
  | importModule _ => simp [Stmt.parts]
  | importFrom _ _ => simp [Stmt.parts]
  | breakLoop _ => simp [Stmt.parts]
  | continueLoop _ => simp [Stmt.parts]
  | pass => simp [Stmt.parts]

theorem Drawn.parts (h : s.Drawn d place) : ∀ p ∈ s.parts, p.1.DrawnAs p.2 := by
  cases h with
  | simple h => exact h.parts
  | branch ht => exact Expr.forall_values.2 (List.forall_mem_singleton.2 (.value ht))
  | whileLoop ht => exact Expr.forall_values.2 (List.forall_mem_singleton.2 (.value ht))
  | @forLoop d _ _ _ _ hid hi =>
    refine List.forall_mem_cons.2 ⟨.target (d := d) (.name hid), ?_⟩
    exact List.forall_mem_singleton.2 (.value hi)
  | @withBlock d _ _ id _ hc hid =>
    refine List.forall_mem_cons.2 ⟨.value hc, List.forall_mem_map.2 (Expr.drawnAs_option ?_)⟩
    intro e he
    obtain ⟨n, hn, rfl⟩ := Option.map_eq_some_iff.1 he
    exact .target (d := d) (.name (hid n hn))
  | tryBlock => exact Expr.forall_values.2 (List.forall_mem_singleton.2 (.read _))
  | function =>
    refine Expr.forall_values.2 (List.forall_mem_append.2 ⟨?_, Expr.drawnAs_option ?_⟩)
    · exact List.forall_mem_map.2 fun id _ => .read id
    · intro e he
      obtain ⟨n, -, rfl⟩ := Option.map_eq_some_iff.1 he
      exact .read n
  | classDef => exact Expr.forall_values.2 (List.forall_mem_map.2 fun id _ => .read id)

/-- The needed blocks of a random statement hold statements. -/
theorem Drawn.block_ne_nil (h : s.Drawn d place) : ∀ b ∈ s.blocks, b.1.Needed → b.2 ≠ [] := by
  have hne : ∀ {l : List Stmt}, 1 ≤ l.length → l ≠ [] := fun h => List.ne_nil_of_length_pos h
  cases h with
  | simple h => cases h <;> simp [blocks]
  | branch _ hb => simpa [blocks, Block.Needed] using hne hb
  | whileLoop _ hb => simpa [blocks] using fun _ => hne hb
  | forLoop _ _ hb => simpa [blocks] using fun _ => hne hb
  | withBlock _ _ hb => simpa [blocks] using fun _ => hne hb
  | tryBlock _ _ hb _ hh => simpa [blocks, Block.Needed] using ⟨hne hb, hne hh⟩
  | function _ _ hb => simpa [blocks] using fun _ => hne hb
  | classDef _ _ hb => simpa [blocks] using fun _ => hne hb

/-- A block that handles exceptions belongs to every statement that tries another one. -/
theorem handled_of_tried (s : Stmt) (body : List Stmt) (h : (Block.tryBody, body) ∈ s.blocks) :
    ∃ handler, (Block.handlerBody, handler) ∈ s.blocks := by
  cases s with
  | tryBlock b exc name handler final => exact ⟨handler, by simp [blocks]⟩
  | _ => simp [blocks] at h

theorem Drawn.regular (h : s.Drawn d place) : s.Regular := by
  cases h with
  | simple h => cases h <;> trivial
  | function _ hparams => exact hparams.1
  | _ => trivial

theorem Drawn.wellFormed (h : s.Drawn d place) : s.WellFormed where
  blocks := h.block_ne_nil
  handled := s.handled_of_tried
  regular := h.regular
  parts e role hwithin := by
    have hdrawn : e.DrawnAs role := hwithin.drawnAs h.parts
    exact ⟨hdrawn.allows, hdrawn.regular⟩

end Stmt

/-- Random programs are well formed, for every depth and every source. -/
theorem module_wellFormed {σ : Type} [Source σ] (depth : Nat) (source : σ) :
    ((Build.module depth).run source).1.WellFormed := by
  obtain ⟨hcount, hbody⟩ := Build.module_yields depth source
  refine ⟨hcount, fun s path h => ?_⟩
  obtain ⟨_, hs⟩ := h.drawn hbody
  exact hs.wellFormed

end FormatFuzz.Program
