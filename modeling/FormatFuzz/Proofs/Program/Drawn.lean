import FormatFuzz.Program.Builder
import FormatFuzz.Proofs.Random.Yields

namespace FormatFuzz.Program

open FormatFuzz.Random FormatFuzz.Random.Draw

inductive Literal.Drawn : Literal → Prop
  | int (n : Nat) : Drawn (.int n)
  | float {x : Decimal.Binary64} : x ∈ sampleFloats → Drawn (.float x)
  | imaginary : Drawn (.imaginary 1)
  | str {s : String} : s ∈ sampleStrings → Drawn (.str s)
  | bytes {b : List UInt8} : b ∈ sampleBytes → Drawn (.bytes b)
  | bool (b : Bool) : Drawn (.bool b)
  | none : Drawn .none
  | ellipsis : Drawn .ellipsis

inductive Expr.Leaf : Expr → Prop
  | name {id : String} : id ∈ names → Leaf (.name id .load)
  | constant {v : Literal} : v.Drawn → Leaf (.constant v)

inductive Expr.LeafSlice : Expr → Prop
  | slice {l u s : Option Expr} : (∀ e ∈ l, e.Leaf) → (∀ e ∈ u, e.Leaf) → (∀ e ∈ s, e.Leaf) →
      LeafSlice (.slice l u s)

def NamesDrawn (ns : List String) : Prop := ns.Nodup ∧ ∀ n ∈ ns, n ∈ names

/-- The expressions that are drawn for a depth. The value of an attribute and the index of an item are
drawn two levels below, all other parts one level below. -/
inductive Expr.Drawn : Nat → Expr → Prop
  | leaf {d : Nat} {e : Expr} : e.Leaf → Drawn d e
  | binary {d : Nat} {l r : Expr} {o : BinaryOp} : Drawn (d + 1) l → Drawn (d + 1) r →
      Drawn (d + 2) (.binary l o r)
  | unary {d : Nat} {e : Expr} {o : UnaryOp} : Drawn (d + 1) e → Drawn (d + 2) (.unary o e)
  | bool {d : Nat} {vs : List Expr} {o : BoolOp} : 2 ≤ vs.length → (∀ v ∈ vs, Drawn (d + 1) v) →
      Drawn (d + 2) (.bool o vs)
  | compare {d : Nat} {l : Expr} {os : List CompareOp} {rs : List Expr} : os.length = rs.length →
      1 ≤ rs.length → Drawn (d + 1) l → (∀ r ∈ rs, Drawn (d + 1) r) →
      Drawn (d + 2) (.compare l os rs)
  | call {d : Nat} {id : String} {args : List Expr} {kws : List (String × Expr)} : id ∈ names →
      (∀ a ∈ args, Drawn (d + 1) a) → NamesDrawn (kws.map Prod.fst) →
      (∀ k ∈ kws, Drawn (d + 1) k.2) → Drawn (d + 2) (.call (.name id .load) args kws)
  | method {d : Nat} {v : Expr} {attr : String} {args : List Expr} {kws : List (String × Expr)} :
      Drawn d v → attr ∈ attributeNames → (∀ a ∈ args, Drawn (d + 1) a) →
      NamesDrawn (kws.map Prod.fst) → (∀ k ∈ kws, Drawn (d + 1) k.2) →
      Drawn (d + 2) (.call (.attribute v attr .load) args kws)
  | attribute {d : Nat} {v : Expr} {attr : String} : Drawn d v → attr ∈ attributeNames →
      Drawn (d + 2) (.attribute v attr .load)
  | item {d : Nat} {id : String} {i : Expr} : id ∈ names → Drawn d i →
      Drawn (d + 2) (.subscript (.name id .load) i .load)
  | slice {d : Nat} {id : String} {i : Expr} : id ∈ names → i.LeafSlice →
      Drawn (d + 2) (.subscript (.name id .load) i .load)
  | list {d : Nat} {es : List Expr} : (∀ e ∈ es, Drawn (d + 1) e) → Drawn (d + 2) (.list es .load)
  | tuple {d : Nat} {es : List Expr} : (∀ e ∈ es, Drawn (d + 1) e) → Drawn (d + 2) (.tuple es .load)
  | set {d : Nat} {es : List Expr} : 1 ≤ es.length → (∀ e ∈ es, Drawn (d + 1) e) →
      Drawn (d + 2) (.set es)
  | dict {d : Nat} {ks vs : List Expr} : vs.length = ks.length → (∀ k ∈ ks, Drawn (d + 1) k) →
      (∀ v ∈ vs, Drawn (d + 1) v) → Drawn (d + 2) (.dict ks vs)
  | conditional {d : Nat} {t b o : Expr} : Drawn (d + 1) t → Drawn (d + 1) b → Drawn (d + 1) o →
      Drawn (d + 2) (.conditional t b o)
  | lambda {d : Nat} {ps : List String} {b : Expr} : NamesDrawn ps → Drawn (d + 1) b →
      Drawn (d + 2) (.lambda ps b)
  | comprehension {d : Nat} {id : String} {e i : Expr} {cs : List Expr} : id ∈ names →
      Drawn (d + 1) e → Drawn (d + 1) i → (∀ c ∈ cs, Drawn (d + 1) c) →
      Drawn (d + 2) (.comprehension e (.name id .store) i cs)
  | walrus {d : Nat} {id : String} {v : Expr} : id ∈ names → Drawn (d + 1) v →
      Drawn (d + 2) (.walrus (.name id .store) v)

inductive Expr.TargetDrawn (d : Nat) : Expr → Prop
  | name {id : String} : id ∈ names → TargetDrawn d (.name id .store)
  | attribute {id attr : String} : id ∈ names → attr ∈ attributeNames →
      TargetDrawn d (.attribute (.name id .load) attr .store)
  | item {id : String} {i : Expr} : id ∈ names → i.Drawn (max d 2 - 1) →
      TargetDrawn d (.subscript (.name id .load) i .store)
  | slice {id : String} {i : Expr} : id ∈ names → i.LeafSlice →
      TargetDrawn d (.subscript (.name id .load) i .store)
  | tuple {ids : List String} : 2 ≤ ids.length → (∀ id ∈ ids, id ∈ names) →
      TargetDrawn d (.tuple (ids.map (.name · .store)) .store)

inductive Stmt.SimpleDrawn (d : Nat) (place : Build.Place) : Stmt → Prop
  | assign {ts : List Expr} {v : Expr} : 1 ≤ ts.length → (∀ t ∈ ts, t.TargetDrawn d) → v.Drawn d →
      SimpleDrawn d place (.assign ts v)
  | augmented {id : String} {o : BinaryOp} {v : Expr} : id ∈ names → v.Drawn d →
      SimpleDrawn d place (.augmented (.name id .store) o v)
  | annotated {id note : String} {v : Option Expr} : id ∈ names → note ∈ names →
      (∀ e ∈ v, e.Drawn d) →
      SimpleDrawn d place (.annotated (.name id .store) (.name note .load) v)
  | delete {id : String} : id ∈ names → SimpleDrawn d place (.delete (.name id .del))
  | assert {t : Expr} {m : Option Expr} : t.Drawn d → (∀ e ∈ m, e.Leaf) →
      SimpleDrawn d place (.assert t m)
  | raise {id : String} {args : List Expr} : id ∈ exceptionNames → (∀ a ∈ args, a.Drawn d) →
      SimpleDrawn d place (.raise (.call (.name id .load) args []))
  | importModule {m : String} : m ∈ moduleNames → SimpleDrawn d place (.importModule m)
  | importFrom {m n : String} : m ∈ moduleNames → n ∈ names → SimpleDrawn d place (.importFrom m n)
  | returnValue {v : Option Expr} : place.inFunction = true → (∀ e ∈ v, e.Drawn d) →
      SimpleDrawn d place (.returnValue v)
  | breakLoop : place.inLoop = true → SimpleDrawn d place .breakLoop
  | continueLoop : place.inLoop = true → SimpleDrawn d place .continueLoop
  | pass : SimpleDrawn d place .pass
  | expr {v : Expr} : v.Drawn d → SimpleDrawn d place (.expr v)

/-- The statements that are drawn for a depth and a place. The parts of a statement with bodies are
drawn one level below; only the alternative of a conditional and what is done finally may be empty. -/
inductive Stmt.Drawn : Nat → Build.Place → Stmt → Prop
  | simple {d : Nat} {place : Build.Place} {s : Stmt} : s.SimpleDrawn d place → Drawn d place s
  | branch {d : Nat} {place : Build.Place} {t : Expr} {b o : List Stmt} : t.Drawn (d + 1) →
      1 ≤ b.length → (∀ s ∈ b, Drawn (d + 1) place s) → (∀ s ∈ o, Drawn (d + 1) place s) →
      Drawn (d + 2) place (.branch t b o)
  | whileLoop {d : Nat} {place : Build.Place} {t : Expr} {b : List Stmt} : t.Drawn (d + 1) →
      1 ≤ b.length → (∀ s ∈ b, Drawn (d + 1) { place with inLoop := true } s) →
      Drawn (d + 2) place (.whileLoop t b)
  | forLoop {d : Nat} {place : Build.Place} {id : String} {i : Expr} {b : List Stmt} : id ∈ names →
      i.Drawn (d + 1) → 1 ≤ b.length → (∀ s ∈ b, Drawn (d + 1) { place with inLoop := true } s) →
      Drawn (d + 2) place (.forLoop (.name id .store) i b)
  | withBlock {d : Nat} {place : Build.Place} {c : Expr} {id : Option String} {b : List Stmt} :
      c.Drawn (d + 1) → (∀ n ∈ id, n ∈ names) → 1 ≤ b.length → (∀ s ∈ b, Drawn (d + 1) place s) →
      Drawn (d + 2) place (.withBlock c (id.map (.name · .store)) b)
  | tryBlock {d : Nat} {place : Build.Place} {id : String} {n : Option String}
      {b h f : List Stmt} : id ∈ exceptionNames → (∀ x ∈ n, x = "exc") → 1 ≤ b.length →
      (∀ s ∈ b, Drawn (d + 1) place s) → 1 ≤ h.length → (∀ s ∈ h, Drawn (d + 1) place s) →
      (∀ s ∈ f, Drawn (d + 1) place s) →
      Drawn (d + 2) place (.tryBlock b (.name id .load) n h f)
  | function {d : Nat} {place : Build.Place} {n : String} {ps ds : List String}
      {b : List Stmt} {r : Option String} : n ∈ names → NamesDrawn ps → 1 ≤ b.length →
      (∀ s ∈ b, Drawn (d + 1) { inFunction := true, inLoop := false } s) → (∀ id ∈ ds, id ∈ names) →
      (∀ id ∈ r, id ∈ names) →
      Drawn (d + 2) place
        (.function ("f" ++ n) ps b (ds.map (.name · .load)) (r.map (.name · .load)))
  | classDef {d : Nat} {place : Build.Place} {n : String} {bs : List String} {b : List Stmt} :
      n ∈ names → (∀ id ∈ bs, id ∈ names) → 1 ≤ b.length →
      (∀ s ∈ b, Drawn (d + 1) { inFunction := false, inLoop := false } s) →
      Drawn (d + 2) place (.classDef ("C" ++ n) (bs.map (.name · .load)) b)

namespace Build

variable {σ : Type}

theorem keywords_yields {value : Draw σ Expr} {P : Expr → Prop} (hvalue : Yields value P)
    (ns : List String) :
    Yields (keywords value ns) fun kws => kws.map Prod.fst = ns ∧ ∀ k ∈ kws, P k.2 := by
  induction ns with
  | nil => exact yields_pure ⟨rfl, by simp⟩
  | cons n ns ih =>
    refine hvalue.bind fun v hv => ih.bind fun kws hkws => ?_
    apply yields_pure
    refine ⟨by rw [List.map_cons, hkws.1], ?_⟩
    intro k hk
    rcases List.mem_cons.1 hk with rfl | hk
    · exact hv
    · exact hkws.2 k hk

variable [Source σ]

theorem name_yields (ctx : Context) :
    Yields (name ctx : Draw σ Expr) fun e => ∃ id ∈ names, e = .name id ctx := by
  refine (choose_yields _).bind ?_
  intro id hid
  exact yields_pure ⟨id, hid, rfl⟩

theorem exists_names {es : List Expr} {ctx : Context}
    (h : ∀ e ∈ es, ∃ id ∈ names, e = .name id ctx) :
    ∃ ids : List String, es = ids.map (.name · ctx) ∧ ∀ id ∈ ids, id ∈ names := by
  induction es with
  | nil => exact ⟨[], rfl, by simp⟩
  | cons e es ih =>
    obtain ⟨id, hid, rfl⟩ := h e List.mem_cons_self
    obtain ⟨ids, rfl, hids⟩ := ih fun e he => h e (List.mem_cons_of_mem _ he)
    refine ⟨id :: ids, rfl, ?_⟩
    intro n hn
    rcases List.mem_cons.1 hn with rfl | hn
    · exact hid
    · exact hids n hn

theorem exists_optional_name {o : Option Expr} {id : String} {ctx : Context}
    (ho : ∀ e ∈ o, e = .name id ctx) (hid : id ∈ names) :
    ∃ n : Option String, o = n.map (.name · ctx) ∧ ∀ x ∈ n, x ∈ names := by
  cases o with
  | none => exact ⟨none, rfl, by simp⟩
  | some e =>
    refine ⟨some id, by rw [ho e rfl]; rfl, ?_⟩
    intro x hx
    rw [← Option.some.inj hx]
    exact hid

theorem literal_yields : Yields (literal : Draw σ Literal) Literal.Drawn := by
  refine yields_bind ?_
  intro kind
  split
  · refine yields_bind fun places => yields_bind fun n => ?_
    exact yields_pure (.int _)
  · refine (choose_yields _).bind fun x hx => ?_
    exact yields_pure (.float hx)
  · refine (choose_yields _).bind fun s hs => ?_
    exact yields_pure (.str hs)
  · refine (choose_yields _).bind fun b hb => ?_
    exact yields_pure (.bytes hb)
  · refine (choose_yields _).mono fun v hv => ?_
    simp only [List.mem_cons, List.not_mem_nil, or_false] at hv
    rcases hv with rfl | rfl | rfl
    · exact .bool true
    · exact .bool false
    · exact .none
  · refine (choose_yields _).mono fun v hv => ?_
    simp only [List.mem_cons, List.not_mem_nil, or_false] at hv
    rcases hv with rfl | rfl
    · exact .ellipsis
    · exact .imaginary

theorem leaf_yields : Yields (leaf : Draw σ Expr) Expr.Leaf := by
  refine yields_bind fun c => yields_ite (fun _ => ?_) (fun _ => ?_)
  · refine (name_yields _).mono ?_
    rintro e ⟨id, hid, rfl⟩
    exact .name hid
  · refine literal_yields.bind fun v hv => ?_
    exact yields_pure (.constant hv)

theorem params_yields (count : Nat) : Yields (params count : Draw σ (List String)) NamesDrawn :=
  distinct_yields (by decide) count

theorem several_yields {α : Type} {draw : Draw σ α} {P : α → Prop} (low high : Nat)
    (h : low ≤ high) (hdraw : Yields draw P) :
    Yields (several low high draw) fun l => (low ≤ l.length ∧ l.length ≤ high) ∧ ∀ x ∈ l, P x := by
  refine (between_yields (by omega)).bind fun n hn => ?_
  refine (times_yields hdraw n.toNat).mono fun l hl => ⟨?_, hl.2⟩
  omega

theorem accessOf_yields {value : Draw σ Expr} {P : Expr → Prop} (hvalue : Yields value P)
    (ctx : Context) :
    Yields (accessOf value ctx) fun e =>
      ∃ v attr, e = .attribute v attr ctx ∧ P v ∧ attr ∈ attributeNames := by
  refine hvalue.bind fun v hv => ?_
  refine (choose_yields _).bind fun attr hattr => ?_
  exact yields_pure ⟨v, attr, rfl, hv, hattr⟩

theorem optional_leaf_yields (blanks : Nat) {x : Expr} {P : Expr → Prop} (hx : P x) :
    Yields (optional blanks x : Draw σ (Option Expr)) fun o => ∀ e ∈ o, P e := by
  refine (optional_yields blanks x).mono fun o ho e he => ?_
  rw [ho e he]
  exact hx

theorem slice_yields : Yields (slice : Draw σ Expr) Expr.LeafSlice := by
  refine leaf_yields.bind fun lower hlower => ?_
  refine (optional_leaf_yields 1 hlower).bind fun l hl => ?_
  refine leaf_yields.bind fun upper hupper => ?_
  refine (optional_leaf_yields 1 hupper).bind fun u hu => ?_
  refine leaf_yields.bind fun step hstep => ?_
  refine (optional_leaf_yields 2 hstep).bind fun s hs => ?_
  exact yields_pure (.slice hl hu hs)

theorem itemOf_yields {index : Draw σ Expr} {P : Expr → Prop} (hindex : Yields index P)
    (ctx : Context) :
    Yields (itemOf index ctx) fun e =>
      ∃ id i, e = .subscript (.name id .load) i ctx ∧ id ∈ names ∧ (P i ∨ i.LeafSlice) := by
  have hrest : ∀ i, P i ∨ i.LeafSlice →
      Yields (do return .subscript (← name .load) i ctx : Draw σ Expr) fun e =>
        ∃ id i, e = .subscript (.name id .load) i ctx ∧ id ∈ names ∧ (P i ∨ i.LeafSlice) := by
    intro i hi
    refine (name_yields _).bind ?_
    rintro _ ⟨id, hid, rfl⟩
    exact yields_pure ⟨id, i, rfl, hid, hi⟩
  refine yields_bind fun c => yields_ite (fun _ => ?_) (fun _ => ?_)
  · exact slice_yields.bind fun i hi => hrest i (.inr hi)
  · exact hindex.bind fun i hi => hrest i (.inl hi)

theorem composite_yields {d : Nat} {part access item : Draw σ Expr}
    (hpart : Yields part (Expr.Drawn (d + 1)))
    (haccess : Yields access fun e =>
      ∃ v attr, e = .attribute v attr .load ∧ v.Drawn d ∧ attr ∈ attributeNames)
    (hitem : Yields item (Expr.Drawn (d + 2))) :
    Yields (composite part access item) (Expr.Drawn (d + 2)) := by
  have hseveral : ∀ low high : Nat, low ≤ high → Yields (several low high part) fun l =>
      (low ≤ l.length ∧ l.length ≤ high) ∧ ∀ e ∈ l, e.Drawn (d + 1) :=
    fun low high h => several_yields low high h hpart
  refine yields_bind fun kind => ?_
  split
  · refine hpart.bind fun l hl => yields_bind fun o => hpart.bind fun r hr => ?_
    exact yields_pure (.binary hl hr)
  · refine yields_bind fun o => hpart.bind fun e he => ?_
    exact yields_pure (.unary he)
  · refine yields_bind fun o => (hseveral 2 3 (by omega)).bind fun vs hvs => ?_
    exact yields_pure (.bool hvs.1.1 hvs.2)
  · refine (hseveral 1 2 (by omega)).bind fun rs hrs => hpart.bind fun l hl => ?_
    refine (times_yields (choose_yields _) rs.length).bind fun os hos => ?_
    exact yields_pure (.compare hos.1 hrs.1.1 hl hrs.2)
  · -- the function is a name or an attribute, which its name's form tells apart
    have hrest : ∀ f : Expr, (∀ args kws, (∀ a ∈ args, Expr.Drawn (d + 1) a) →
        NamesDrawn (kws.map Prod.fst) → (∀ k ∈ kws, Expr.Drawn (d + 1) k.2) →
        Expr.Drawn (d + 2) (.call f args kws)) →
        Yields (do
          let keywordNames ← distinct names (← between 0 2).toNat
          let keywords ← keywords part keywordNames
          return .call f (← several 0 3 part) keywords : Draw σ Expr) (Expr.Drawn (d + 2)) := by
      intro f hf
      refine yields_bind fun count => (params_yields count.toNat).bind fun ns hns => ?_
      refine (keywords_yields hpart ns).bind fun kws hkws => ?_
      refine (hseveral 0 3 (by omega)).bind fun args hargs => ?_
      exact yields_pure (hf args kws hargs.2 (hkws.1 ▸ hns) hkws.2)
    refine yields_bind fun c => yields_ite (fun _ => ?_) (fun _ => ?_)
    · refine (name_yields _).bind ?_
      rintro _ ⟨id, hid, rfl⟩
      exact hrest _ fun args kws => .call hid
    · refine haccess.bind ?_
      rintro _ ⟨v, attr, rfl, hv, hattr⟩
      exact hrest _ fun args kws => .method hv hattr
  · refine haccess.mono ?_
    rintro _ ⟨v, attr, rfl, hv, hattr⟩
    exact .attribute hv hattr
  · exact hitem
  · refine (hseveral 0 4 (by omega)).bind fun es hes => ?_
    exact yields_pure (.list hes.2)
  · refine (hseveral 0 4 (by omega)).bind fun es hes => ?_
    exact yields_pure (.tuple hes.2)
  · refine (hseveral 1 3 (by omega)).bind fun es hes => ?_
    exact yields_pure (.set hes.1.1 hes.2)
  · refine (hseveral 0 3 (by omega)).bind fun ks hks => ?_
    refine (times_yields hpart ks.length).bind fun vs hvs => ?_
    exact yields_pure (.dict hvs.1 hks.2 hvs.2)
  · refine hpart.bind fun t ht => hpart.bind fun b hb => hpart.bind fun o ho => ?_
    exact yields_pure (.conditional ht hb ho)
  · refine yields_bind fun count => (params_yields count.toNat).bind fun ps hps => ?_
    refine hpart.bind fun b hb => ?_
    exact yields_pure (.lambda hps hb)
  · refine (name_yields _).bind ?_
    rintro _ ⟨id, hid, rfl⟩
    refine hpart.bind fun i hi => (hseveral 0 1 (by omega)).bind fun cs hcs => ?_
    refine hpart.bind fun e he => ?_
    exact yields_pure (.comprehension hid he hi hcs.2)
  · refine (name_yields _).bind ?_
    rintro _ ⟨id, hid, rfl⟩
    refine hpart.bind fun v hv => ?_
    exact yields_pure (.walrus hid hv)

theorem expr_yields (depth : Nat) : Yields (expr depth : Draw σ Expr) (Expr.Drawn depth) := by
  induction depth using expr.induct with
  | case1 => exact leaf_yields.mono fun _ => .leaf
  | case2 => exact leaf_yields.mono fun _ => .leaf
  | case3 d ihd' ihd =>
    rw [expr]
    refine yields_bind fun c => yields_ite (fun _ => ?_) (fun _ => ?_)
    · exact leaf_yields.mono fun _ => .leaf
    · have hvalue : Yields (if d = 0 then name .load else expr d : Draw σ Expr) (Expr.Drawn d) := by
        refine yields_ite (fun _ => (name_yields _).mono ?_) (fun _ => ihd)
        rintro _ ⟨id, hid, rfl⟩
        exact .leaf (.name hid)
      refine composite_yields ihd' (accessOf_yields hvalue _) ((itemOf_yields ihd _).mono ?_)
      rintro _ ⟨id, i, rfl, hid, hi | hi⟩
      · exact .item hid hi
      · exact .slice hid hi

theorem target_yields (depth : Nat) :
    Yields (target depth : Draw σ Expr) (Expr.TargetDrawn depth) := by
  refine yields_bind fun kind => ?_
  split
  · refine (several_yields 2 3 (by omega) (name_yields .store)).bind ?_
    rintro es ⟨⟨hlen, _⟩, hes⟩
    obtain ⟨ids, rfl, hids⟩ := exists_names hes
    exact yields_pure (.tuple (by simpa using hlen) hids)
  · refine (accessOf_yields (name_yields .load) .store).mono ?_
    rintro _ ⟨_, attr, rfl, ⟨id, hid, rfl⟩, hattr⟩
    exact .attribute hid hattr
  · refine (itemOf_yields (expr_yields (max depth 2 - 1)) .store).mono ?_
    rintro _ ⟨id, i, rfl, hid, hi | hi⟩
    · exact .item hid hi
    · exact .slice hid hi
  · refine (name_yields _).mono ?_
    rintro _ ⟨id, hid, rfl⟩
    exact .name hid

theorem exceptionName_yields :
    Yields (exceptionName : Draw σ Expr) fun e => ∃ id ∈ exceptionNames, e = .name id .load := by
  refine (choose_yields _).bind ?_
  intro id hid
  exact yields_pure ⟨id, hid, rfl⟩

/-- A statement that is allowed only in a function or a loop is drawn only there. -/
theorem simpleStmt_yields (depth : Nat) (place : Place) :
    Yields (simpleStmt depth place : Draw σ Stmt) (Stmt.SimpleDrawn depth place) := by
  have hexpr := expr_yields (σ := σ) depth
  refine yields_bind fun kind => ?_
  split
  · refine (several_yields 1 2 (by omega) (target_yields depth)).bind ?_
    rintro ts ⟨⟨hlen, _⟩, hts⟩
    refine hexpr.bind fun v hv => ?_
    exact yields_pure (.assign hlen hts hv)
  · refine (name_yields _).bind ?_
    rintro _ ⟨id, hid, rfl⟩
    refine yields_bind fun o => hexpr.bind fun v hv => ?_
    exact yields_pure (.augmented hid hv)
  · refine (name_yields _).bind ?_
    rintro _ ⟨id, hid, rfl⟩
    refine (name_yields _).bind ?_
    rintro _ ⟨note, hnote, rfl⟩
    refine hexpr.bind fun v hv => (optional_leaf_yields 1 hv).bind fun o ho => ?_
    exact yields_pure (.annotated hid hnote ho)
  · refine (name_yields _).bind ?_
    rintro _ ⟨id, hid, rfl⟩
    exact yields_pure (.delete hid)
  · refine hexpr.bind fun t ht => leaf_yields.bind fun m hm => ?_
    refine (optional_leaf_yields 1 hm).bind fun o ho => ?_
    exact yields_pure (.assert ht ho)
  · refine exceptionName_yields.bind ?_
    rintro _ ⟨id, hid, rfl⟩
    refine (several_yields 0 1 (by omega) hexpr).bind fun args hargs => ?_
    exact yields_pure (.raise hid hargs.2)
  · refine (choose_yields _).bind fun m hm => ?_
    refine yields_bind fun c => yields_ite (fun _ => ?_) (fun _ => ?_)
    · exact yields_pure (.importModule hm)
    · refine (choose_yields _).bind fun n hn => ?_
      exact yields_pure (.importFrom hm hn)
  · next hplace =>
    refine hexpr.bind fun v hv => (optional_leaf_yields 1 hv).bind fun o ho => ?_
    exact yields_pure (.returnValue hplace ho)
  · next hplace =>
    refine (choose_yields _).mono fun s hs => ?_
    simp only [List.mem_cons, List.not_mem_nil, or_false] at hs
    rcases hs with rfl | rfl
    · exact .breakLoop hplace
    · exact .continueLoop hplace
  · exact yields_pure .pass
  · refine hexpr.bind fun v hv => ?_
    exact yields_pure (.expr hv)

theorem compoundWith_yields {d : Nat} {body : Place → Draw σ (List Stmt)}
    (hbody : ∀ place, Yields (body place) fun b => 1 ≤ b.length ∧ ∀ s ∈ b, s.Drawn (d + 1) place)
    (place : Place) :
    Yields (compoundWith (d + 1) body place) (Stmt.Drawn (d + 2) place) := by
  have hexpr := expr_yields (σ := σ) (d + 1)
  refine yields_bind fun kind => ?_
  split
  · have hrest : ∀ o : List Stmt, (∀ s ∈ o, s.Drawn (d + 1) place) →
        Yields (do
          let test ← expr (d + 1)
          return .branch test (← body place) o : Draw σ Stmt) (Stmt.Drawn (d + 2) place) := by
      intro o ho
      refine hexpr.bind fun t ht => (hbody place).bind fun b hb => ?_
      exact yields_pure (.branch ht hb.1 hb.2 ho)
    refine yields_bind fun c => yields_ite (fun _ => ?_) (fun _ => ?_)
    · exact (hbody place).bind fun o ho => hrest o ho.2
    · exact hrest [] (by simp)
  · refine hexpr.bind fun t ht => (hbody _).bind fun b hb => ?_
    exact yields_pure (.whileLoop ht hb.1 hb.2)
  · refine (name_yields _).bind ?_
    rintro _ ⟨id, hid, rfl⟩
    refine hexpr.bind fun i hi => (hbody _).bind fun b hb => ?_
    exact yields_pure (.forLoop hid hi hb.1 hb.2)
  · refine hexpr.bind fun c hc => (name_yields _).bind ?_
    rintro _ ⟨id, hid, rfl⟩
    refine (optional_yields 1 _).bind fun o ho => (hbody place).bind fun b hb => ?_
    obtain ⟨n, rfl, hn⟩ := exists_optional_name ho hid
    exact yields_pure (.withBlock hc hn hb.1 hb.2)
  · have hrest : ∀ (id : String) (n : Option String) (h f : List Stmt), id ∈ exceptionNames →
        (∀ x ∈ n, x = "exc") → (1 ≤ h.length ∧ ∀ s ∈ h, s.Drawn (d + 1) place) →
        (∀ s ∈ f, s.Drawn (d + 1) place) →
        Yields (do return .tryBlock (← body place) (.name id .load) n h f : Draw σ Stmt)
          (Stmt.Drawn (d + 2) place) := by
      intro id n h f hid hn hh hf
      refine (hbody place).bind fun b hb => ?_
      exact yields_pure (.tryBlock hid hn hb.1 hb.2 hh.1 hh.2 hf)
    refine exceptionName_yields.bind ?_
    rintro _ ⟨id, hid, rfl⟩
    refine (optional_yields 1 _).bind fun n hn => (hbody place).bind fun h hh => ?_
    refine yields_bind fun c => yields_ite (fun _ => ?_) (fun _ => ?_)
    · exact (hbody place).bind fun f hf => hrest id n h f hid hn hh hf.2
    · exact hrest id n h [] hid hn hh (by simp)
  · refine (several_yields 0 1 (by omega) (name_yields .load)).bind ?_
    rintro ds ⟨_, hds⟩
    obtain ⟨ids, rfl, hids⟩ := exists_names hds
    refine (choose_yields _).bind fun n hn => ?_
    refine yields_bind fun count => (params_yields count.toNat).bind fun ps hps => ?_
    refine (hbody _).bind fun b hb => (name_yields _).bind ?_
    rintro _ ⟨id, hid, rfl⟩
    refine (optional_yields 1 _).bind fun o ho => ?_
    obtain ⟨r, rfl, hr⟩ := exists_optional_name ho hid
    exact yields_pure (.function hn hps hb.1 hb.2 hids hr)
  · refine (choose_yields _).bind fun n hn => ?_
    refine (several_yields 0 2 (by omega) (name_yields .load)).bind ?_
    rintro bs ⟨_, hbs⟩
    obtain ⟨ids, rfl, hids⟩ := exists_names hbs
    refine (hbody _).bind fun b hb => ?_
    exact yields_pure (.classDef hn hids hb.1 hb.2)

theorem stmt_yields (depth : Nat) (place : Place) :
    Yields (stmt depth place : Draw σ Stmt) (Stmt.Drawn depth place) := by
  induction depth, place using stmt.induct with
  | case1 place => exact (simpleStmt_yields 0 place).mono fun _ => .simple
  | case2 place => exact (simpleStmt_yields 1 place).mono fun _ => .simple
  | case3 d place ih =>
    rw [stmt]
    refine yields_bind fun c => yields_ite (fun _ => ?_) (fun _ => ?_)
    · exact (simpleStmt_yields _ place).mono fun _ => .simple
    · refine compoundWith_yields (fun place => ?_) place
      refine (several_yields 1 3 (by omega) (ih place)).mono ?_
      exact fun b hb => ⟨hb.1.1, hb.2⟩

/-- A random program has one to four statements at the top. -/
theorem module_yields (depth : Nat) :
    Yields (module depth : Draw σ Module) fun m =>
      (1 ≤ m.body.length ∧ m.body.length ≤ 4) ∧
        ∀ s ∈ m.body, s.Drawn depth { inFunction := false, inLoop := false } := by
  refine (several_yields 1 4 (by omega) (stmt_yields depth _)).bind ?_
  exact fun b hb => yields_pure hb

end Build

end FormatFuzz.Program
