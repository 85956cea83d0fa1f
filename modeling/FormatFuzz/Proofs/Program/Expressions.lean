import FormatFuzz.Proofs.Program.Printed

namespace FormatFuzz.Program

open FormatFuzz.Program.Lex FormatFuzz.Program.Piece

theorem isName_attributeNames : ∀ n ∈ attributeNames, Token.isName n.toList = true := by
  decide

theorem Expr.printed_attribute {v : Expr} {attr : String} (hv : v.Printed)
    (hattr : attr ∈ attributeNames) (ctx : Context) : (Expr.attribute v attr ctx).Printed := by
  have hrow := hv.pointed.append (leads_point (isName_attributeNames attr hattr))
  exact printed_of_row hrow (fun _ => Named.closed) (fun _ => Named.pointed)
    (fun _ => rfl) rfl nofun

theorem Expr.printed_call {f : Expr} {args : List Expr} {kws : List (String × Expr)} (hf : f.Printed)
    (hargs : ∀ a ∈ args, a.Printed) (hns : NamesDrawn (kws.map Prod.fst))
    (hkws : ∀ k ∈ kws, k.2.Printed) : (Expr.call f args kws).Printed := by
  have hparts : ∀ row ∈ rows .test args ++ keywordRows kws, Operand row := by
    intro row hrow
    rcases List.mem_append.1 hrow with hrow | hrow
    · exact operand_of_mem_rows hargs (by decide) row hrow
    · exact operand_keywordRows hns.2 hkws row hrow
  have hbrackets : Leads Between (enclose "(" ")" (commas (rows .test args ++ keywordRows kws)))
      Bracketed 0 := leads_enclose (by decide) (leads_commas hparts)
  have hrow := (hf.operand .atom (by decide)).append (hbrackets.mono (fun _ => .inr) fun _ => id)
  exact printed_of_row hrow (fun _ => Bracketed.closed) (fun _ => Bracketed.pointed)
    (fun _ => rfl) rfl nofun

/-- The index of an item may be a slice; a tuple in it stands without brackets. -/
theorem exists_index {v i : Expr} (hi : i.Printed ∨ i.LeafSlice) (ctx : Context) :
    ∃ inner, Leads Open inner Between 0 ∧ ∀ level,
      (Expr.subscript v i ctx).pieces level = v.pieces .atom ++ enclose "[" "]" inner := by
  by_cases htuple : ∃ e es c, i = .tuple (e :: es) c
  · obtain ⟨e, es, c, rfl⟩ := htuple
    have helements : (Expr.tuple (e :: es) c).Printed := hi.resolve_right nofun
    refine ⟨items (rows .test (e :: es)), leads_items ?_, fun _ => rfl⟩
    intro row hrow
    rw [rows_eq_map] at hrow
    obtain ⟨x, hx, rfl⟩ := List.mem_map.1 hrow
    exact helements.elements _ _ rfl x hx .test (by decide)
  · refine ⟨i.pieces .test, ?_, fun _ => ?_⟩
    · exact hi.elim (fun h => (h.operand .test (by decide)).between) fun h => h.leads .test
    · -- the printed form of a subscript depends on its index only if that is a tuple with elements
      cases i with
      | tuple es c =>
        cases es with
        | nil => rfl
        | cons e es => exact absurd ⟨e, es, c, rfl⟩ htuple
      | _ => rfl

theorem Expr.printed_subscript {v i : Expr} (hv : v.Printed) (hi : i.Printed ∨ i.LeafSlice)
    (ctx : Context) : (Expr.subscript v i ctx).Printed := by
  obtain ⟨inner, hinner, hpieces⟩ := exists_index (v := v) hi ctx
  have hbrackets : Leads Between (enclose "[" "]" inner) Bracketed 0 :=
    leads_enclose (by decide) hinner
  have hrow := (hv.operand .atom (by decide)).append (hbrackets.mono (fun _ => .inr) fun _ => id)
  exact printed_of_row hrow (fun _ => Bracketed.closed) (fun _ => Bracketed.pointed) hpieces rfl nofun

/-- A tuple stands in brackets but for the places where its surroundings are as loose. -/
theorem Expr.printed_tuple {es : List Expr} (hes : ∀ e ∈ es, e.Printed) (ctx : Context) :
    (Expr.tuple es ctx).Printed := by
  have hrows : ∀ row ∈ rows .test es, Operand row := operand_of_mem_rows hes (by decide)
  have hparens : Leads Between (enclose "(" ")" (items (rows .test es))) Bracketed 0 :=
    leads_enclose (by decide) (leads_items hrows)
  refine ⟨fun level hlevel => ?_, ?_, ?_⟩
  · have htight : (es.isEmpty || decide (level > Level.tuple)) = true := by
      rw [decide_eq_true hlevel, Bool.or_true]
    show Operand (parens (es.isEmpty || decide (level > Level.tuple)) (items (rows .test es)))
    rw [htight]
    exact hparens.mono (fun _ => .inl) fun _ => Bracketed.closed
  · show Leads Open (parens (es.isEmpty || decide (Level.atom > Level.tuple)) (items (rows .test es)) ++
      if (tuple es ctx).isInteger then [gap] else []) Pointed 0
    simpa [parens, Expr.isInteger, Level.atom, Level.tuple] using
      hparens.mono (fun _ => .inl) fun _ => Bracketed.pointed
  · intro es' ctx' heq x hx level hlevel
    injection heq with heq
    exact (hes x (heq ▸ hx)).operand level hlevel

/-- Constructs with an operator stand in brackets where something binds tighter. -/
theorem Expr.printed_binary {l r : Expr} (hl : l.Printed) (hr : r.Printed) (o : BinaryOp) :
    (Expr.binary l o r).Printed := by
  have hlevels : Level.tuple < o.operandLevels.1 ∧ Level.tuple < o.operandLevels.2 ∧
      o.level < Level.atom := by
    cases o with
    | _ => decide
  have hrow := ((hl.operand _ hlevels.1).append o.leads).append (hr.operand _ hlevels.2.1)
  exact printed_of_parens hrow hlevels.2.2 (fun _ => rfl) rfl nofun

theorem Expr.printed_unary {e : Expr} (he : e.Printed) (o : UnaryOp) : (Expr.unary o e).Printed := by
  have hlevels : Level.tuple < o.level ∧ o.level < Level.atom := by
    cases o with
    | _ => decide
  have hrow := o.leads.append (he.operand o.level hlevels.1)
  exact printed_of_parens hrow hlevels.2 (fun _ => rfl) rfl nofun

theorem Expr.printed_bool {vs : List Expr} (hne : vs ≠ []) (h : ∀ v ∈ vs, v.Printed) (o : BoolOp) :
    (Expr.bool o vs).Printed := by
  have hspec : Token.isName o.text.toList = true ∧ Level.tuple < o.level ∧ o.level < Level.atom := by
    cases o with
    | _ => decide
  have hrow := operand_chain hspec.1 hne h (Level.tuple_lt_next hspec.2.1)
  exact printed_of_parens hrow hspec.2.2 (fun _ => rfl) rfl nofun

theorem Expr.printed_compare {l : Expr} {rs : List Expr} (hl : l.Printed) (hrs : ∀ r ∈ rs, r.Printed)
    (os : List CompareOp) : (Expr.compare l os rs).Printed := by
  have hrows : ∀ row ∈ rows Level.comparison.next rs, Operand row :=
    operand_of_mem_rows hrs (by decide)
  have hrow := (hl.operand Level.comparison.next (by decide)).append (operand_comparisons os hrows)
  exact printed_of_parens (l := .comparison) hrow (by decide) (fun _ => rfl) rfl nofun

theorem Expr.printed_conditional {t b o : Expr} (ht : t.Printed) (hb : b.Printed) (ho : o.Printed) :
    (Expr.conditional t b o).Printed := by
  have hif := leads_between_word (w := "if") (by decide)
  have helse := leads_between_word (w := "else") (by decide)
  have hbody := hb.operand Level.test.next (by decide)
  have htest := ht.operand Level.test.next (by decide)
  have hrow := (((hbody.append hif).append htest).append helse).append (ho.operand .test (by decide))
  exact printed_of_parens (l := .test) hrow (by decide) (fun _ => rfl) rfl nofun

theorem operand_paramPieces {ps : List String} (hne : ps ≠ []) (hps : ∀ p ∈ ps, p ∈ names) :
    Operand (paramPieces ps) := by
  refine operand_commas (by simpa using hne) ?_
  intro row hrow
  obtain ⟨p, hp, rfl⟩ := List.mem_map.1 hrow
  exact operand_word (isName_names p (hps p hp))

theorem Expr.printed_lambda {ps : List String} {b : Expr} (hps : NamesDrawn ps) (hb : b.Printed) :
    (Expr.lambda ps b).Printed := by
  have hword : Leads Open [word "lambda"] Named 0 := leads_word (by decide)
  have hhead : Operand ([word "lambda"] ++ (if ps.isEmpty then [] else [gap]) ++ paramPieces ps) := by
    cases ps with
    | nil => exact hword.mono (fun _ => id) fun _ => Named.closed
    | cons p ps =>
      exact (hword.append leads_named_gap).append
        (operand_paramPieces (List.cons_ne_nil p ps) hps.2)
  have hrow := (hhead.append leads_colon_gap).append (hb.operand .test (by decide))
  exact printed_of_parens (l := .test) hrow (by decide) (fun _ => rfl) rfl nofun

theorem Expr.printed_walrus {id : String} {v : Expr} (hid : id ∈ names) (hv : v.Printed) :
    (Expr.walrus (.name id .store) v).Printed := by
  have hsign : Leads Closed [gap, op ":=", gap] Open 0 :=
    leads_between (o := ":=") (by decide) (by decide)
  have hname := operand_word (isName_names id hid)
  have hrow := (hname.append hsign).append (hv.operand .atom (by decide))
  exact printed_of_parens (l := .walrus) hrow (by decide)
    (fun _ => rfl) rfl nofun

/-- What stands between brackets of its own is an operand in all surroundings. -/
theorem Expr.printed_enclosed {e : Expr} {left right : String} {inner : List Piece}
    (hb : (left, right) ∈ brackets) (hinner : Leads Open inner Between 0)
    (h : ∀ level, e.pieces level = enclose left right inner) (hinteger : e.isInteger = false)
    (htuple : ∀ es ctx, e ≠ .tuple es ctx) : e.Printed := by
  have hrow : Leads Open (enclose left right inner) Bracketed 0 :=
    (leads_enclose hb hinner).mono (fun _ => .inl) fun _ => id
  exact printed_of_row hrow (fun _ => Bracketed.closed) (fun _ => Bracketed.pointed) h hinteger htuple

theorem Expr.printed_list {es : List Expr} (hes : ∀ e ∈ es, e.Printed) (ctx : Context) :
    (Expr.list es ctx).Printed := by
  have hbrackets : ("[", "]") ∈ brackets := by decide
  have hrows : ∀ row ∈ rows .test es, Operand row := operand_of_mem_rows hes (by decide)
  exact printed_enclosed hbrackets (leads_commas hrows) (fun _ => rfl) rfl nofun

theorem Expr.printed_set {es : List Expr} (hes : ∀ e ∈ es, e.Printed) : (Expr.set es).Printed := by
  have hbrackets : ("\x7b", "\x7d") ∈ brackets := by decide
  have hrows : ∀ row ∈ rows .test es, Operand row := operand_of_mem_rows hes (by decide)
  exact printed_enclosed hbrackets (leads_commas hrows) (fun _ => rfl) rfl nofun

theorem Expr.printed_dict {ks vs : List Expr} (hks : ∀ k ∈ ks, k.Printed)
    (hvs : ∀ v ∈ vs, v.Printed) : (Expr.dict ks vs).Printed := by
  have hbrackets : ("\x7b", "\x7d") ∈ brackets := by decide
  have hkeys : ∀ row ∈ rows .test ks, Operand row := operand_of_mem_rows hks (by decide)
  have hvalues : ∀ row ∈ rows .test vs, Operand row := operand_of_mem_rows hvs (by decide)
  have hinner := leads_commas (operand_entries hkeys hvalues)
  exact printed_enclosed hbrackets hinner (fun _ => rfl) rfl nofun

theorem Expr.printed_comprehension {id : String} {e i : Expr} {cs : List Expr} (hid : id ∈ names)
    (he : e.Printed) (hi : i.Printed) (hcs : ∀ c ∈ cs, c.Printed) :
    (Expr.comprehension e (.name id .store) i cs).Printed := by
  have hfor := leads_between_word (w := "for") (by decide)
  have hin := leads_between_word (w := "in") (by decide)
  have hname := operand_word (isName_names id hid)
  have helement := (((he.operand .test (by decide)).append hfor).append hname).append hin
  have hiter := hi.operand Level.test.next (by decide)
  have hrows : ∀ row ∈ rows Level.test.next cs, Operand row := operand_of_mem_rows hcs (by decide)
  have hinner : Operand _ := (helement.append hiter).append (leads_conditions hrows)
  have hbrackets : ("[", "]") ∈ brackets := by decide
  exact printed_enclosed hbrackets hinner.between (fun _ => rfl) rfl nofun

/-- Every expression that is drawn is printed as an operand. -/
theorem Expr.Drawn.printed {d : Nat} {e : Expr} (h : e.Drawn d) : e.Printed := by
  induction h with
  | leaf h => exact h.printed
  | binary _ _ hl hr => exact printed_binary hl hr _
  | unary _ he => exact printed_unary he _
  | bool hlength _ hvs => exact printed_bool (by rintro rfl; simp at hlength) hvs _
  | compare _ _ _ _ hl hrs => exact printed_compare hl hrs _
  | call hid _ hns _ hargs hkws =>
    exact printed_call (printed_name (isName_names _ hid) .load) hargs hns hkws
  | method _ hattr _ hns _ hv hargs hkws =>
    exact printed_call (printed_attribute hv hattr .load) hargs hns hkws
  | «attribute» _ hattr hv => exact printed_attribute hv hattr .load
  | item hid _ hi => exact printed_subscript (printed_name (isName_names _ hid) .load) (.inl hi) .load
  | slice hid hi => exact printed_subscript (printed_name (isName_names _ hid) .load) (.inr hi) .load
  | list _ hes => exact printed_list hes .load
  | tuple _ hes => exact printed_tuple hes .load
  | set _ _ hes => exact printed_set hes
  | dict _ _ _ hks hvs => exact printed_dict hks hvs
  | conditional _ _ _ ht hb ho => exact printed_conditional ht hb ho
  | lambda hps _ hb => exact printed_lambda hps hb
  | comprehension hid _ _ _ he hi hcs => exact printed_comprehension hid he hi hcs
  | walrus hid _ hv => exact printed_walrus hid hv

theorem Expr.Drawn.operand {d : Nat} {e : Expr} (h : e.Drawn d) : Operand (e.pieces .test) :=
  h.printed.operand .test (by decide)

theorem operand_subscript {id : String} {i : Expr} (hid : id ∈ names) (hi : i.Printed ∨ i.LeafSlice) :
    Operand ((Expr.subscript (.name id .load) i .store).pieces .tuple) := by
  obtain ⟨inner, -, hpieces⟩ := exists_index (v := .name id .load) hi .store
  have hprinted := Expr.printed_subscript (Expr.printed_name (isName_names _ hid) .load) hi .store
  have hoperand := hprinted.operand .test (by decide)
  rw [hpieces] at hoperand ⊢
  exact hoperand

theorem Expr.TargetDrawn.operand {d : Nat} {t : Expr} (h : t.TargetDrawn d) :
    Operand (t.pieces .tuple) := by
  cases h with
  | name hid => exact operand_word (isName_names _ hid)
  | «attribute» hid hattr =>
    have hprinted := printed_attribute (printed_name (isName_names _ hid) .load) hattr .store
    exact hprinted.operand .test (by decide)
  | @item id i hid hi =>
    exact operand_subscript hid (.inl hi.printed)
  | @slice id i hid hi =>
    exact operand_subscript hid (.inr hi)
  | @tuple ids hlength hids =>
    have hprinted : ∀ e ∈ ids.map (Expr.name · .store), e.Printed := by
      intro e he
      obtain ⟨id, hid, rfl⟩ := List.mem_map.1 he
      exact printed_name (isName_names id (hids id hid)) .store
    have hrows : ∀ row ∈ rows .test (ids.map (Expr.name · .store)), Operand row :=
      operand_of_mem_rows hprinted (by decide)
    match ids with
    | [] | [_] => simp at hlength
    | a :: b :: ids => exact operand_commas (List.cons_ne_nil _ _) hrows

end FormatFuzz.Program
