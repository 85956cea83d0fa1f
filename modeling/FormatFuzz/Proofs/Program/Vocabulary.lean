import FormatFuzz.Proofs.Program.Statements

namespace FormatFuzz.Program

open FormatFuzz.Program.Piece

def keywords : List String :=
  ["not", "and", "or", "is", "in", "if", "else", "elif", "lambda", "for", "while", "with", "as", "try",
    "except", "finally", "def", "class", "del", "assert", "raise", "import", "from", "return", "break",
    "continue", "pass"]

def vocabulary : List String :=
  names ++ names.map ("f" ++ ·) ++ names.map ("C" ++ ·) ++ attributeNames ++ exceptionNames ++
    ["os", "sys", "path", "collections", "itertools", "exc"] ++ keywords

inductive Piece.Usual : Piece → Prop
  | gap : Usual gap
  | word {w : String} : w ∈ vocabulary → Usual (word w)
  | op {o : String} : o ∈ Lex.operators → o ≠ ";" → Usual (op o)
  | literal {v : Literal} : v.Drawn → Usual v.piece
  | docstring {doc : String} : doc ∈ sampleStrings → Usual (.lexeme .string (docstring doc))

def Piece.UsualRow (ps : List Piece) : Prop := ∀ p ∈ ps, p.Usual

namespace Piece.UsualRow

variable {ps qs : List Piece} {rows : List (List Piece)}

theorem nil : UsualRow [] := List.forall_mem_nil _

theorem cons {p : Piece} (hp : p.Usual) (hps : UsualRow ps) : UsualRow (p :: ps) :=
  List.forall_mem_cons.2 ⟨hp, hps⟩

theorem append (hps : UsualRow ps) (hqs : UsualRow qs) : UsualRow (ps ++ qs) :=
  List.forall_mem_append.2 ⟨hps, hqs⟩

theorem word {w : String} (h : w ∈ vocabulary) : UsualRow [word w] := nil.cons (.word h)

theorem name {id : String} (h : id ∈ names) : UsualRow [.word id] :=
  word (by simp [vocabulary, h])

theorem op {o : String} (h : o ∈ Lex.operators) (hne : o ≠ ";") : UsualRow [op o] :=
  nil.cons (.op h hne)

theorem spaced_word {w : String} (h : w ∈ vocabulary) : UsualRow [gap, .word w, gap] :=
  .cons .gap (.cons (.word h) (.cons .gap nil))

theorem word_gap {w : String} (h : w ∈ vocabulary) : UsualRow [.word w, gap] :=
  .cons (.word h) (.cons .gap nil)

theorem spaced_op {o : String} (h : o ∈ Lex.operators) (hne : o ≠ ";") : UsualRow [gap, .op o, gap] :=
  .cons .gap (.cons (.op h hne) (.cons .gap nil))

theorem op_gap {o : String} (h : o ∈ Lex.operators) (hne : o ≠ ";") : UsualRow [.op o, gap] :=
  .cons (.op h hne) (.cons .gap nil)

theorem flatMap {α : Type} {l : List α} {f : α → List Piece} (h : ∀ x ∈ l, UsualRow (f x)) :
    UsualRow (l.flatMap f) := by
  intro p hp
  obtain ⟨x, hx, hp⟩ := List.mem_flatMap.1 hp
  exact h x hx p hp

theorem enclose {left right : String} (hb : (left, right) ∈ brackets) (h : UsualRow ps) :
    UsualRow (enclose left right ps) := by
  have hspec : ∀ p ∈ brackets, (p.1 ∈ Lex.operators ∧ p.1 ≠ ";") ∧ p.2 ∈ Lex.operators ∧ p.2 ≠ ";" := by
    decide
  obtain ⟨⟨hleft, hleft'⟩, hright, hright'⟩ := hspec _ hb
  exact .append (.cons (.op hleft hleft') h) (op hright hright')

/-- Brackets that are needed or not change nothing about a row. -/
theorem parens_iff {needed : Bool} : UsualRow (parens needed ps) ↔ UsualRow ps := by
  cases needed with
  | false => exact Iff.rfl
  | true =>
    refine ⟨fun h p hp => h p ?_, enclose (by decide)⟩
    simp [parens, Piece.enclose, hp]

theorem commas (h : ∀ row ∈ rows, UsualRow row) : UsualRow (commas rows) := by
  induction rows with
  | nil => exact nil
  | cons row rows ih =>
    obtain ⟨hrow, hrows⟩ := List.forall_mem_cons.1 h
    cases rows with
    | nil => exact hrow
    | cons row' rows =>
      exact hrow.append (.append (op_gap (o := ",") (by decide) (by decide)) (ih hrows))

theorem items (h : ∀ row ∈ rows, UsualRow row) : UsualRow (items rows) := by
  match rows with
  | [] => exact commas h
  | [row] => exact (h row List.mem_cons_self).append (op (by decide) (by decide))
  | _ :: _ :: _ => exact commas h

theorem params {ns : List String} (h : ∀ n ∈ ns, n ∈ names) : UsualRow (paramPieces ns) := by
  refine commas fun row hrow => ?_
  obtain ⟨n, hn, rfl⟩ := List.mem_map.1 hrow
  exact name (h n hn)

end Piece.UsualRow

def Expr.Usual (e : Expr) : Prop := ∀ level, UsualRow (e.pieces level)

variable {es : List Expr}

theorem usual_rows (h : ∀ e ∈ es, e.Usual) (level : Level) : ∀ row ∈ rows level es, UsualRow row := by
  rw [rows_eq_map]
  intro row hrow
  obtain ⟨e, he, rfl⟩ := List.mem_map.1 hrow
  exact h e he level

theorem usual_chain {w : String} (hw : w ∈ vocabulary) (h : ∀ e ∈ es, e.Usual) (level : Level) :
    UsualRow (chain w level es) := by
  induction es generalizing level with
  | nil => exact .nil
  | cons e es ih =>
    obtain ⟨he, hes⟩ := List.forall_mem_cons.1 h
    cases es with
    | nil => exact he level
    | cons e' es => exact ((he level).append (.spaced_word hw)).append (ih hes level.next)

theorem usual_keywordRows {kws : List (String × Expr)} (hns : ∀ n ∈ kws.map Prod.fst, n ∈ names)
    (h : ∀ k ∈ kws, k.2.Usual) : ∀ row ∈ keywordRows kws, UsualRow row := by
  induction kws with
  | nil => exact List.forall_mem_nil _
  | cons k kws ih =>
    obtain ⟨hn, hns⟩ := List.forall_mem_cons.1 hns
    obtain ⟨he, hkws⟩ := List.forall_mem_cons.1 h
    refine List.forall_mem_cons.2 ⟨?_, ih hns hkws⟩
    exact (UsualRow.name hn).append (.append (.op (o := "=") (by decide) (by decide)) (he .test))

theorem usual_zipWith {α β : Type} {as : List α} {bs : List β} {f : α → β → List Piece}
    (h : ∀ a ∈ as, ∀ b ∈ bs, UsualRow (f a b)) : ∀ row ∈ List.zipWith f as bs, UsualRow row := by
  intro row hrow
  rw [← List.map_uncurry_zip_eq_zipWith] at hrow
  obtain ⟨⟨a, b⟩, hmem, rfl⟩ := List.mem_map.1 hrow
  obtain ⟨ha, hb⟩ := List.of_mem_zip hmem
  exact h a ha b hb

theorem CompareOp.usual (o : CompareOp) : UsualRow o.pieces := by
  cases o with
  | is => exact .word (by decide)
  | isIn => exact .word (by decide)
  | isNot => exact .append (.word_gap (w := "is") (by decide)) (.word (by decide))
  | notIn => exact .append (.word_gap (w := "not") (by decide)) (.word (by decide))
  | _ => exact .op (by decide) (by decide)

theorem UnaryOp.usual (o : UnaryOp) : UsualRow o.pieces := by
  cases o with
  | not => exact .word_gap (by decide)
  | _ => exact .op (by decide) (by decide)

theorem usual_optionPieces {o : Option Expr} (h : ∀ e ∈ o, e.Usual) : UsualRow (optionPieces o) := by
  cases o with
  | none => exact .nil
  | some e => exact h e rfl .test

theorem Expr.Leaf.usual {e : Expr} (h : e.Leaf) : e.Usual := by
  intro level
  cases h with
  | name hid => exact .name hid
  | constant hv => exact UsualRow.nil.cons (.literal hv)

theorem Expr.LeafSlice.usual {e : Expr} (h : e.LeafSlice) : e.Usual := by
  intro level
  cases h with
  | @slice l u s hl hu hs =>
    have hcolon : UsualRow [op ":"] := .op (by decide) (by decide)
    have hstep : UsualRow (if s.isSome then [op ":"] else []) := by
      split
      · exact hcolon
      · exact .nil
    have hupper := hcolon.append (usual_optionPieces fun e he => (hu e he).usual)
    exact (((usual_optionPieces fun e he => (hl e he).usual).append hupper).append hstep).append
      (usual_optionPieces fun e he => (hs e he).usual)

namespace Expr

theorem usual_name {id : String} (h : id ∈ names) (ctx : Context) : (Expr.name id ctx).Usual :=
  fun _ => .name h

theorem usual_sign (o : BinaryOp) : UsualRow [gap, op o.text, gap] := by
  cases o with
  | _ => exact .spaced_op (by decide) (by decide)

theorem usual_call {f : Expr} {args : List Expr} {kws : List (String × Expr)} (hf : f.Usual)
    (hargs : ∀ a ∈ args, a.Usual) (hns : ∀ n ∈ kws.map Prod.fst, n ∈ names)
    (hkws : ∀ k ∈ kws, k.2.Usual) : (Expr.call f args kws).Usual := by
  intro level
  refine (hf .atom).append (.enclose (by decide) (.commas fun row hrow => ?_))
  rcases List.mem_append.1 hrow with hrow | hrow
  · exact usual_rows hargs .test row hrow
  · exact usual_keywordRows hns hkws row hrow

theorem usual_attribute {v : Expr} {attr : String} (hv : v.Usual) (hattr : attr ∈ attributeNames)
    (ctx : Context) : (Expr.attribute v attr ctx).Usual := by
  intro level
  have hgap : UsualRow (if v.isInteger then [gap] else []) := by
    split
    · exact UsualRow.nil.cons .gap
    · exact .nil
  have hword : attr ∈ vocabulary := by simp [vocabulary, hattr]
  exact ((hv .atom).append hgap).append (.append (.op (o := ".") (by decide) (by decide)) (.word hword))

/-- A tuple in an index stands without its brackets. -/
theorem usual_subscript {v i : Expr} (hv : v.Usual) (hi : i.Usual) (ctx : Context) :
    (Expr.subscript v i ctx).Usual := by
  intro level
  have hrow := hi .test
  cases i with
  | tuple es c =>
    cases es with
    | nil => exact (hv .atom).append (.enclose (by decide) hrow)
    | cons e es =>
      exact (hv .atom).append (.enclose (by decide) (UsualRow.parens_iff.1 hrow))
  | _ => exact (hv .atom).append (.enclose (by decide) hrow)

theorem usual_tuple {es : List Expr} (hes : ∀ e ∈ es, e.Usual) (ctx : Context) :
    (Expr.tuple es ctx).Usual :=
  fun _ => UsualRow.parens_iff.2 (.items (usual_rows hes .test))

theorem usual_compare {l : Expr} {rs : List Expr} (hl : l.Usual) (hrs : ∀ r ∈ rs, r.Usual)
    (os : List CompareOp) : (Expr.compare l os rs).Usual := by
  intro level
  refine UsualRow.parens_iff.2 ((hl _).append fun p hp => ?_)
  obtain ⟨row, hrow, hp⟩ := List.mem_flatten.1 hp
  refine usual_zipWith (fun o _ row hrow => ?_) row hrow p hp
  exact .append (.cons .gap o.usual) (.cons .gap (usual_rows hrs _ row hrow))

theorem usual_dict {ks vs : List Expr} (hks : ∀ k ∈ ks, k.Usual) (hvs : ∀ v ∈ vs, v.Usual) :
    (Expr.dict ks vs).Usual := by
  intro level
  refine .enclose (by decide) (.commas (usual_zipWith fun k hk v hv => ?_))
  exact ((usual_rows hks .test k hk).append (.op_gap (o := ":") (by decide) (by decide))).append
    (usual_rows hvs .test v hv)

theorem usual_lambda {ps : List String} {b : Expr} (hps : ∀ p ∈ ps, p ∈ names) (hb : b.Usual) :
    (Expr.lambda ps b).Usual := by
  intro level
  have hgap : UsualRow (if ps.isEmpty then [] else [gap]) := by
    split
    · exact .nil
    · exact UsualRow.nil.cons .gap
  have hhead := ((UsualRow.word (w := "lambda") (by decide)).append hgap).append (.params hps)
  exact UsualRow.parens_iff.2
    ((hhead.append (.op_gap (o := ":") (by decide) (by decide))).append (hb .test))

theorem usual_comprehension {id : String} {e i : Expr} {cs : List Expr} (hid : id ∈ names)
    (he : e.Usual) (hi : i.Usual) (hcs : ∀ c ∈ cs, c.Usual) :
    (Expr.comprehension e (.name id .store) i cs).Usual := by
  intro level
  have hfor := (he .test).append (.spaced_word (w := "for") (by decide))
  have hin := (hfor.append (.name hid)).append (.spaced_word (w := "in") (by decide))
  have hconditions : UsualRow (conditions (rows Level.test.next cs)) := .flatMap fun row hrow =>
    .append (.spaced_word (by decide)) (usual_rows hcs _ row hrow)
  exact .enclose (by decide) ((hin.append (hi _)).append hconditions)

theorem Drawn.usual {d : Nat} {e : Expr} (h : e.Drawn d) : e.Usual := by
  induction h with
  | leaf h => exact h.usual
  | @binary d l r o _ _ hl hr =>
    exact fun level => UsualRow.parens_iff.2 (((hl _).append (usual_sign o)).append (hr _))
  | @unary d e o _ he => exact fun level => UsualRow.parens_iff.2 (o.usual.append (he _))
  | @bool d vs o _ _ hvs =>
    have hword : o.text ∈ vocabulary := by
      cases o with
      | _ => decide
    exact fun level => UsualRow.parens_iff.2 (usual_chain hword hvs _)
  | compare _ _ _ _ hl hrs => exact usual_compare hl hrs _
  | call hid _ hns _ hargs hkws => exact usual_call (usual_name hid .load) hargs hns.2 hkws
  | method _ hattr _ hns _ hv hargs hkws =>
    exact usual_call (usual_attribute hv hattr .load) hargs hns.2 hkws
  | «attribute» _ hattr hv => exact usual_attribute hv hattr .load
  | item hid _ hi => exact usual_subscript (usual_name hid .load) hi .load
  | slice hid hi => exact usual_subscript (usual_name hid .load) hi.usual .load
  | list _ hes => exact fun level => .enclose (by decide) (.commas (usual_rows hes .test))
  | tuple _ hes => exact usual_tuple hes .load
  | set _ _ hes => exact fun level => .enclose (by decide) (.commas (usual_rows hes .test))
  | dict _ _ _ hks hvs => exact usual_dict hks hvs
  | conditional _ _ _ ht hb ho =>
    intro level
    have hif := (hb Level.test.next).append (.spaced_word (w := "if") (by decide))
    have helse := (hif.append (ht Level.test.next)).append (.spaced_word (w := "else") (by decide))
    exact UsualRow.parens_iff.2 (helse.append (ho .test))
  | lambda hps _ hb => exact usual_lambda hps.2 hb
  | comprehension hid _ _ _ he hi hcs => exact usual_comprehension hid he hi hcs
  | walrus hid _ hv =>
    exact fun level => UsualRow.parens_iff.2
      (((UsualRow.name hid).append (.spaced_op (o := ":=") (by decide) (by decide))).append (hv .atom))

theorem TargetDrawn.usual {d : Nat} {t : Expr} (h : t.TargetDrawn d) : t.Usual := by
  cases h with
  | name hid => exact usual_name hid .store
  | «attribute» hid hattr => exact usual_attribute (usual_name hid .load) hattr .store
  | item hid hi => exact usual_subscript (usual_name hid .load) hi.usual .store
  | slice hid hi => exact usual_subscript (usual_name hid .load) hi.usual .store
  | tuple _ hids =>
    refine usual_tuple (fun e he => ?_) .store
    obtain ⟨id, hid, rfl⟩ := List.mem_map.1 he
    exact usual_name (hids id hid) .store

end Expr

def Line.Usual (ls : List Line) : Prop := ∀ l ∈ ls, UsualRow l.pieces

namespace Line.Usual

variable {level : Nat} {ps : List Piece} {ls more : List Line}

theorem single (h : UsualRow ps) : Usual [⟨level, ps⟩] := List.forall_mem_singleton.2 h

theorem append (h : Usual ls) (hmore : Usual more) : Usual (ls ++ more) :=
  List.forall_mem_append.2 ⟨h, hmore⟩

theorem blank (h : Usual ls) : Usual (.blank :: ls) := List.forall_mem_cons.2 ⟨.nil, h⟩

theorem block (h : UsualRow ps) (hls : Usual ls) : Usual (opening level ps :: ls) :=
  List.forall_mem_cons.2 ⟨h.append (.op (by decide) (by decide)), hls⟩

end Line.Usual

open Line

theorem usual_exception {id : String} (h : id ∈ exceptionNames) (ctx : Context) :
    (Expr.name id ctx).Usual :=
  fun _ => .word (by simp [vocabulary, h])

theorem usual_dotted {m : String} (hm : m ∈ moduleNames) : UsualRow (dotted m) := by
  have hwords : ∀ w ∈ ["os", "sys", "collections", "itertools"], w ∈ vocabulary := by
    decide
  rcases dotted_cases m hm with hpath | ⟨w, hw, hword⟩
  · have hpoint : UsualRow [op ".", word "path"] :=
      .append (.op (o := ".") (by decide) (by decide)) (.word (w := "path") (by decide))
    rw [hpath]
    exact .append (.word (w := "os") (by decide)) hpoint
  · rw [hword]
    exact .word (hwords w hw)

theorem Stmt.SimpleDrawn.usual {d : Nat} {place : Build.Place} {s : Stmt} (h : s.SimpleDrawn d place)
    (level : Nat) (continues : Bool) : Line.Usual (s.lines level continues) := by
  have hassign : UsualRow [gap, op "=", gap] := .spaced_op (by decide) (by decide)
  cases h with
  | assign _ hts hv =>
    have htargets := UsualRow.flatMap fun t ht => ((hts t ht).usual .tuple).append hassign
    exact .single (htargets.append (hv.usual .test))
  | @augmented id o v hid hv =>
    have hsign : UsualRow [gap, op (o.text ++ "="), gap] := by
      cases o with
      | _ => exact .spaced_op (by decide) (by decide)
    exact .single (((UsualRow.name hid).append hsign).append (hv.usual .test))
  | @annotated id note v hid hnote hv =>
    have hhead := ((UsualRow.name hid).append (.op_gap (o := ":") (by decide) (by decide))).append
      (.name hnote)
    cases v with
    | none => exact .single (hhead.append .nil)
    | some e => exact .single (hhead.append (hassign.append ((hv e rfl).usual .test)))
  | delete hid => exact .single (.append (.word_gap (w := "del") (by decide)) (.name hid))
  | @assert t m ht hm =>
    have hhead := (UsualRow.word_gap (w := "assert") (by decide)).append (ht.usual .test)
    cases m with
    | none => exact .single (hhead.append .nil)
    | some e =>
      have hcomma : UsualRow [op ",", gap] := .op_gap (by decide) (by decide)
      exact .single (hhead.append (hcomma.append ((hm e rfl).usual .test)))
  | @raise id args hid hargs =>
    have hcall : (Expr.call (.name id .load) args []).Usual :=
      Expr.usual_call (usual_exception hid .load) (fun a ha => (hargs a ha).usual)
        (List.forall_mem_nil _) (List.forall_mem_nil _)
    exact .single (.append (.word_gap (w := "raise") (by decide)) (hcall .test))
  | importModule hm => exact .single (.append (.word_gap (w := "import") (by decide)) (usual_dotted hm))
  | importFrom hm hn =>
    have hfrom := (UsualRow.word_gap (w := "from") (by decide)).append (usual_dotted hm)
    exact .single (hfrom.append (.append (.spaced_word (w := "import") (by decide)) (.name hn)))
  | @returnValue v _ hv =>
    cases v with
    | none => exact .single (.word (by decide))
    | some e =>
      exact .single (.append (.word_gap (w := "return") (by decide)) ((hv e rfl).usual .test))
  | breakLoop _ => exact .single (.word (by decide))
  | continueLoop _ => exact .single (.word (by decide))
  | pass => exact .single (.word (by decide))
  | expr hv => exact .single (hv.usual .statement)

def Stmt.Usual (s : Stmt) : Prop := ∀ level continues, Line.Usual (s.lines level continues)

variable {b : List Stmt}

theorem usual_blockLines (h : ∀ s ∈ b, s.Usual) (level : Nat) : Line.Usual (blockLines level b) := by
  induction b with
  | nil => exact List.forall_mem_nil _
  | cons s b ih =>
    obtain ⟨hs, hb⟩ := List.forall_mem_cons.1 h
    exact (hs level false).append (ih hb)

theorem usual_elseLines (h : ∀ s ∈ b, s.Usual) (level : Nat) : Line.Usual (elseLines level b) := by
  cases b with
  | nil => exact List.forall_mem_nil _
  | cons s b =>
    have hblock := usual_blockLines h (level + 1)
    unfold elseLines
    split
    · exact (List.forall_mem_cons.1 h).1 level true
    · exact .block (.word (by decide)) hblock

theorem usual_suiteLines {d : Nat} {place : Build.Place} (hdrawn : ∀ s ∈ b, s.Drawn d place)
    (h : ∀ s ∈ b, s.Usual) (level : Nat) : Line.Usual (suiteLines level b) := by
  cases b with
  | nil => exact List.forall_mem_nil _
  | cons s b =>
    obtain ⟨hs, hb⟩ := List.forall_mem_cons.1 h
    unfold suiteLines
    split
    · have hdoc : UsualRow _ := UsualRow.nil.cons (.docstring (hdrawn _ List.mem_cons_self).doc)
      exact (Line.Usual.single hdoc).append (usual_blockLines hb level)
    · exact (hs level false).append (usual_blockLines hb level)

theorem usual_asPieces {row : Option (List Piece)} (h : ∀ r ∈ row, UsualRow r) :
    UsualRow (asPieces row) := by
  cases row with
  | none => exact .nil
  | some r => exact .append (.spaced_word (w := "as") (by decide)) (h r rfl)

theorem usual_handler {id : String} {n : Option String} (hid : id ∈ exceptionNames)
    (hn : ∀ x ∈ n, x = "exc") :
    UsualRow ([word "except", gap] ++ (Expr.name id .load).pieces .test ++
      asPieces (n.map fun n => [word n])) := by
  have hexception := (UsualRow.word_gap (w := "except") (by decide)).append
    (usual_exception hid .load .test)
  refine hexception.append (usual_asPieces fun row hrow => ?_)
  obtain ⟨x, hx, rfl⟩ := Option.map_eq_some_iff.1 hrow
  rw [hn x hx]
  exact .word (by decide)

theorem usual_signature {n : String} {ps : List String} (hn : n ∈ names)
    (hps : ∀ p ∈ ps, p ∈ names) :
    UsualRow ([word "def", gap, word ("f" ++ n)] ++ enclose "(" ")" (paramPieces ps)) := by
  have hword : "f" ++ n ∈ vocabulary := by simp [vocabulary, hn]
  have hhead := (UsualRow.word_gap (w := "def") (by decide)).append (.word hword)
  exact hhead.append (.enclose (by decide) (.params hps))

theorem usual_classHead {n : String} {bs : List String} (hn : n ∈ names)
    (hbs : ∀ id ∈ bs, id ∈ names) :
    UsualRow ([word "class", gap, word ("C" ++ n)] ++
      (if (bs.map (Expr.name · .load)).isEmpty then [] else
        enclose "(" ")" (commas ((bs.map (Expr.name · .load)).map (Expr.pieces .test))))) := by
  have hword : "C" ++ n ∈ vocabulary := by simp [vocabulary, hn]
  refine ((UsualRow.word_gap (w := "class") (by decide)).append (.word hword)).append ?_
  split
  · exact .nil
  · refine .enclose (by decide) (.commas fun row hrow => ?_)
    simp only [List.map_map, List.mem_map] at hrow
    obtain ⟨id, hid, rfl⟩ := hrow
    exact .name (hbs id hid)

theorem usual_decorators {ds : List String} (h : ∀ d ∈ ds, d ∈ names) (level : Nat) :
    Line.Usual ((ds.map (Expr.name · .load)).map fun d => ⟨level, op "@" :: d.pieces .test⟩) := by
  intro l hl
  simp only [List.map_map, List.mem_map] at hl
  obtain ⟨id, hid, rfl⟩ := hl
  exact .cons (.op (by decide) (by decide)) (.name (h id hid))

theorem Stmt.Drawn.usual {d : Nat} {place : Build.Place} {s : Stmt} (h : s.Drawn d place) :
    s.Usual := by
  induction h with
  | simple h => exact fun level continues => h.usual level continues
  | @branch d place t b o ht _ _ _ hb ho =>
    intro level continues
    have hword : (if continues then "elif" else "if") ∈ vocabulary := by
      cases continues with
      | _ => decide
    exact (Line.Usual.block ((UsualRow.word_gap hword).append (ht.usual .test))
      (usual_blockLines hb _)).append (usual_elseLines ho level)
  | whileLoop ht _ _ hb =>
    intro level continues
    exact .block (.append (.word_gap (w := "while") (by decide)) (ht.usual .test))
      (usual_blockLines hb _)
  | forLoop hid hi _ _ hb =>
    intro level continues
    have hfor := (UsualRow.word_gap (w := "for") (by decide)).append (.name hid)
    have hin := (hfor.append (.spaced_word (w := "in") (by decide))).append (hi.usual .test)
    exact .block hin (usual_blockLines hb _)
  | @withBlock d place c id b hc hid _ _ hb =>
    intro level continues
    have hwith := (UsualRow.word_gap (w := "with") (by decide)).append (hc.usual .test)
    refine .block (hwith.append (usual_asPieces fun r hr => ?_)) (usual_blockLines hb _)
    simp only [Option.mem_def, Option.map_map, Option.map_eq_some_iff] at hr
    obtain ⟨n, hn, rfl⟩ := hr
    exact .name (hid n hn)
  | @tryBlock d place id n b h f hid hn _ _ _ _ _ hb hh hf =>
    intro level continues
    have htry : Line.Usual (opening level [word "try"] :: blockLines (level + 1) b) :=
      .block (.word (by decide)) (usual_blockLines hb (level + 1))
    have hexcept : Line.Usual (opening level _ :: blockLines (level + 1) h) :=
      .block (usual_handler hid hn) (usual_blockLines hh (level + 1))
    have hhandler := htry.append hexcept
    cases f with
    | nil => exact hhandler.append (List.forall_mem_nil _)
    | cons t f =>
      exact hhandler.append (.block (.word (w := "finally") (by decide))
        (usual_blockLines hf (level + 1)))
  | @function d place n ps ds b r hn hps _ hdrawn hds hr hb =>
    intro level continues
    have hhead := usual_signature hn hps.2
    have hsuite := usual_suiteLines hdrawn hb (level + 1)
    have hdecorators := usual_decorators hds level
    cases r with
    | none => exact (hdecorators.append (.block (hhead.append .nil) hsuite)).blank
    | some id =>
      have harrow : UsualRow [gap, op "->", gap] := .spaced_op (by decide) (by decide)
      exact (hdecorators.append
        (.block (hhead.append (harrow.append (.name (hr id rfl)))) hsuite)).blank
  | classDef hn hbs _ hdrawn hb =>
    intro level continues
    exact (Line.Usual.block (usual_classHead hn hbs) (usual_suiteLines hdrawn hb (level + 1))).blank

theorem Module.usual_lines {d : Nat} {place : Build.Place} {m : Module}
    (h : ∀ s ∈ m.body, s.Drawn d place) : Line.Usual m.lines :=
  usual_suiteLines h (fun s hs => (h s hs).usual) 0

end FormatFuzz.Program
