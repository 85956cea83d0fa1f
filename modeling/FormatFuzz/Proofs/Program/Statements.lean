import FormatFuzz.Proofs.Program.Expressions
import FormatFuzz.Proofs.Program.Spacing

namespace FormatFuzz.Program

open FormatFuzz.Program.Lex FormatFuzz.Program.Piece

namespace Piece

variable {ps : List Piece}

theorem open_none : Open none := nofun

theorem Row.of_operand (h : Operand ps) : Row ps := by
  obtain ⟨hfits, hclosed⟩ := h.1 none open_none
  refine .flat ?_ hfits h.2
  rintro rfl
  obtain ⟨u, hu, -⟩ := hclosed
  cases hu

/-- An operand with a colon behind it opens a block. -/
theorem Row.opening (h : Operand ps) : Row (ps ++ [op ":"]) := by
  have hcolon : Leads Closed [op ":"] Operated 0 :=
    (leads_op (o := ":") (by decide)).mono (fun _ => .inr) fun _ => id
  have hrow := h.append hcolon
  exact .flat (by simp) (hrow.1 none open_none).1 hrow.2

end Piece

namespace Line

variable {level : Nat} {ps : List Piece} {ls more : List Line}

def Stand (level : Nat) (ls : List Line) : Prop :=
  ls ≠ [] ∧ ∀ bound, level ≤ bound → ∃ end', level < end' ∧ Lays bound ls end'

theorem Stand.single (h : Row ps) : Stand level [⟨level, ps⟩] := by
  refine ⟨List.cons_ne_nil _ _, fun bound hbound => ?_⟩
  exact ⟨level + 1, Nat.lt_succ_self level, .row h hbound (.nil _)⟩

theorem Stand.of_operand (h : Operand ps) : Stand level [⟨level, ps⟩] :=
  .single (Row.of_operand h)

theorem Stand.append (h : Stand level ls) (hmore : Stand level more) : Stand level (ls ++ more) := by
  refine ⟨List.append_ne_nil_of_left_ne_nil h.1 more, fun bound hbound => ?_⟩
  obtain ⟨middle, hmiddle, hls⟩ := h.2 bound hbound
  obtain ⟨end', hend, hlast⟩ := hmore.2 middle (Nat.le_of_lt hmiddle)
  exact ⟨end', hend, hls.append hlast⟩

theorem Stand.append_optional (h : Stand level ls) (hmore : more = [] ∨ Stand level more) :
    Stand level (ls ++ more) := by
  rcases hmore with rfl | hmore
  · rwa [List.append_nil]
  · exact h.append hmore

theorem Stand.blank (h : Stand level ls) : Stand level (.blank :: ls) := by
  refine ⟨List.cons_ne_nil _ _, fun bound hbound => ?_⟩
  obtain ⟨end', hend, hls⟩ := h.2 bound hbound
  exact ⟨end', hend, .blank h.1 hls⟩

theorem Stand.block (h : Operand ps) (hblock : Stand (level + 1) ls) :
    Stand level (opening level ps :: ls) := by
  refine ⟨List.cons_ne_nil _ _, fun bound hbound => ?_⟩
  obtain ⟨end', hend, hls⟩ := hblock.2 (level + 1) (Nat.le_refl _)
  exact ⟨end', Nat.lt_of_succ_lt hend, .row (Row.opening h) hbound hls⟩

end Line

open Line

theorem operand_name {id : String} (hid : id ∈ names) (ctx : Context) :
    Operand ((Expr.name id ctx).pieces .test) :=
  (Expr.printed_name (isName_names id hid) ctx).operand .test (by decide)

theorem isName_exceptionNames : ∀ n ∈ exceptionNames, Token.isName n.toList = true := by
  decide

theorem leads_assign : Leads Closed [gap, op "=", gap] Open 0 :=
  leads_between (o := "=") (by decide) (by decide)

theorem leads_targets {d : Nat} {ts : List Expr} (h : ∀ t ∈ ts, t.TargetDrawn d) :
    Leads Open (ts.flatMap fun t => t.pieces .tuple ++ [gap, op "=", gap]) Open 0 := by
  induction ts with
  | nil => exact leads_nil
  | cons t ts ih =>
    obtain ⟨ht, hts⟩ := List.forall_mem_cons.1 h
    exact (ht.operand.append leads_assign).append (ih hts)

theorem BinaryOp.leads_augmented (o : BinaryOp) : Leads Closed [gap, op (o.text ++ "="), gap] Open 0 := by
  have hspec : o.text ++ "=" ∈ operators ∧ o.text ++ "=" ≠ "." ∧
      tokenDepth ⟨.operator, o.text ++ "="⟩ = 0 := by
    cases o with
    | _ => decide
  rw [← hspec.2.2]
  exact leads_between hspec.1 hspec.2.1

/-- One of the modules is named by a path, the others by a word. -/
theorem dotted_cases : ∀ m ∈ moduleNames,
    dotted m = [word "os", op ".", word "path"] ∨
      ∃ w ∈ ["os", "sys", "collections", "itertools"], dotted m = [word w] := by
  decide

theorem operand_dotted {m : String} (hm : m ∈ moduleNames) : Operand (dotted m) := by
  have hwords : ∀ w ∈ ["os", "sys", "collections", "itertools"],
      Token.isName w.toList = true := by
    decide
  rcases dotted_cases m hm with hpath | ⟨w, hw, hword⟩
  · have hos : Leads Open [word "os"] Pointed 0 :=
      (leads_word (hwords "os" (by decide))).mono (fun _ => id) fun _ => Named.pointed
    have hpoint : Leads Pointed [op ".", word "path"] Closed 0 :=
      (leads_point (by decide)).mono (fun _ => id) fun _ => Named.closed
    rw [hpath]
    exact hos.append hpoint
  · rw [hword]
    exact operand_word (hwords w hw)

theorem Stmt.SimpleDrawn.stand {d : Nat} {place : Build.Place} {s : Stmt} (h : s.SimpleDrawn d place)
    (level : Nat) (continues : Bool) : Stand level (s.lines level continues) := by
  cases h with
  | assign _ hts hv => exact .of_operand ((leads_targets hts).append hv.operand)
  | @augmented id o v hid hv =>
    have hhead := (operand_name hid .store).append o.leads_augmented
    exact .of_operand (hhead.append hv.operand)
  | @annotated id note v hid hnote hv =>
    have hhead := ((operand_name hid .store).append leads_colon_gap).append (operand_name hnote .load)
    cases v with
    | none => exact .of_operand (hhead.append leads_nil)
    | some e => exact .of_operand (hhead.append (leads_assign.append (hv e rfl).operand))
  | delete hid =>
    exact .of_operand ((leads_word_gap (by decide)).append (operand_name hid .del))
  | @assert t m ht hm =>
    have hhead := (leads_word_gap (w := "assert") (by decide)).append ht.operand
    cases m with
    | none => exact .of_operand (hhead.append leads_nil)
    | some e =>
      have hmessage := (hm e rfl).printed.operand .test (by decide)
      exact .of_operand (hhead.append (leads_comma.append hmessage))
  | @raise id args hid hargs =>
    have hcall : (Expr.call (.name id .load) args []).Printed :=
      Expr.printed_call (Expr.printed_name (isName_exceptionNames id hid) .load)
        (fun a ha => (hargs a ha).printed) ⟨List.nodup_nil, by simp⟩ (by simp)
    exact .of_operand ((leads_word_gap (by decide)).append (hcall.operand .test (by decide)))
  | importModule hm =>
    exact .of_operand ((leads_word_gap (by decide)).append (operand_dotted hm))
  | @importFrom m n hm hn =>
    have hmodule := (leads_word_gap (w := "from") (by decide)).append (operand_dotted hm)
    have himport := leads_between_word (w := "import") (by decide)
    exact .of_operand (hmodule.append (himport.append (operand_word (isName_names n hn))))
  | @returnValue v _ hv =>
    cases v with
    | none => exact .of_operand (operand_word (by decide))
    | some e =>
      have hword := leads_word_gap (w := "return") (by decide)
      exact .of_operand (hword.append (hv e rfl).operand)
  | breakLoop _ => exact .of_operand (operand_word (by decide))
  | continueLoop _ => exact .of_operand (operand_word (by decide))
  | pass => exact .of_operand (operand_word (by decide))
  | expr hv => exact .of_operand (hv.printed.operand .statement (by decide))

def Stmt.Stands (s : Stmt) : Prop := ∀ level continues, Stand level (s.lines level continues)

variable {level : Nat} {b : List Stmt}

theorem stand_blockLines_or (h : ∀ s ∈ b, s.Stands) :
    blockLines level b = [] ∨ Stand level (blockLines level b) := by
  induction b with
  | nil => exact .inl rfl
  | cons s b ih =>
    obtain ⟨hs, hb⟩ := List.forall_mem_cons.1 h
    exact .inr ((hs level false).append_optional (ih hb))

theorem stand_blockLines (hlength : 1 ≤ b.length) (h : ∀ s ∈ b, s.Stands) (level : Nat) :
    Stand level (blockLines level b) := by
  obtain ⟨s, b, rfl⟩ := List.exists_cons_of_length_pos hlength
  obtain ⟨hs, hb⟩ := List.forall_mem_cons.1 h
  exact (hs level false).append_optional (stand_blockLines_or hb)

theorem stand_elseLines (h : ∀ s ∈ b, s.Stands) :
    elseLines level b = [] ∨ Stand level (elseLines level b) := by
  cases b with
  | nil => exact .inl rfl
  | cons s b =>
    have hblock := stand_blockLines (b := s :: b) (Nat.succ_pos _) h (level + 1)
    refine .inr ?_
    unfold elseLines
    -- a conditional alone continues the one before it at the same level
    split
    · exact (List.forall_mem_cons.1 h).1 level true
    · exact .block (operand_word (by decide)) hblock

def brokenText : String := "tab\tand\nnewline"

theorem docstring_spec : ∀ doc ∈ sampleStrings, doc = brokenText ∨
    Token.isString (docstring doc).toList = true ∧ Unbroken (docstring doc).toList := by
  decide +kernel

theorem row_docstring {doc : String} (h : doc ∈ sampleStrings) :
    Row [.lexeme .string (docstring doc)] := by
  rcases docstring_spec doc h with rfl | hline
  · have htext : docstring brokenText =
        String.ofList ("\"\"\"tab\tand".toList ++ '\n' :: "newline\"\"\"".toList) := by
      decide
    rw [htext]
    exact .broken ⟨⟨'"', rfl, rfl⟩, ⟨_, _, rfl, by decide⟩, ⟨_, _, rfl, by decide⟩,
      by decide, by decide⟩
  · exact .flat (List.cons_ne_nil _ _) ⟨hline, nofun, trivial⟩ rfl

/-- A text that is drawn as a statement is one of the sampled ones. -/
theorem Stmt.Drawn.doc {d : Nat} {place : Build.Place} {doc : String}
    (h : (Stmt.expr (.constant (.str doc))).Drawn d place) : doc ∈ sampleStrings := by
  cases h with
  | simple h =>
    cases h with
    | expr h =>
      cases h with
      | leaf h =>
        cases h with
        | constant h =>
          cases h with
          | str h => exact h

theorem stand_suiteLines (hlength : 1 ≤ b.length) {d : Nat} {place : Build.Place}
    (hdrawn : ∀ s ∈ b, s.Drawn d place) (h : ∀ s ∈ b, s.Stands) (level : Nat) :
    Stand level (suiteLines level b) := by
  obtain ⟨s, b, rfl⟩ := List.exists_cons_of_length_pos hlength
  obtain ⟨hs, hb⟩ := List.forall_mem_cons.1 h
  unfold suiteLines
  split
  · have hrow := row_docstring (hdrawn _ List.mem_cons_self).doc
    exact (Stand.single hrow).append_optional (stand_blockLines_or hb)
  · exact (hs level false).append_optional (stand_blockLines_or hb)

theorem isName_function : ∀ n ∈ names, Token.isName ("f" ++ n).toList = true := by
  decide

theorem isName_class : ∀ n ∈ names, Token.isName ("C" ++ n).toList = true := by
  decide

theorem operand_asPieces {ps : List Piece} (hps : Operand ps) {row : Option (List Piece)}
    (h : ∀ r ∈ row, Operand r) : Operand (ps ++ asPieces row) := by
  cases row with
  | none => exact hps.append leads_nil
  | some r => exact hps.append ((leads_between_word (w := "as") (by decide)).append (h r rfl))

theorem leads_paramPieces {ps : List String} (h : ∀ p ∈ ps, p ∈ names) :
    Leads Open (paramPieces ps) Between 0 := by
  cases ps with
  | nil => exact leads_nil.mono (fun _ => id) fun _ => .inl
  | cons p ps => exact (operand_paramPieces (List.cons_ne_nil p ps) h).between

theorem stand_decorators {ds : List String} (h : ∀ d ∈ ds, d ∈ names) {ls : List Line}
    (hls : Stand level ls) :
    Stand level ((ds.map (Expr.name · .load)).map
      (fun d => ⟨level, op "@" :: d.pieces .test⟩) ++ ls) := by
  have hsign : Leads Open [op "@"] Open 0 :=
    (leads_op (o := "@") (by decide)).mono (fun _ => .inl) fun _ => Operated.open
  induction ds with
  | nil => exact hls
  | cons d ds ih =>
    obtain ⟨hd, hds⟩ := List.forall_mem_cons.1 h
    exact (Stand.of_operand (hsign.append (operand_name hd .load))).append (ih hds)

theorem operand_handler {id : String} {n : Option String} (hid : id ∈ exceptionNames)
    (hn : ∀ x ∈ n, x = "exc") :
    Operand ([word "except", gap] ++ (Expr.name id .load).pieces .test ++
      asPieces (n.map fun n => [word n])) := by
  have hexception := (leads_word_gap (w := "except") (by decide)).append
    ((Expr.printed_name (isName_exceptionNames id hid) .load).operand .test (by decide))
  refine operand_asPieces hexception fun row hrow => ?_
  obtain ⟨x, hx, rfl⟩ := Option.map_eq_some_iff.1 hrow
  rw [hn x hx]
  exact operand_word (by decide)

theorem operand_signature {n : String} {ps : List String} (hn : n ∈ names)
    (hps : ∀ p ∈ ps, p ∈ names) :
    Operand ([word "def", gap, word ("f" ++ n)] ++ enclose "(" ")" (paramPieces ps)) := by
  have hhead := (leads_word_gap (w := "def") (by decide)).append (leads_word (isName_function n hn))
  have hbrackets : Leads Between (enclose "(" ")" (paramPieces ps)) Bracketed 0 :=
    leads_enclose (by decide) (leads_paramPieces hps)
  exact hhead.append (hbrackets.mono (fun _ h => .inr h.closed) fun _ => Bracketed.closed)

theorem operand_classHead {n : String} {bs : List String} (hn : n ∈ names)
    (hbs : ∀ id ∈ bs, id ∈ names) :
    Operand ([word "class", gap, word ("C" ++ n)] ++
      (if (bs.map (Expr.name · .load)).isEmpty then [] else
        enclose "(" ")" (commas ((bs.map (Expr.name · .load)).map (Expr.pieces .test))))) := by
  have hhead := (leads_word_gap (w := "class") (by decide)).append (leads_word (isName_class n hn))
  have hrows : ∀ row ∈ (bs.map (Expr.name · .load)).map (Expr.pieces .test), Operand row := by
    intro row hrow
    simp only [List.map_map, List.mem_map] at hrow
    obtain ⟨id, hid, rfl⟩ := hrow
    exact operand_name (hbs id hid) .load
  split
  · exact (hhead.append leads_nil).mono (fun _ => id) fun _ => Named.closed
  · have hbrackets : Leads Between (enclose "(" ")" (commas
        ((bs.map (Expr.name · .load)).map (Expr.pieces .test)))) Bracketed 0 :=
      leads_enclose (by decide) (leads_commas hrows)
    exact hhead.append (hbrackets.mono (fun _ h => .inr h.closed) fun _ => Bracketed.closed)

theorem Stmt.Drawn.stands {d : Nat} {place : Build.Place} {s : Stmt} (h : s.Drawn d place) :
    s.Stands := by
  induction h with
  | simple h => exact fun level continues => h.stand level continues
  | @branch d place t b o ht hlength _ _ hb ho =>
    intro level continues
    have hword : Token.isName (if continues then "elif" else "if").toList = true := by
      cases continues with
      | _ => decide
    have hrow := (leads_word_gap hword).append ht.operand
    exact (Stand.block hrow (stand_blockLines hlength hb _)).append_optional (stand_elseLines ho)
  | whileLoop ht hlength _ hb =>
    intro level continues
    have hrow := (leads_word_gap (w := "while") (by decide)).append ht.operand
    exact .block hrow (stand_blockLines hlength hb _)
  | forLoop hid hi hlength _ hb =>
    intro level continues
    have htarget := (leads_word_gap (w := "for") (by decide)).append
      (operand_word (isName_names _ hid))
    have hin := leads_between_word (w := "in") (by decide)
    have hrow := (htarget.append hin).append hi.operand
    exact .block hrow (stand_blockLines hlength hb _)
  | @withBlock d place c id b hc hid hlength _ hb =>
    intro level continues
    have hcontext := (leads_word_gap (w := "with") (by decide)).append hc.operand
    refine .block (operand_asPieces hcontext ?_) (stand_blockLines hlength hb _)
    intro row hrow
    cases id with
    | none => cases hrow
    | some id =>
      cases hrow
      exact operand_name (hid id rfl) .store
  | @tryBlock d place id n b h f hid hn hlength _ hlength' _ _ hb hh hf =>
    intro level continues
    have htry := Stand.block (operand_word (w := "try") (by decide))
      (stand_blockLines hlength hb (level + 1))
    have hhandler := htry.append
      (.block (operand_handler hid hn) (stand_blockLines hlength' hh (level + 1)))
    -- the last block may be missing
    cases f with
    | nil => exact hhandler.append_optional (.inl rfl)
    | cons t f =>
      have hfinally := Stand.block (operand_word (w := "finally") (by decide))
        (stand_blockLines (b := t :: f) (Nat.succ_pos _) hf (level + 1))
      exact hhandler.append hfinally
  | @function d place n ps ds b r hn hps hlength hdrawn hds hr hb =>
    intro level continues
    have hhead := operand_signature hn hps.2
    have hsuite := stand_suiteLines hlength hdrawn hb (level + 1)
    cases r with
    | none => exact (stand_decorators hds (.block (hhead.append leads_nil) hsuite)).blank
    | some id =>
      have harrow : Leads Closed [gap, op "->", gap] Open 0 :=
        leads_between (o := "->") (by decide) (by decide)
      have hreturns := hhead.append (harrow.append (operand_name (hr id rfl) .load))
      exact (stand_decorators hds (.block hreturns hsuite)).blank
  | classDef hn hbs hlength hdrawn hb =>
    intro level continues
    exact (Stand.block (operand_classHead hn hbs) (stand_suiteLines hlength hdrawn hb _)).blank

theorem Module.stand_lines {d : Nat} {place : Build.Place} {m : Module} (hlength : 1 ≤ m.body.length)
    (h : ∀ s ∈ m.body, s.Drawn d place) : Stand 0 m.lines :=
  stand_suiteLines hlength h (fun s hs => (h s hs).stands) 0

end FormatFuzz.Program
