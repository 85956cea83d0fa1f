import FormatFuzz.Corpus.Store
import FormatFuzz.Proofs.Json.Number
import FormatFuzz.Proofs.Json.Text
import Mathlib.Data.List.Nodup

namespace FormatFuzz

/-- A value with a written form of its own: not a double that is infinite or no number. -/
def Primitive.Storable : Primitive → Prop
  | .float x => x.isFinite = true
  | _ => True

namespace Json

variable {rest : List Char} {v : Primitive}

theorem limitDigits_of_hasText (h : v.hasText = true) : limitDigits v = .ok v := by
  unfold limitDigits
  split
  · rw [if_pos h]
  · rfl

theorem limitDigits_of_not_hasText (h : v.hasText = false) :
    ∃ n, Text.maxDigits < n ∧ limitDigits v = .error (.limit (.digits n)) := by
  obtain ⟨i, rfl, hlength⟩ := Primitive.exists_int_of_not_hasText h
  exact ⟨_, hlength, by simp only [limitDigits, h, Bool.false_eq_true, if_false]⟩

/-- The reader comes back with the value, unless it has too many digits. -/
theorem readValue_writePrimitive (hv : v.Storable) (hrest : NumberFree rest) (fuel levels : Nat) :
    readValue (fuel + 1) levels ((writePrimitive v).toList ++ rest) =
      (limitDigits v).map fun v => (.prim v, rest) := by
  cases v with
  | null => rfl
  | bool b => cases b <;> rfl
  | int i =>
    obtain ⟨n, htext, hvalue⟩ := exists_numeral_toString i
    rw [writePrimitive, ← htext, ← hvalue]
    exact readValue_text n hrest fuel levels
  | float x =>
    obtain ⟨n, htext, hvalue⟩ := exists_numeral_write Decimal.storedStyle hv
    rw [writePrimitive, ← htext, ← hvalue]
    exact readValue_text n hrest fuel levels
  | str s =>
    simp only [writePrimitive, quote, String.toList_ofList, List.cons_append, List.append_assoc,
      List.nil_append, readValue, readString_quoted]
    exact congrArg (fun t => Except.ok (Data.str t, rest)) String.ofList_toList

theorem skipSpace_writePrimitive (hv : v.Storable) (rest : List Char) :
    skipSpace ((writePrimitive v).toList ++ rest) = (writePrimitive v).toList ++ rest := by
  cases v with
  | null => rfl
  | bool b => cases b <;> rfl
  | int i =>
    obtain ⟨n, htext, -⟩ := exists_numeral_toString i
    rw [writePrimitive, ← htext]
    exact skipSpace_text n rest
  | float x =>
    obtain ⟨n, htext, -⟩ := exists_numeral_write Decimal.storedStyle hv
    rw [writePrimitive, ← htext]
    exact skipSpace_text n rest
  | str s =>
    rw [writePrimitive, quote, String.toList_ofList]
    rfl

/-! ## Members -/

def memberText (e : String × Primitive) : List Char :=
  '"' :: (e.1.toList.flatMap escapeChar ++ '"' :: ':' :: ' ' :: (writePrimitive e.2).toList)

def membersText (e : String × Primitive) : List (String × Primitive) → List Char
  | [] => memberText e ++ ['\n', '\x7d']
  | next :: more => memberText e ++ ',' :: '\n' :: ' ' :: ' ' :: membersText next more

variable {e : String × Primitive}

def readMember (e : String × Primitive) : Except Fault (String × Data) :=
  (limitDigits e.2).map fun v => (e.1, .prim v)

theorem readMember_of_hasText (h : e.2.hasText = true) : readMember e = .ok (e.1, .prim e.2) := by
  rw [readMember, limitDigits_of_hasText h]
  rfl

theorem readMember_of_not_hasText (h : e.2.hasText = false) :
    ∃ n, Text.maxDigits < n ∧ readMember e = .error (.limit (.digits n)) := by
  obtain ⟨n, hn, hlimit⟩ := limitDigits_of_not_hasText h
  refine ⟨n, hn, ?_⟩
  rw [readMember, hlimit]
  rfl

theorem mapM_readMember_of_hasText {entries : List (String × Primitive)}
    (h : ∀ m ∈ entries, m.2.hasText = true) :
    entries.mapM readMember = .ok (entries.map fun m => (m.1, .prim m.2)) := by
  induction entries with
  | nil => rfl
  | cons e entries ih =>
    obtain ⟨he, hentries⟩ := List.forall_mem_cons.1 h
    rw [List.mapM_cons, readMember_of_hasText he, ih hentries]
    rfl

theorem mapM_readMember_of_not_hasText {entries : List (String × Primitive)}
    (h : ∃ m ∈ entries, m.2.hasText = false) :
    ∃ n, Text.maxDigits < n ∧ entries.mapM readMember = .error (.limit (.digits n)) := by
  induction entries with
  | nil =>
    obtain ⟨m, hm, -⟩ := h
    cases hm
  | cons e entries ih =>
    cases he : e.2.hasText with
    | false =>
      obtain ⟨n, hn, hread⟩ := readMember_of_not_hasText he
      refine ⟨n, hn, ?_⟩
      rw [List.mapM_cons, hread]
      rfl
    | true =>
      obtain ⟨m, hm, hlong⟩ := h
      have hmem : m ∈ entries := by
        refine (List.mem_cons.1 hm).resolve_left ?_
        rintro rfl
        rw [he] at hlong
        cases hlong
      obtain ⟨n, hn, hread⟩ := ih ⟨m, hmem, hlong⟩
      refine ⟨n, hn, ?_⟩
      rw [List.mapM_cons, readMember_of_hasText he, hread]
      rfl

theorem readMembers_memberText (he : e.2.Storable) (hrest : NumberFree rest) (fuel levels : Nat) :
    readMembers (fuel + 2) levels (memberText e ++ rest) = (do
      let member ← readMember e
      match skipSpace rest with
        | '\x7d' :: rest => .ok ([member], rest)
        | ',' :: rest => do
          let p ← readMembers (fuel + 1) levels (skipSpace rest)
          return (member :: p.1, p.2)
        | rest => fail .comma rest) := by
  have hcolon : ∀ cs, skipSpace (':' :: cs) = ':' :: cs := fun cs => rfl
  have hblank : ∀ cs, skipSpace (' ' :: cs) = skipSpace cs := fun cs => rfl
  rw [memberText, List.cons_append, List.append_assoc, readMembers]
  simp only [List.cons_append, readString_quoted, bind, Except.bind, hcolon, hblank,
    skipSpace_writePrimitive he, readValue_writePrimitive he hrest, String.ofList_toList]
  unfold readMember
  cases limitDigits e.2 <;> rfl

theorem readMembers_membersText {more : List (String × Primitive)}
    (h : ∀ m ∈ e :: more, m.2.Storable) {fuel : Nat} (hfuel : more.length < fuel) (levels : Nat) :
    readMembers (fuel + 1) levels (membersText e more) =
      ((e :: more).mapM readMember).map fun members => (members, []) := by
  induction more generalizing e fuel with
  | nil =>
    obtain ⟨fuel, rfl⟩ := Nat.exists_eq_add_one_of_ne_zero (Nat.ne_zero_of_lt hfuel)
    have hfree : NumberFree ['\n', '\x7d'] := by
      intro c hc
      cases hc
      decide
    rw [membersText, readMembers_memberText (h e List.mem_cons_self) hfree, List.mapM_cons,
      List.mapM_nil]
    cases readMember e <;> rfl
  | cons next more ih =>
    rw [List.length_cons] at hfuel
    obtain ⟨fuel, rfl⟩ := Nat.exists_eq_add_one_of_ne_zero (Nat.ne_zero_of_lt hfuel)
    have hfree : NumberFree (',' :: '\n' :: ' ' :: ' ' :: membersText next more) := by
      intro c hc
      cases hc
      decide
    have hcomma : skipSpace (',' :: '\n' :: ' ' :: ' ' :: membersText next more) =
        ',' :: '\n' :: ' ' :: ' ' :: membersText next more := rfl
    have hstart : skipSpace ('\n' :: ' ' :: ' ' :: membersText next more) = membersText next more := by
      cases more <;> rfl
    rw [membersText, readMembers_memberText (h e List.mem_cons_self) hfree, hcomma, List.mapM_cons]
    simp only [hstart]
    rw [ih (fun m hm => h m (List.mem_cons_of_mem _ hm)) (by omega)]
    cases readMember e with
    | error fault => rfl
    | ok member => cases (next :: more).mapM readMember <;> rfl

theorem exists_membersText_eq_cons (e : String × Primitive) (more : List (String × Primitive)) :
    ∃ tail, membersText e more = '"' :: tail := by
  cases more <;> exact ⟨_, rfl⟩

theorem length_lt_membersText (e : String × Primitive) (more : List (String × Primitive)) :
    more.length < (membersText e more).length := by
  induction more generalizing e with
  | nil => simp [membersText]
  | cons next more ih =>
    have hnext := ih next
    simp only [membersText, List.length_append, List.length_cons]
    omega

theorem readValue_membersText {more : List (String × Primitive)}
    (h : ∀ m ∈ e :: more, m.2.Storable) {fuel : Nat} (hfuel : more.length < fuel) (levels : Nat) :
    readValue (fuel + 2) (levels + 1) ('\x7b' :: '\n' :: ' ' :: ' ' :: membersText e more) =
      ((e :: more).mapM readMember).map fun members => (.ofPairs members, []) := by
  obtain ⟨tail, htail⟩ := exists_membersText_eq_cons e more
  have hstart : skipSpace ('\n' :: ' ' :: ' ' :: membersText e more) = '"' :: tail := by
    rw [htail]
    rfl
  have hmembers := readMembers_membersText h hfuel levels
  rw [htail] at hmembers
  simp only [readValue, hstart, inside, bind, Except.bind]
  split
  · next heq => exact absurd (List.cons.inj heq).1 (by decide)
  · rw [hmembers]
    cases (e :: more).mapM readMember <;> rfl

/-! ## Control characters -/

theorem le_toNat_of_all {cs : List Char} (h : cs.all (32 ≤ ·.toNat) = true) : ∀ d ∈ cs, 32 ≤ d.toNat := by
  simpa only [List.all_eq_true, decide_eq_true_eq] using h

theorem le_toNat_escapeChar (c : Char) : ∀ d ∈ escapeChar c, 32 ≤ d.toNat := by
  apply le_toNat_of_all
  unfold escapeChar
  split_ifs with _ _ _ _ _ _ _ hcontrol
  all_goals try rfl
  · rw [hex_of_lt hcontrol]
    generalize c.toNat = n at hcontrol
    revert n
    decide
  · simpa using hcontrol

theorem le_toNat_flatMap (s : List Char) : ∀ d ∈ s.flatMap escapeChar, 32 ≤ d.toNat := by
  intro d hd
  obtain ⟨c, -, hmem⟩ := List.mem_flatMap.1 hd
  exact le_toNat_escapeChar c d hmem

theorem le_toNat_text (n : Numeral) : ∀ d ∈ n.text, 32 ≤ d.toNat := by
  intro d hd
  have hchar := mem_text n d hd
  simp only [isNumberChar, Bool.or_eq_true, beq_iff_eq, Char.isDigit_iff_toNat] at hchar
  rcases hchar with (((hdigit | rfl) | rfl) | rfl) | rfl
  · exact Nat.le_trans (by decide) hdigit.1
  all_goals decide

theorem le_toNat_writePrimitive (v : Primitive) : ∀ d ∈ (writePrimitive v).toList, 32 ≤ d.toNat := by
  cases v with
  | null => exact le_toNat_of_all rfl
  | bool b => cases b <;> exact le_toNat_of_all rfl
  | int i =>
    obtain ⟨n, htext, -⟩ := exists_numeral_toString i
    rw [writePrimitive, ← htext]
    exact le_toNat_text n
  | float x =>
    cases hx : x.isFinite with
    | true =>
      obtain ⟨n, htext, -⟩ := exists_numeral_write Decimal.storedStyle hx
      rw [writePrimitive, ← htext]
      exact le_toNat_text n
    | false =>
      have hnull : writePrimitive (.float x) = "null" := by
        simp [writePrimitive, Decimal.Style.write, hx, Decimal.storedStyle]
      rw [hnull]
      exact le_toNat_of_all rfl
  | str s =>
    intro d hd
    simp only [writePrimitive, quote, String.toList_ofList, List.mem_append, List.mem_cons,
      List.not_mem_nil, or_false] at hd
    rcases hd with (rfl | hd) | rfl
    · decide
    · exact le_toNat_flatMap s.toList d hd
    · decide

theorem le_toNat_memberText (e : String × Primitive) : ∀ d ∈ memberText e, 32 ≤ d.toNat := by
  intro d hd
  simp only [memberText, List.mem_cons, List.mem_append] at hd
  rcases hd with rfl | hd | rfl | rfl | rfl | hd
  · decide
  · exact le_toNat_flatMap e.1.toList d hd
  · decide
  · decide
  · decide
  · exact le_toNat_writePrimitive e.2 d hd

/-- The only control characters are the line ends between the members. -/
theorem le_toNat_membersText (e : String × Primitive) (more : List (String × Primitive)) :
    ∀ d ∈ membersText e more, d = '\n' ∨ 32 ≤ d.toNat := by
  induction more generalizing e with
  | nil =>
    intro d hd
    simp only [membersText, List.mem_append, List.mem_cons, List.not_mem_nil, or_false] at hd
    rcases hd with hd | rfl | rfl
    · exact .inr (le_toNat_memberText e d hd)
    · exact .inl rfl
    · exact .inr (by decide)
  | cons next more ih =>
    intro d hd
    simp only [membersText, List.mem_append, List.mem_cons] at hd
    rcases hd with hd | rfl | rfl | rfl | rfl | hd
    · exact .inr (le_toNat_memberText e d hd)
    · exact .inr (by decide)
    · exact .inl rfl
    · exact .inr (by decide)
    · exact .inr (by decide)
    · exact ih next d hd

end Json

theorem Text.unifyLineEnds_eq_self {cs : List Char} (h : '\r' ∉ cs) : unifyLineEnds cs = cs := by
  fun_induction unifyLineEnds cs with
  | case1 => rfl
  | case2 cs ih => exact absurd List.mem_cons_self h
  | case3 cs _ ih => exact absurd List.mem_cons_self h
  | case4 c cs _ _ ih => rw [ih fun hmem => h (List.mem_cons_of_mem _ hmem)]

namespace Options

variable {o : Options} {e : String × Primitive} {more : List (String × Primitive)}

def line (e : String × Primitive) : String :=
  "  " ++ Json.quote e.1 ++ ": " ++ Json.writePrimitive e.2

theorem toList_line (e : String × Primitive) :
    (line e).toList = ' ' :: ' ' :: Json.memberText e := by
  simp [line, Json.quote, Json.memberText]

theorem intercalate_lines (e : String × Primitive) (more : List (String × Primitive)) :
    [',', '\n'].intercalate ((e :: more).map fun m => (line m).toList) ++ ['\n', '\x7d'] =
      ' ' :: ' ' :: Json.membersText e more := by
  induction more generalizing e with
  | nil =>
    rw [List.map_singleton, List.intercalate_singleton, toList_line]
    rfl
  | cons next more ih =>
    have hnext := ih next
    rw [List.map_cons] at hnext
    rw [List.map_cons, List.map_cons, List.intercalate_cons_cons, List.append_assoc,
      List.append_assoc, hnext, toList_line]
    rfl

theorem toList_toJson (h : o.entries = e :: more) :
    o.toJson.toList = '\x7b' :: '\n' :: ' ' :: ' ' :: Json.membersText e more := by
  have hcomma : ",\n".toList = [',', '\n'] := by decide
  have hopen : "\x7b\n".toList = ['\x7b', '\n'] := by decide
  have hclose : "\n\x7d".toList = ['\n', '\x7d'] := by decide
  have hlines := intercalate_lines e more
  unfold toJson
  rw [h]
  change ("\x7b\n" ++ ",\n".intercalate ((e :: more).map line) ++ "\n\x7d").toList = _
  rw [String.toList_append, String.toList_append, String.toList_intercalate, List.map_map, hcomma,
    hopen, hclose, List.append_assoc]
  exact congrArg (['\x7b', '\n'] ++ ·) hlines

theorem toJson_of_nil (h : o.entries = []) : o.toJson = "\x7b\x7d" := by
  unfold toJson
  rw [h]

theorem le_toNat_toJson (o : Options) : ∀ d ∈ o.toJson.toList, d = '\n' ∨ 32 ≤ d.toNat := by
  cases hentries : o.entries with
  | nil =>
    rw [toJson_of_nil hentries]
    exact fun d hd => .inr (Json.le_toNat_of_all rfl d hd)
  | cons e more =>
    rw [toList_toJson hentries]
    intro d hd
    simp only [List.mem_cons] at hd
    rcases hd with rfl | rfl | rfl | rfl | hd
    · exact .inr (by decide)
    · exact .inl rfl
    · exact .inr (by decide)
    · exact .inr (by decide)
    · exact Json.le_toNat_membersText e more d hd

/-- What is stored is read member by member, up to the first whose value has too many digits. -/
theorem read_toJson (h : ∀ m ∈ o.entries, m.2.Storable) (levels : Nat) :
    Json.read levels o.toJson =
      ((o.entries.mapM Json.readMember).map Data.ofPairs).mapError (Json.Fault.locate o.toJson.toList) := by
  cases hentries : o.entries with
  | nil =>
    rw [toJson_of_nil hentries]
    rfl
  | cons e more =>
    rw [hentries] at h
    have hlen := Json.length_lt_membersText e more
    have hread := Json.readValue_membersText h
      (show more.length < 2 * ('\x7b' :: '\n' :: ' ' :: ' ' :: Json.membersText e more).length by
        simp only [List.length_cons]
        omega) levels
    unfold Json.read
    rw [toList_toJson hentries]
    have hmark : (some '\x7b' == some '\ufeff') = false := by decide
    have hstart : ∀ cs, Json.skipSpace ('\x7b' :: cs) = '\x7b' :: cs := fun cs => rfl
    simp only [List.head?_cons, hmark, hstart, hread, bind, Except.bind]
    cases (e :: more).mapM Json.readMember <;> rfl

theorem read_toJson_of_hasText (h : ∀ m ∈ o.entries, m.2.Storable)
    (htext : ∀ m ∈ o.entries, m.2.hasText = true) (levels : Nat) :
    Json.read levels o.toJson = .ok (.ofPairs (o.entries.map fun m => (m.1, .prim m.2))) := by
  rw [read_toJson h, Json.mapM_readMember_of_hasText htext]
  rfl

theorem read_toJson_of_not_hasText (h : ∀ m ∈ o.entries, m.2.Storable)
    (hlong : ∃ m ∈ o.entries, m.2.hasText = false) (levels : Nat) :
    ∃ n, Text.maxDigits < n ∧ Json.read levels o.toJson = .error (.limit (.digits n)) := by
  obtain ⟨n, hn, hread⟩ := Json.mapM_readMember_of_not_hasText hlong
  refine ⟨n, hn, ?_⟩
  rw [read_toJson h, hread]
  rfl

/-! ## Options from data -/

theorem insert_of_notMem {entries : List (String × Primitive)} {name : String}
    (h : name ∉ entries.map Prod.fst) (value : Data) :
    Data.insert (entries.map fun m => (.str m.1, .prim m.2)) (.str name) value =
      (entries.map fun m => (.str m.1, .prim m.2)) ++ [(.str name, value)] := by
  induction entries with
  | nil => rfl
  | cons m entries ih =>
    rw [List.map_cons, List.mem_cons, not_or] at h
    have hne : Data.equal (.str m.1) (.str name) = false := by
      rw [Data.equal]
      exact beq_false_of_ne fun heq => h.1 heq.symm
    rw [List.map_cons, Data.insert, hne, ih h.2]
    rfl

theorem ofPairs_append {done entries : List (String × Primitive)}
    (h : ((done ++ entries).map Prod.fst).Nodup) :
    (entries.map fun m => (m.1, Data.prim m.2)).foldl
        (fun es (k, v) => Data.insert es (.str k) v) (done.map fun m => (.str m.1, .prim m.2)) =
      (done ++ entries).map fun m => (.str m.1, .prim m.2) := by
  induction entries generalizing done with
  | nil => simp
  | cons m entries ih =>
    have hm : m.1 ∉ done.map Prod.fst := by
      intro hmem
      rw [List.map_append, List.nodup_append] at h
      exact h.2.2 m.1 hmem m.1 List.mem_cons_self rfl
    have hsplit : done ++ m :: entries = (done ++ [m]) ++ entries := by simp
    rw [hsplit] at h ⊢
    have hinsert := insert_of_notMem hm (.prim m.2)
    simp only [List.map_cons, List.foldl_cons, hinsert]
    rw [← ih h, List.map_append]
    rfl

theorem ofPairs_entries (h : (o.entries.map Prod.fst).Nodup) :
    Data.ofPairs (o.entries.map fun m => (m.1, .prim m.2)) = o.toData := by
  unfold Data.ofPairs toData
  exact congrArg Data.dict (@ofPairs_append [] o.entries h)

theorem ofEntries_toData (o : Options) :
    ofEntries (o.entries.map fun m => (.str m.1, .prim m.2)) = .ok o := by
  have hissues : (o.entries.map fun m => (Data.str m.1, Data.prim m.2)).flatMap entryIssues = [] := by
    rw [List.flatMap_eq_nil_iff]
    intro m hm
    obtain ⟨m, -, rfl⟩ := List.mem_map.1 hm
    rfl
  have hentries : (o.entries.map fun m => (Data.str m.1, Data.prim m.2)).filterMap entry? =
      o.entries := by
    rw [List.filterMap_map]
    exact List.filterMap_some
  unfold ofEntries
  rw [hissues, hentries]

theorem find?_names (entries : List (String × Data)) (name : String) :
    Data.find? (entries.map fun m => (.str m.1, m.2)) (.str name) = entries.lookup name := by
  induction entries with
  | nil => rfl
  | cons m entries ih =>
    have hequal : Data.equal (.str m.1) (.str name) = (name == m.1) := by
      rw [Data.equal]
      exact Bool.beq_comm
    unfold Data.find? at ih ⊢
    rw [List.map_cons, List.find?_cons, List.lookup_cons, hequal]
    cases name == m.1 with
    | false => exact ih
    | true => rfl

theorem lookup_map {α β : Type} (f : α → β) (entries : List (String × α)) (name : String) :
    (entries.map fun m => (m.1, f m.2)).lookup name = (entries.lookup name).map f := by
  induction entries with
  | nil => rfl
  | cons m entries ih =>
    rw [List.map_cons, List.lookup_cons, List.lookup_cons]
    cases name == m.1 with
    | false => exact ih
    | true => rfl

theorem find?_entries (entries : List (String × Primitive)) (name : String) :
    Data.find? (entries.map fun m => (.str m.1, .prim m.2)) (.str name) =
      (entries.lookup name).map .prim := by
  rw [← lookup_map, ← find?_names, List.map_map]
  rfl

/-- Named values without issues have no parts. -/
theorem eq_map_filterMap_entry? {entries : List (String × Data)}
    (h : (entries.map fun m => (Data.str m.1, m.2)).flatMap entryIssues = []) :
    entries = ((entries.map fun m => (Data.str m.1, m.2)).filterMap entry?).map
      fun m => (m.1, .prim m.2) := by
  induction entries with
  | nil => rfl
  | cons m entries ih =>
    obtain ⟨name, v⟩ := m
    rw [List.map_cons, List.flatMap_cons, List.append_eq_nil_iff] at h
    cases v with
    | prim p => exact congrArg ((name, .prim p) :: ·) (ih h.2)
    | _ => simp [entryIssues] at h

/-- Options are made of named values exactly when none of these has parts. -/
theorem ofEntries_eq_ok_iff {entries : List (String × Data)} :
    ofEntries (entries.map fun m => (.str m.1, m.2)) = .ok o ↔
      entries = o.entries.map fun m => (m.1, .prim m.2) := by
  constructor
  · intro h
    unfold ofEntries at h
    split at h
    · next hissues =>
      cases h
      exact eq_map_filterMap_entry? hissues
    · cases h
  · rintro rfl
    rw [List.map_map]
    exact ofEntries_toData o

/-- Named values are the options themselves if none of them has the name `values`. -/
theorem ofData_of_notMem {entries : List (String × Data)} (h : "values" ∉ entries.map Prod.fst) :
    ofData (.dict (entries.map fun m => (.str m.1, m.2))) =
      ofEntries (entries.map fun m => (.str m.1, m.2)) := by
  have hnone : entries.lookup "values" = none := by
    rw [List.lookup_eq_none_iff]
    intro m hm
    rw [bne_iff_ne]
    intro heq
    apply h
    rw [heq]
    exact List.mem_map_of_mem hm
  unfold ofData
  simp only [find?_names, hnone]

theorem ofData_toData (h : "values" ∉ o.entries.map Prod.fst) : ofData o.toData = .ok o := by
  have hnames : "values" ∉ (o.entries.map fun m => (m.1, Data.prim m.2)).map Prod.fst := by
    rwa [List.map_map]
  have hentries := ofData_of_notMem hnames
  rw [List.map_map] at hentries
  exact hentries.trans (ofEntries_toData o)

/-! ## Reading what is written -/

/-- Options made of a mapping of names are written as a text that stands for the same mapping, entry by
entry and value by value, and the mapping that is read from it makes the same options again. With an
integer of too many digits among the values, the text is not read. -/
theorem ofData_read_toJson {entries : List (String × Primitive)} (hnames : (entries.map Prod.fst).Nodup)
    (hvalues : "values" ∉ entries.map Prod.fst) (hstorable : ∀ m ∈ entries, m.2.Storable) (levels : Nat) :
    ∃ o : Options, ofData (.dict (entries.map fun m => (.str m.1, .prim m.2))) = .ok o ∧
      o.entries = entries ∧
      ((∀ m ∈ entries, m.2.hasText = true) → ∃ data, Json.read levels o.toJson = .ok data ∧
        data = .dict (entries.map fun m => (.str m.1, .prim m.2)) ∧ ofData data = .ok o) ∧
      ((∃ m ∈ entries, m.2.hasText = false) → ∃ n, Text.maxDigits < n ∧
        Json.read levels o.toJson = .error (.limit (.digits n))) := by
  have hmade := ofData_toData (o := ⟨entries⟩) hvalues
  refine ⟨⟨entries⟩, hmade, rfl, fun htext => ?_, fun hlong => ?_⟩
  · have hread := read_toJson_of_hasText (o := ⟨entries⟩) hstorable htext levels
    rw [ofPairs_entries (o := ⟨entries⟩) hnames] at hread
    exact ⟨_, hread, rfl, hmade⟩
  · exact read_toJson_of_not_hasText (o := ⟨entries⟩) hstorable hlong levels

def mixedEntries : List (String × Primitive) :=
  [("quote \" slash \\ bell \x07", .str "\t\\\"\u00e9\u2028"), ("", .bool true), ("int", .int 1),
    ("double", .float ⟨0x3ff0000000000000⟩), ("text", .str "1"), ("nothing", .null),
    ("minus zero", .float ⟨0x8000000000000000⟩), ("huge", .int (-10 ^ 30))]

theorem ofData_read_toJson_mixedEntries : (mixedEntries.map Prod.fst).Nodup ∧
    "values" ∉ mixedEntries.map Prod.fst ∧ (∀ m ∈ mixedEntries, m.2.Storable) ∧
      (∀ m ∈ mixedEntries, m.2.hasText = true) ∧
      ∃ o : Options, ofData (.dict (mixedEntries.map fun m => (.str m.1, .prim m.2))) = .ok o ∧
        o.entries = mixedEntries ∧ ∃ data, Json.read 0 o.toJson = .ok data ∧ ofData data = .ok o := by
  have hnames : (mixedEntries.map Prod.fst).Nodup := by decide
  have hvalues : "values" ∉ mixedEntries.map Prod.fst := by decide
  have hstorable : ∀ m ∈ mixedEntries, m.2.Storable := by
    simp only [mixedEntries, List.forall_mem_cons, List.not_mem_nil, false_imp_iff, implies_true,
      Primitive.Storable, and_true, true_and]
    decide
  have htext : ∀ m ∈ mixedEntries, m.2.hasText = true := by decide +kernel
  obtain ⟨o, hmade, hentries, hread, -⟩ := ofData_read_toJson hnames hvalues hstorable 0
  obtain ⟨data, hdata, -, hagain⟩ := hread htext
  exact ⟨hnames, hvalues, hstorable, htext, o, hmade, hentries, data, hdata, hagain⟩

def longOptions : Options := ⟨[("n", .int (10 ^ Text.maxDigits))]⟩

theorem not_hasText_long : (Primitive.int (10 ^ Text.maxDigits)).hasText = false := by
  decide +kernel

theorem read_toJson_longOptions (levels : Nat) :
    ∃ n, Text.maxDigits < n ∧ Json.read levels longOptions.toJson = .error (.limit (.digits n)) :=
  read_toJson_of_not_hasText (o := longOptions) (by simp [longOptions, Primitive.Storable])
    ⟨_, List.mem_singleton_self _, not_hasText_long⟩ levels

/-- Not all options are read back. -/
theorem not_forall_read_toJson :
    ¬ ∀ (o : Options) (levels : Nat), (o.entries.map Prod.fst).Nodup →
      "values" ∉ o.entries.map Prod.fst → (∀ m ∈ o.entries, m.2.Storable) →
        ∃ data, Json.read levels o.toJson = .ok data ∧ ofData data = .ok o := by
  intro h
  obtain ⟨data, hread, -⟩ := h longOptions 0 (by simp [longOptions]) (by simp [longOptions])
    (by simp [longOptions, Primitive.Storable])
  obtain ⟨n, -, hlimit⟩ := read_toJson_longOptions 0
  rw [hlimit] at hread
  cases hread

end Options

namespace CorpusStore

variable {o : Options}

theorem unifyLineEnds_toJson (o : Options) :
    String.ofList (Text.unifyLineEnds o.toJson.toList) = o.toJson := by
  have hreturn : '\r' ∉ o.toJson.toList := fun hmem =>
    absurd (o.le_toNat_toJson '\r' hmem) (by decide)
  rw [Text.unifyLineEnds_eq_self hreturn, String.ofList_toList]

theorem readOptions_toJson (hnames : (o.entries.map Prod.fst).Nodup)
    (hvalues : "values" ∉ o.entries.map Prod.fst) (hstorable : ∀ m ∈ o.entries, m.2.Storable)
    (htext : ∀ m ∈ o.entries, m.2.hasText = true) (s : CorpusStore) :
    s.readOptions o.toJson = .ok o := by
  unfold readOptions
  rw [unifyLineEnds_toJson]
  simp only [o.read_toJson_of_hasText hstorable htext, o.ofPairs_entries hnames, Except.mapError,
    bind, Except.bind]
  rw [o.ofData_toData hvalues]

theorem readOptions_toJson_of_not_hasText (hstorable : ∀ m ∈ o.entries, m.2.Storable)
    (hlong : ∃ m ∈ o.entries, m.2.hasText = false) (s : CorpusStore) :
    ∃ n, Text.maxDigits < n ∧ s.readOptions o.toJson = .error (.limit (.digits n)) := by
  obtain ⟨n, hn, hread⟩ := o.read_toJson_of_not_hasText hstorable hlong s.levels
  refine ⟨n, hn, ?_⟩
  unfold readOptions
  rw [unifyLineEnds_toJson]
  simp only [hread, Except.mapError, bind, Except.bind, jsonError]

end CorpusStore

end FormatFuzz
