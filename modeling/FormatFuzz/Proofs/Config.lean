import FormatFuzz.Config
import FormatFuzz.Proofs.Space.Override
import FormatFuzz.Proofs.Text.Utf8

namespace FormatFuzz

namespace Config

variable {data : Data} {name : String} {c : Config} {t : FileTree} {cwd home : Path}

def OrDefault {α : Type} (Gives : α → Prop) (default value : α) : Prop :=
  Gives value ∨ (¬ ∃ v, Gives v) ∧ value = default

def GivesText (entry : Option Data) (s : String) : Prop := entry = some (.str s) ∧ s ≠ ""

/-- An entry that is an integer gives this integer. Truth values are none. -/
def GivesInteger (entry : Option Data) (n : Int) : Prop := entry = some (.int n)

def domains (entries : List (Data × Data)) : Space :=
  entries.filterMap fun (k, v) =>
    match v with
    | .dict fields => some (k.text, ⟨fields⟩)
    | _ => none

def GivesSpace (entry : Option Data) (space : Space) : Prop :=
  ∃ entries, entry = some (.dict entries) ∧ Space.Collects (domains entries) space

/-- The names of all domains have texts. Only integers with too many digits have none. -/
def NamesHaveText (data : Data) : Prop :=
  ∀ entries, data.get? "option_space" = some (.dict entries) →
    ∀ k fields, (k, .dict fields) ∈ entries → k.hasText = true

/-- Every setting of a configuration is the value of its own entry in the data, or its default. -/
structure Holds (data : Data) (c : Config) : Prop where
  generator : OrDefault (GivesText (data.get? "generator")) "ast" c.generator
  maxDepth : OrDefault (GivesInteger (data.get? "max_depth")) 7 c.maxDepth
  oracle : OrDefault (GivesText (data.get? "oracle")) "black" c.oracle
  boringPattern : OrDefault (GivesText (data.get? "boring_pattern"))
    "^[\\s;]*$|\\b(?:global|nonlocal)\\b" c.boringPattern
  syntaxErrorPattern : OrDefault (GivesText (data.get? "syntax_error_pattern"))
    "SyntaxError|Cannot parse" c.syntaxErrorPattern
  corpusDir : ∀ s, c.corpusDir = some s ↔ GivesText (data.get? "corpus_dir") s
  optionSpace : OrDefault (GivesSpace (data.get? "option_space")) [] c.optionSpace

theorem orDefault_getD {α : Type} {Gives : α → Prop} {o : Option α} (h : ∀ v, o = some v ↔ Gives v)
    (default : α) : OrDefault Gives default (o.getD default) := by
  cases ho : o with
  | some v => exact .inl ((h v).1 ho)
  | none =>
    refine .inr ⟨?_, rfl⟩
    rintro ⟨v, hv⟩
    cases ho.symm.trans ((h v).2 hv)

theorem text?_eq_some_iff {s : String} : text? data name = some s ↔ GivesText (data.get? name) s := by
  unfold text? GivesText
  split
  · next found hfound =>
    rw [hfound]
    by_cases hempty : found.isEmpty
    · rw [if_pos hempty]
      constructor
      · nofun
      · rintro ⟨hs, hne⟩
        cases hs
        exact absurd (String.isEmpty_iff.1 hempty) hne
    · rw [if_neg hempty]
      constructor
      · rintro ⟨⟩
        exact ⟨rfl, mt String.isEmpty_iff.2 hempty⟩
      · rintro ⟨⟨⟩, -⟩
        rfl
  · next hother =>
    exact ⟨nofun, fun ⟨hs, _⟩ => absurd hs (hother s)⟩

theorem int?_eq_some_iff {n : Int} : int? data name = some n ↔ GivesInteger (data.get? name) n := by
  unfold int? GivesInteger
  split
  · next found hfound =>
    rw [hfound]
    exact ⟨fun h => by cases h; rfl, fun h => by cases h; rfl⟩
  · next hother => exact ⟨nofun, fun h => absurd h (hother n)⟩

theorem collects_foldl {pairs space : Space} (h : Space.Collects pairs space)
    (entries : List (Data × Data)) :
    Space.Collects (pairs ++ domains entries) (entries.foldl (fun space (k, v) =>
      match v with
      | .dict fields => Space.override space [(k.text, ⟨fields⟩)]
      | _ => space) space) := by
  induction entries generalizing pairs space with
  | nil =>
    rw [show domains [] = [] from rfl, List.append_nil]
    exact h
  | cons e entries ih =>
    obtain ⟨k, v⟩ := e
    rw [List.foldl_cons]
    cases v with
    | dict fields =>
      have hnext := ih (h.concat k.text ⟨fields⟩)
      rw [List.append_assoc] at hnext
      exact hnext
    | prim v => exact ih h
    | list items => exact ih h
    | other kind text => exact ih h

theorem collects_of_spaceOf {entries : List (Data × Data)} {space : Space}
    (h : spaceOf entries = .ok space) : Space.Collects (domains entries) space := by
  have hnone : Space.Collects [] [] := ⟨rfl, fun _ => rfl⟩
  unfold spaceOf at h
  split at h
  · cases h
    exact collects_foldl hnone entries
  · cases h

theorem namesHaveText_iff {entries : List (Data × Data)} : namesHaveText entries = true ↔
    ∀ k fields, (k, .dict fields) ∈ entries → k.hasText = true := by
  rw [namesHaveText, List.all_eq_true]
  constructor
  · exact fun h k fields hmem => h (k, .dict fields) hmem
  · rintro h ⟨k, v⟩ hmem
    cases v with
    | dict fields => exact h k fields hmem
    | prim v => rfl
    | list items => rfl
    | other kind text => rfl

/-- With a space every setting is its own, whatever the others are. -/
theorem holds_of_space {space : Space}
    (h : OrDefault (GivesSpace (data.get? "option_space")) [] space) : Holds data {
      generator := (text? data "generator").getD "ast"
      maxDepth := (int? data "max_depth").getD 7
      oracle := (text? data "oracle").getD "black"
      boringPattern := (text? data "boring_pattern").getD defaultBoringPattern
      syntaxErrorPattern := (text? data "syntax_error_pattern").getD defaultSyntaxErrorPattern
      corpusDir := text? data "corpus_dir"
      optionSpace := space } where
  generator := orDefault_getD (fun _ => text?_eq_some_iff) _
  maxDepth := orDefault_getD (fun _ => int?_eq_some_iff) _
  oracle := orDefault_getD (fun _ => text?_eq_some_iff) _
  boringPattern := orDefault_getD (fun _ => text?_eq_some_iff) _
  syntaxErrorPattern := orDefault_getD (fun _ => text?_eq_some_iff) _
  corpusDir := fun _ => text?_eq_some_iff
  optionSpace := h

theorem ofMapping_cases (data : Data) :
    (∃ c, ofMapping data = .ok c ∧ Holds data c) ∧ NamesHaveText data ∨
      ofMapping data = .error .nameWithoutText ∧ ¬ NamesHaveText data := by
  unfold ofMapping
  dsimp only
  split
  · next entries hentries =>
    have hnames : namesHaveText entries = true ↔ NamesHaveText data := by
      rw [namesHaveText_iff]
      refine ⟨fun h entries' hentries' => ?_, fun h => h entries hentries⟩
      cases hentries.symm.trans hentries'
      exact h
    cases hspace : spaceOf entries with
    | ok space =>
      refine .inl ⟨⟨_, rfl, holds_of_space (.inl ⟨entries, hentries, collects_of_spaceOf hspace⟩)⟩, ?_⟩
      unfold spaceOf at hspace
      split at hspace
      · next htexts => exact hnames.1 htexts
      · cases hspace
    | error e =>
      unfold spaceOf at hspace
      split at hspace
      · cases hspace
      · next htexts =>
        cases hspace
        exact .inr ⟨rfl, mt hnames.2 htexts⟩
  · next hother =>
    refine .inl ⟨⟨_, rfl, holds_of_space (.inr ⟨?_, rfl⟩)⟩, fun entries hentries => ?_⟩
    · rintro ⟨space, entries, hentries, -⟩
      exact hother entries hentries
    · exact absurd hentries (hother entries)

/-- Data that count as false are no mapping with entries. -/
theorem get?_of_not_truthy (h : data.truthy = false) (name : String) : data.get? name = none := by
  cases data with
  | dict entries =>
    rw [show entries = [] by simpa [Data.truthy] using h]
    rfl
  | prim v => rfl
  | list items => rfl
  | other kind text => rfl

/-- Data that count as false hold no settings, so all have their defaults. -/
theorem ofData_of_not_truthy (h : data.truthy = false) : ∃ c, ofData data = .ok c ∧ Holds data c := by
  have hnone := get?_of_not_truthy h
  refine ⟨{}, by simp [ofData, h], ?_⟩
  have hspace : OrDefault (GivesSpace (data.get? "option_space")) [] [] :=
    .inr ⟨by simp [GivesSpace, hnone], rfl⟩
  have hholds := holds_of_space hspace
  simpa only [text?, int?, hnone, Option.getD_none] using hholds

theorem ofData_dict {entries : List (Data × Data)} (h : Data.truthy (.dict entries) = true) :
    ofData (.dict entries) = ofMapping (.dict entries) := by
  rw [ofData, h]
  rfl

theorem ofData_of_other (htruthy : data.truthy = true) (h : ∀ entries, data ≠ .dict entries) :
    ofData data = .error (.notMapping data.kind) := by
  unfold ofData
  rw [htruthy]
  cases data with
  | dict entries => exact absurd rfl (h entries)
  | prim v => rfl
  | list items => rfl
  | other kind text => rfl

variable {place : Place} {bytes : List UInt8} {text : String}

theorem load_eq_ofData (hplace : place? t cwd home = some place) (hread : t.read place = .ok bytes)
    (htext : Text.decodeUtf8 bytes = .ok text)
    (hdata : Yaml.read (String.ofList (Text.unifyLineEnds text.toList)) = .ok data) :
    load t cwd home = ofData data := by
  unfold load
  rw [hplace]
  simp only [hread, htext, Except.mapError, bind, Except.bind, ofText, hdata]

/-- Whatever is in a configuration file that can be read, each setting of the configuration that is
loaded is the value of its own entry if that has the right kind, and else its default. A configuration
is loaded exactly if the data count as false or are a mapping in which the names of all domains have texts;
else it is said of which kind they are, or that a name has no text. -/
theorem load_settings (hplace : place? t cwd home = some place) (hread : t.read place = .ok bytes)
    (htext : Text.decodeUtf8 bytes = .ok text)
    (hdata : Yaml.read (String.ofList (Text.unifyLineEnds text.toList)) = .ok data) :
    (∀ c, load t cwd home = .ok c → Holds data c) ∧
      ((∃ c, load t cwd home = .ok c) ↔
        data.truthy = false ∨ (∃ entries, data = .dict entries) ∧ NamesHaveText data) ∧
      ∀ e, load t cwd home = .error e →
        e = .notMapping data.kind ∧ (¬ ∃ entries, data = .dict entries) ∨
          e = .nameWithoutText ∧ (∃ entries, data = .dict entries) ∧ ¬ NamesHaveText data := by
  rw [load_eq_ofData hplace hread htext hdata]
  cases htruthy : data.truthy with
  | false =>
    obtain ⟨c, hc, hholds⟩ := ofData_of_not_truthy htruthy
    rw [hc]
    refine ⟨?_, iff_of_true ⟨c, rfl⟩ (.inl rfl), nofun⟩
    rintro c' ⟨⟩
    exact hholds
  | true =>
    by_cases hmapping : ∃ entries, data = .dict entries
    · obtain ⟨entries, rfl⟩ := hmapping
      rw [ofData_dict htruthy]
      rcases ofMapping_cases (.dict entries) with ⟨⟨c, hc, hholds⟩, hnames⟩ | ⟨herror, hnames⟩
      · rw [hc]
        refine ⟨?_, iff_of_true ⟨c, rfl⟩ (.inr ⟨⟨entries, rfl⟩, hnames⟩), nofun⟩
        rintro c' ⟨⟩
        exact hholds
      · rw [herror]
        refine ⟨nofun, iff_of_false (by rintro ⟨c, ⟨⟩⟩) ?_, ?_⟩
        · rintro (⟨⟨⟩⟩ | ⟨-, h⟩)
          exact hnames h
        · rintro e ⟨⟩
          exact .inr ⟨rfl, ⟨entries, rfl⟩, hnames⟩
    · rw [ofData_of_other htruthy fun entries heq => hmapping ⟨entries, heq⟩]
      refine ⟨nofun, iff_of_false (by rintro ⟨c, ⟨⟩⟩) ?_, ?_⟩
      · rintro (⟨⟨⟩⟩ | ⟨h, -⟩)
        exact hmapping h
      · rintro e ⟨⟩
        exact .inl ⟨rfl, hmapping⟩

theorem exists_eq_ok_of_any {result : Except Yaml.YamlError Data} {test : Data → Bool}
    (h : result.toOption.any test = true) : ∃ data, result = .ok data ∧ test data = true := by
  cases result with
  | error e => cases h
  | ok data => exact ⟨data, rfl, h⟩

def treeWith (document : String) : FileTree :=
  ⟨[([".idemfuzz"], .directory), ([".idemfuzz", "config.yaml"], .file (Text.encodeUtf8 document))]⟩

theorem place?_treeWith (document : String) :
    place? (treeWith document) (.ofString "/") (.ofString "/") = some [".idemfuzz", "config.yaml"] := rfl

theorem read_treeWith (document : String) :
    (treeWith document).read [".idemfuzz", "config.yaml"] = .ok (Text.encodeUtf8 document) := rfl

def mixedDocument : String :=
  "generator: text\nmax_depth: true\n" ++
    "option_space: \x7b1: \x7bvalues: [2]\x7d, '1': \x7bvalues: [3]\x7d, x: 4\x7d\n"

@[match_pattern]
def mixedData : Data := .dict [(.str "generator", .str "text"), (.str "max_depth", .bool true),
  (.str "option_space", .dict [(.int 1, .dict [(.str "values", .list [.int 2])]),
    (.str "1", .dict [(.str "values", .list [.int 3])]), (.str "x", .int 4)])]

def isMixed : Data → Bool
  | mixedData => true
  | _ => false

theorem eq_of_isMixed (h : isMixed data = true) : data = mixedData := by
  unfold isMixed at h
  split at h
  · rfl
  · cases h

theorem read_mixedDocument :
    Yaml.read (String.ofList (Text.unifyLineEnds mixedDocument.toList)) = .ok mixedData := by
  have htest : (Yaml.read (String.ofList (Text.unifyLineEnds mixedDocument.toList))).toOption.any isMixed =
      true := by decide +kernel
  obtain ⟨data, hread, hmixed⟩ := exists_eq_ok_of_any htest
  rw [hread, eq_of_isMixed hmixed]

theorem namesHaveText_mixedData : NamesHaveText mixedData := by
  intro entries hentries
  cases hentries
  exact namesHaveText_iff.1 (by decide +kernel)

/-- The generator is the one that is set, and the depth the default. -/
theorem load_settings_mixedDocument :
    ∃ c, load (treeWith mixedDocument) (.ofString "/") (.ofString "/") = .ok c ∧ Holds mixedData c ∧
      c.generator = "text" ∧ c.maxDepth = 7 := by
  obtain ⟨hholds, hloads, -⟩ := load_settings (place?_treeWith mixedDocument) (read_treeWith _)
    (Text.decodeUtf8_encodeUtf8 _) read_mixedDocument
  obtain ⟨c, hc⟩ := hloads.2 (.inr ⟨⟨_, rfl⟩, namesHaveText_mixedData⟩)
  have hsettings := hholds c hc
  refine ⟨c, hc, hsettings, ?_, ?_⟩
  · obtain ⟨htext, -⟩ | ⟨hnone, -⟩ := hsettings.generator
    · have hfound : some (Data.str "text") = some (.str c.generator) := htext
      rw [Option.some.injEq, Data.prim.injEq, Primitive.str.injEq] at hfound
      exact hfound.symm
    · exact absurd ⟨"text", rfl, by decide⟩ hnone
  · obtain hdepth | ⟨-, hdefault⟩ := hsettings.maxDepth
    · cases hdepth
    · exact hdefault

theorem exists_read_listDocument : ∃ data,
    Yaml.read (String.ofList (Text.unifyLineEnds "- a\n".toList)) = .ok data ∧
      (data.truthy && data.kind == "list") = true :=
  exists_eq_ok_of_any (by decide +kernel)

/-- Not every document is loaded: one that is a list makes the configuration fail. -/
theorem not_forall_load_settings :
    ¬ ∀ (t : FileTree) (cwd home : Path) (place : Place) (bytes : List UInt8) (text : String) (data : Data),
      place? t cwd home = some place → t.read place = .ok bytes → Text.decodeUtf8 bytes = .ok text →
        Yaml.read (String.ofList (Text.unifyLineEnds text.toList)) = .ok data →
          ∃ c, load t cwd home = .ok c ∧ Holds data c := by
  intro h
  obtain ⟨data, hread, hlist⟩ := exists_read_listDocument
  rw [Bool.and_eq_true, beq_iff_eq] at hlist
  have hload := load_eq_ofData (place?_treeWith "- a\n") (read_treeWith _) (Text.decodeUtf8_encodeUtf8 _)
    hread
  obtain ⟨c, hc, -⟩ := h _ _ _ _ _ _ _ (place?_treeWith "- a\n") (read_treeWith _)
    (Text.decodeUtf8_encodeUtf8 _) hread
  have hother : ∀ entries, data ≠ .dict entries := by
    rintro entries rfl
    exact absurd hlist.2 (show "dict" ≠ "list" by decide)
  rw [hload, ofData_of_other hlist.1 hother] at hc
  cases hc

end Config

end FormatFuzz
