import FormatFuzz.Proofs.Corpus.Files

namespace FormatFuzz

open FileTree

def FileTree.NothingOrFile (t : FileTree) (p : Place) : Prop :=
  t.node? p = none ∨ ∃ bytes, t.read p = .ok bytes

def Text.IsText (bytes : List UInt8) : Prop := ∃ text, Text.decodeUtf8 bytes = .ok text

/-- The errors that commands expect: there is no entry, or what stands for its options is none. -/
def CorpusError.Expected : CorpusError → Prop
  | .notFound _ | .json _ _ | .options _ _ => True
  | .file _ | .encoding _ | .limit _ => False

namespace CorpusStore

variable {s : CorpusStore} {t : FileTree} {bytes₁ bytes₂ : List UInt8} {error : CorpusError}

def Lacks (s : CorpusStore) (f : Nodes) : Prop :=
  f s.inputPath.place = none ∨ f s.optionsPath.place = none

def HoldsNoText (s : CorpusStore) (f : Nodes) : Prop :=
  ∃ bytes₁ bytes₂, s.Holds f bytes₁ bytes₂ ∧ ¬ (Text.IsText bytes₁ ∧ Text.IsText bytes₂)

/-- The two files are there and are texts, and reading the options meets a limit. -/
def HoldsBeyond (s : CorpusStore) (f : Nodes) (limit : Json.Limit) : Prop :=
  ∃ bytes₁ bytes₂ text, s.Holds f bytes₁ bytes₂ ∧ Text.IsText bytes₁ ∧
    Text.decodeUtf8 bytes₂ = .ok text ∧
      Json.read s.levels (String.ofList (Text.unifyLineEnds text.toList)) = .error (.limit limit)

/-- A text holds no options because a limit is met, because it is mistaken or because it says none. -/
theorem readOptions_error {text : String} (h : s.readOptions text = .error error) :
    (∃ l, error = .limit l ∧
      Json.read s.levels (String.ofList (Text.unifyLineEnds text.toList)) = .error (.limit l)) ∨
      (∃ e, error = .json s.optionsPath e) ∨ ∃ issues, error = .options s.optionsPath issues := by
  simp only [readOptions] at h
  cases hread : Json.read s.levels (String.ofList (Text.unifyLineEnds text.toList)) with
  | error e =>
    rw [hread] at h
    cases h
    cases e with
    | malformed e => exact .inr (.inl ⟨e, rfl⟩)
    | limit l => exact .inl ⟨l, rfl, rfl⟩
  | ok data =>
    rw [hread] at h
    cases hdata : Options.ofData data with
    | error issues =>
      simp only [Except.mapError, bind, Except.bind, hdata, Except.error.injEq] at h
      exact .inr (.inr ⟨issues, h.symm⟩)
    | ok options => simp [Except.mapError, bind, Except.bind, hdata] at h

theorem readOptions_of_limit {text : String} {l : Json.Limit}
    (h : Json.read s.levels (String.ofList (Text.unifyLineEnds text.toList)) = .error (.limit l)) :
    s.readOptions text = .error (.limit l) := by
  simp only [readOptions]
  rw [h]
  rfl

theorem loadBytes_error (h : s.loadBytes bytes₁ bytes₂ = .error error) :
    (∃ e, error = .encoding e) ∧ ¬ (Text.IsText bytes₁ ∧ Text.IsText bytes₂) ∨
      Text.IsText bytes₁ ∧ ∃ text, Text.decodeUtf8 bytes₂ = .ok text ∧
        s.readOptions text = .error error := by
  rw [loadBytes_eq] at h
  cases h₁ : Text.decodeUtf8 bytes₁ with
  | error e =>
    rw [h₁] at h
    cases h
    exact .inl ⟨⟨e, rfl⟩, by simp [Text.IsText, h₁]⟩
  | ok source =>
    cases h₂ : Text.decodeUtf8 bytes₂ with
    | error e =>
      rw [h₁, h₂] at h
      cases h
      exact .inl ⟨⟨e, rfl⟩, by simp [Text.IsText, h₂]⟩
    | ok text =>
      refine .inr ⟨⟨source, h₁⟩, text, rfl, ?_⟩
      rw [h₁, h₂] at h
      cases ho : s.readOptions text with
      | error e =>
        simp only [ho, Except.map, Except.error.injEq] at h
        rw [h]
      | ok options => simp [ho, Except.map] at h

theorem isText_of_loadBytes_eq_ok {r : Replay} (h : s.loadBytes bytes₁ bytes₂ = .ok r) :
    Text.IsText bytes₁ ∧ Text.IsText bytes₂ := by
  rw [loadBytes_eq] at h
  split at h
  · cases h
  · cases h
  · next source text h₁ h₂ => exact ⟨⟨source, h₁⟩, text, h₂⟩

theorem load_of_lacks (h : s.Lacks t.node?) : s.load t = .error (.notFound s.directory) := by
  have hexists : s.exists? t = false := by
    rcases h with h | h <;> simp [exists?, exists?_eq, h]
  simp only [load, hexists]
  rfl

theorem lacks_or_holds (hinput : t.NothingOrFile s.inputPath.place)
    (hoptions : t.NothingOrFile s.optionsPath.place) :
    s.Lacks t.node? ∨ ∃ bytes₁ bytes₂, s.Holds t.node? bytes₁ bytes₂ := by
  rcases hinput with h | ⟨bytes₁, h₁⟩
  · exact .inl (.inl h)
  · rcases hoptions with h | ⟨bytes₂, h₂⟩
    · exact .inl (.inr h)
    · exact .inr ⟨bytes₁, bytes₂, holds_iff_read.2 ⟨h₁, h₂⟩⟩

/-- What is wrong with an entry tells whether files are missing or are no text and whether a limit is
met. -/
theorem load_error (hinput : t.NothingOrFile s.inputPath.place)
    (hoptions : t.NothingOrFile s.optionsPath.place) (h : s.load t = .error error) :
    error = .notFound s.directory ∧ s.Lacks t.node? ∨
      (∃ e, error = .encoding e) ∧ s.HoldsNoText t.node? ∨
      (∃ l, error = .limit l ∧ s.HoldsBeyond t.node? l) ∨
      (∃ e, error = .json s.optionsPath e) ∨ ∃ issues, error = .options s.optionsPath issues := by
  rcases lacks_or_holds hinput hoptions with hlacks | ⟨bytes₁, bytes₂, hholds⟩
  · rw [load_of_lacks hlacks] at h
    cases h
    exact .inl ⟨rfl, hlacks⟩
  · rw [load_eq_loadBytes hholds] at h
    rcases loadBytes_error h with ⟨hencoding, htexts⟩ | ⟨htext, text, hdecode, hread⟩
    · exact .inr (.inl ⟨hencoding, bytes₁, bytes₂, hholds, htexts⟩)
    · rcases readOptions_error hread with ⟨l, hl, hlimit⟩ | hother
      · exact .inr (.inr (.inl ⟨l, hl, bytes₁, bytes₂, text, hholds, htext, hdecode, hlimit⟩))
      · exact .inr (.inr (.inr hother))

theorem load_eq_notFound_iff (hinput : t.NothingOrFile s.inputPath.place)
    (hoptions : t.NothingOrFile s.optionsPath.place) :
    s.load t = .error (.notFound s.directory) ↔ s.Lacks t.node? := by
  refine ⟨fun h => ?_, load_of_lacks⟩
  rcases load_error hinput hoptions h with
    ⟨_, hlacks⟩ | ⟨⟨e, he⟩, _⟩ | ⟨l, he, _⟩ | ⟨e, he⟩ | ⟨issues, he⟩
  · exact hlacks
  all_goals cases he

theorem load_eq_encoding_iff (hinput : t.NothingOrFile s.inputPath.place)
    (hoptions : t.NothingOrFile s.optionsPath.place) :
    (∃ e, s.load t = .error (.encoding e)) ↔ s.HoldsNoText t.node? := by
  constructor
  · rintro ⟨e, h⟩
    rcases load_error hinput hoptions h with
      ⟨he, _⟩ | ⟨_, hno⟩ | ⟨l, he, _⟩ | ⟨e', he⟩ | ⟨issues, he⟩
    · cases he
    · exact hno
    all_goals cases he
  · rintro ⟨bytes₁, bytes₂, hholds, hno⟩
    rw [load_eq_loadBytes hholds]
    cases h : s.loadBytes bytes₁ bytes₂ with
    | ok r => exact absurd (isText_of_loadBytes_eq_ok h) hno
    | error error =>
      rcases loadBytes_error h with ⟨⟨e, rfl⟩, _⟩ | ⟨htext, text, hdecode, _⟩
      · exact ⟨e, rfl⟩
      · exact absurd ⟨htext, text, hdecode⟩ hno

theorem load_eq_limit_iff (hinput : t.NothingOrFile s.inputPath.place)
    (hoptions : t.NothingOrFile s.optionsPath.place) (l : Json.Limit) :
    s.load t = .error (.limit l) ↔ s.HoldsBeyond t.node? l := by
  constructor
  · intro h
    rcases load_error hinput hoptions h with
      ⟨he, _⟩ | ⟨⟨e, he⟩, _⟩ | ⟨l', he, hbeyond⟩ | ⟨e, he⟩ | ⟨issues, he⟩
    · cases he
    · cases he
    · cases he
      exact hbeyond
    all_goals cases he
  · rintro ⟨bytes₁, bytes₂, text, hholds, ⟨source, hsource⟩, hdecode, hlimit⟩
    rw [load_eq_loadBytes hholds, loadBytes_eq, hsource, hdecode]
    simp only [readOptions_of_limit hlimit]
    rfl

theorem expected_of_load (hinput : t.NothingOrFile s.inputPath.place)
    (hoptions : t.NothingOrFile s.optionsPath.place) (h : s.load t = .error error) :
    error.Expected ∨ (∃ e, error = .encoding e) ∨ ∃ l, error = .limit l := by
  rcases load_error hinput hoptions h with
    ⟨rfl, _⟩ | ⟨hencoding, _⟩ | ⟨l, rfl, _⟩ | ⟨e, rfl⟩ | ⟨issues, rfl⟩
  · exact .inl trivial
  · exact .inr (.inl hencoding)
  · exact .inr (.inr ⟨l, rfl⟩)
  all_goals exact .inl trivial

end CorpusStore

end FormatFuzz
