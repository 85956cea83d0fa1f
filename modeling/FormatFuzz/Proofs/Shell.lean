import FormatFuzz.Shell
import Mathlib.Logic.Function.Defs

namespace FormatFuzz.Shell

/-- The characters that can mean more than themselves wherever they stand unquoted: they join or end
commands, stand for other files, begin expansions, patterns, groups and comments. An equals or a per cent
sign does so only in words of a certain form, and neither ends a word. -/
def specials : List Char :=
  ['|', '&', ';', '<', '>', '(', ')', '$', '\x60', '\n', '*', '?', '[', ']', '#', '~', '!', '^', '\x7b', '\x7d']

inductive Quoting
  | plain
  /-- Behind a backslash. -/
  | escaped
  | single
  | double
  /-- Behind a backslash between double quotes. -/
  | doubleEscaped
deriving DecidableEq, Repr

structure Reading where
  words : List (List Char)
  word : Option (List Char)
  quoting : Quoting
deriving DecidableEq, Repr

namespace Reading

def start : Reading := ⟨[], none, .plain⟩

/-- Characters are added to the word; if none has begun, one begins with them. -/
def add (r : Reading) (cs : List Char) : Reading := { r with word := some (r.word.getD [] ++ cs) }

def turn (r : Reading) (q : Quoting) : Reading := { r with quoting := q }

def endWord (r : Reading) : Reading := { r with words := r.words ++ r.word.toList, word := none }

/-- One character is taken. A line end behind a backslash is left out; between double quotes a backslash
stands for itself unless one of the characters that mean something there comes behind it. -/
def step (r : Reading) (c : Char) : Option Reading :=
  match r.quoting with
  | .plain =>
    if c = '\'' then some ((r.add []).turn .single)
    else if c = '"' then some ((r.add []).turn .double)
    else if c = '\\' then some (r.turn .escaped)
    else if c = ' ' ∨ c = '\t' then some r.endWord
    else if c ∈ specials then none
    else some (r.add [c])
  | .escaped => some ((if c = '\n' then r else r.add [c]).turn .plain)
  | .single => some (if c = '\'' then r.turn .plain else r.add [c])
  | .double =>
    if c = '"' then some (r.turn .plain)
    else if c = '\\' then some (r.turn .doubleEscaped)
    else if c = '$' ∨ c = '\x60' then none
    else some (r.add [c])
  | .doubleEscaped =>
    let kept := if c ∈ ['$', '\x60', '"', '\\'] then [c] else ['\\', c]
    some ((if c = '\n' then r else r.add kept).turn .double)

def run (r : Reading) (cs : List Char) : Option Reading := cs.foldlM step r

def finish (r : Reading) : Option (List (List Char)) :=
  if r.quoting = .plain then some r.endWord.words else none

end Reading

def split (line : String) : Option (List String) :=
  ((Reading.start.run line.toList).bind Reading.finish).map (·.map String.ofList)

/-- A character that stands in a line outside of all quotes, and with no backslash before it. -/
def Bare (line : String) (c : Char) : Prop :=
  ∃ before after r, line.toList = before ++ c :: after ∧ Reading.start.run before = some r ∧
    r.quoting = .plain

namespace Reading

variable {words : List (List Char)} {word cs : List Char} {begun : Option (List Char)} {c : Char}
  {r s : Reading}

theorem run_nil (r : Reading) : r.run [] = some r := rfl

theorem run_cons (r : Reading) (c : Char) (cs : List Char) :
    r.run (c :: cs) = (r.step c).bind fun s => s.run cs := List.foldlM_cons

theorem run_append (r : Reading) (cs ds : List Char) :
    r.run (cs ++ ds) = (r.run cs).bind fun s => s.run ds := List.foldlM_append

theorem step_special (hr : r.quoting = .plain) (hc : c ∈ specials) : r.step c = none := by
  have hother : ∀ c ∈ specials, c ≠ '\'' ∧ c ≠ '"' ∧ c ≠ '\\' ∧ ¬ (c = ' ' ∨ c = '\t') := by
    simp [specials]
  obtain ⟨hsingle, hdouble, hslash, hblank⟩ := hother c hc
  simp only [step, hr, if_neg hsingle, if_neg hdouble, if_neg hslash, if_neg hblank, if_pos hc]

theorem step_harmless (hc : isHarmless c = true) :
    step ⟨words, begun, .plain⟩ c = some ⟨words, some (begun.getD [] ++ [c]), .plain⟩ := by
  have hmeaning : ('\'' :: '"' :: '\\' :: ' ' :: '\t' :: specials).all (!isHarmless ·) = true := by decide
  have hother : c ∉ '\'' :: '"' :: '\\' :: ' ' :: '\t' :: specials := by
    intro hmem
    have hnot := List.all_eq_true.1 hmeaning c hmem
    rw [hc] at hnot
    cases hnot
  simp only [List.mem_cons, not_or] at hother
  obtain ⟨hsingle, hdouble, hslash, hspace, htab, hspecial⟩ := hother
  simp only [step, if_neg hsingle, if_neg hdouble, if_neg hslash, hspace, htab, or_self, if_false,
    if_neg hspecial, add]

theorem run_harmless (h : ∀ c ∈ cs, isHarmless c = true) :
    run ⟨words, some word, .plain⟩ cs = some ⟨words, some (word ++ cs), .plain⟩ := by
  induction cs generalizing word with
  | nil => rw [run_nil, List.append_nil]
  | cons c cs ih =>
    obtain ⟨hc, hcs⟩ := List.forall_mem_cons.1 h
    rw [run_cons, step_harmless hc, Option.bind_some, ih hcs]
    simp

/-- Between single quotes a character is added to the word; a single quote takes five characters. -/
theorem run_quoteChar (c : Char) :
    run ⟨words, some word, .single⟩ (quoteChar c) = some ⟨words, some (word ++ [c]), .single⟩ := by
  unfold quoteChar
  split
  · next h =>
    subst h
    simp [run, step, add, turn]
  · next h => simp [run, step, add, h]

theorem run_flatMap_quoteChar (cs : List Char) :
    run ⟨words, some word, .single⟩ (cs.flatMap quoteChar) =
      some ⟨words, some (word ++ cs), .single⟩ := by
  induction cs generalizing word with
  | nil => rw [List.flatMap_nil, run_nil, List.append_nil]
  | cons c cs ih =>
    rw [List.flatMap_cons, run_append, run_quoteChar, Option.bind_some, ih]
    simp

/-- A word in its written form is read as the word, and the reader is outside of quotes behind it. -/
theorem run_quoteWord (word : List Char) :
    run ⟨words, none, .plain⟩ (quoteWord word) = some ⟨words, some word, .plain⟩ := by
  unfold quoteWord
  split
  · next h =>
    -- without quotes the word begins with its first character, so there must be one
    rw [Bool.and_eq_true, List.all_eq_true] at h
    obtain ⟨hne, hharmless⟩ := h
    cases word with
    | nil => cases hne
    | cons c cs =>
      obtain ⟨hc, hcs⟩ := List.forall_mem_cons.1 hharmless
      rw [run_cons, step_harmless hc, Option.bind_some, run_harmless hcs]
      rfl
  · -- the first quote begins the word, also one without characters
    have hopen : step ⟨words, none, .plain⟩ '\'' = some ⟨words, some [], .single⟩ := rfl
    have hclose : step ⟨words, some word, .single⟩ '\'' = some ⟨words, some word, .plain⟩ := rfl
    rw [List.cons_append, run_cons, hopen, Option.bind_some, run_append, run_flatMap_quoteChar,
      Option.bind_some, run_cons, List.nil_append, hclose]
    rfl

/-- Between two words stands one blank, which ends the word before it. -/
theorem run_words (first : List Char) (rest : List (List Char)) :
    (run ⟨words, none, .plain⟩ ([' '].intercalate ((first :: rest).map quoteWord))).bind finish =
      some (words ++ first :: rest) := by
  induction rest generalizing words first with
  | nil =>
    rw [List.map_singleton, List.intercalate_singleton, run_quoteWord]
    rfl
  | cons next rest ih =>
    have hblank : step ⟨words, some first, .plain⟩ ' ' = some ⟨words ++ [first], none, .plain⟩ := rfl
    have hrest := @ih (words ++ [first]) next
    rw [List.map_cons] at hrest
    rw [List.map_cons, List.map_cons, List.intercalate_cons_cons, List.append_assoc, run_append,
      run_quoteWord, Option.bind_some, List.singleton_append, run_cons, hblank, Option.bind_some, hrest]
    simp

theorem run_line (words : List (List Char)) :
    (start.run ([' '].intercalate (words.map quoteWord))).bind finish = some words := by
  cases words with
  | nil => rfl
  | cons first rest => exact run_words first rest

end Reading

theorem toList_commandLine (words : List String) :
    (commandLine words).toList = [' '].intercalate ((words.map String.toList).map quoteWord) := by
  have hblank : " ".toList = [' '] := by decide
  rw [commandLine, String.toList_intercalate, hblank, List.map_map, List.map_map]
  simp [Function.comp_def]

theorem split_commandLine (words : List String) : split (commandLine words) = some words := by
  rw [split, toList_commandLine, Reading.run_line, Option.map_some, List.map_map]
  simp [Function.comp_def]

/-- No special character stands bare in a line that can be split. -/
theorem Bare.notMem_specials {line : String} {words : List String} {c : Char} (hc : Bare line c)
    (h : split line = some words) : c ∉ specials := by
  obtain ⟨before, after, r, hline, hbefore, hplain⟩ := hc
  intro hspecial
  rw [split, hline, Reading.run_append, hbefore, Option.bind_some, Reading.run_cons,
    Reading.step_special hplain hspecial] at h
  cases h

example : split "cat *.py" = none := by decide

/-- A command line is split into exactly the words that it is made of, in their order and with empty ones
among them; no special character is left unquoted in it, and other words make another line. -/
theorem commandLine_splits :
    (∀ words, split (commandLine words) = some words) ∧
      (∀ words c, Bare (commandLine words) c → c ∉ specials) ∧ Function.Injective commandLine := by
  refine ⟨split_commandLine, fun words c hc => hc.notMem_specials (split_commandLine words), ?_⟩
  intro words others h
  have hsplit := split_commandLine words
  rw [h, split_commandLine] at hsplit
  exact (Option.some.inj hsplit).symm

/-- A single quote and a dollar sign are quoted, and so is a word without characters. -/
theorem commandLine_splits_quotedWords :
    commandLine ["fmt", "it's $1", ""] = "fmt 'it'\"'\"'s $1' ''" ∧
      split "fmt 'it'\"'\"'s $1' ''" = some ["fmt", "it's $1", ""] ∧
      Bare "fmt 'it'\"'\"'s $1' ''" 'f' ∧ 'f' ∉ specials := by
  have hline : commandLine ["fmt", "it's $1", ""] = "fmt 'it'\"'\"'s $1' ''" := by decide
  obtain ⟨hsplit, hbare, -⟩ := commandLine_splits
  have hfirst : Bare "fmt 'it'\"'\"'s $1' ''" 'f' := ⟨[], _, Reading.start, rfl, rfl, rfl⟩
  refine ⟨hline, ?_, hfirst, ?_⟩
  · rw [← hline]
    exact hsplit _
  · rw [← hline] at hfirst
    exact hbare _ _ hfirst

end FormatFuzz.Shell
