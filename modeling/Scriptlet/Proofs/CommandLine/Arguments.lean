import Mathlib.Tactic.ByContra
import Scriptlet.CommandLine.Arguments

/-!
# Flags before a script

Three flags say what to do with a script. Arguments that are such flags with one word after them come
down to that word: it is a script (`read_flags_script`), or there is no script at all
(`script_of_read_flags`). A word is a script unless it is empty or starts with a dash, and some words
that start with a dash are scripts too: the dash alone, negative numbers, and words with a space in
them that are short for no flag.
-/

namespace Scriptlet.Arguments

/-- The flags that say what to do with a script. -/
def scriptFlags : List String := ["--tokens", "--parse", "--debug"]

/-- A word is taken for the name of a script, and not for the empty one. -/
def IsScript (word : String) : Prop := word ≠ "" ∧ classify word = .ok (.script word)

/-- Options after one more of the flags for scripts. -/
def Options.raise (options : Options) (flag : String) : Options :=
  { options with
    tokens := options.tokens || "--tokens" == flag
    parse := options.parse || "--parse" == flag
    debug := options.debug || "--debug" == flag }

/-- The options that flags for scripts amount to. -/
def Options.ofFlags (flags : List String) : Options where
  tokens := flags.contains "--tokens"
  parse := flags.contains "--parse"
  debug := flags.contains "--debug"

/-- Reading words when flags have acted on the options already. -/
def readWith (options : Options) (words : List String) : Request :=
  match classifyAll words with
  | .error fault => .invalid fault
  | .ok words => consume options true [] words

section Flags

variable {options : Options} {flags : List String} {word flag : String}

/-- A word without a dash in front is a script. -/
theorem isScript_of_head? (hword : word ≠ "") (hhead : word.toList.head? ≠ some '-') :
    IsScript word := by
  refine ⟨hword, ?_⟩
  unfold classify
  exact if_pos hhead

/-- A word is short for flags only. -/
theorem ne_script_of_mem_interpretations {letters : List Char} {entry : String × Word}
    (h : entry ∈ interpretations letters) (name : String) : entry.2 ≠ .script name := by
  unfold interpretations at h
  dsimp only at h
  split at h
  · obtain ⟨_, -, rfl⟩ := List.mem_map.1 h
    exact Word.noConfusion
  · obtain ⟨_, -, rfl⟩ := List.mem_map.1 h
    exact Word.noConfusion

/-- A word that is taken for a script is taken for itself. -/
theorem eq_of_classify_eq_script {name : String} (h : classify word = .ok (.script name)) :
    name = word := by
  unfold classify at h
  dsimp only at h
  split at h
  · cases h
    rfl
  split at h
  · cases h
  · cases h
  split at h
  · cases h
    rfl
  split at h
  · next hone =>
    cases h
    have hmem := hone ▸ List.mem_singleton_self _
    exact absurd rfl (ne_script_of_mem_interpretations hmem name)
  · split at h
    · cases h
      rfl
    · cases h
  · cases h

/-- Flags end everything or leave the script as it is. -/
theorem act_cases (options : Options) (given : List Flag) :
    act options given = .error .help ∨ act options given = .error .version ∨
      ∃ after, act options given = .ok after ∧ after.script = options.script := by
  fun_induction act options given with
  | case1 options => exact .inr (.inr ⟨options, rfl, rfl⟩)
  | case2 => exact .inl rfl
  | case3 => exact .inr (.inl rfl)
  | case4 _ _ ih | case5 _ _ ih | case6 _ _ ih | case7 _ _ ih => exact ih

/-- A flag at the end asks for no script. -/
theorem script_of_consume_flag {flag : Flag} {long : Bool} {attached : Option (List Char)}
    {after : Options} (h : consume options true [] [.flag flag long attached] = .proceed after) :
    after.script = options.script := by
  rw [consume] at h
  cases hgiven : flagsOf flag long attached with
  | error fault =>
    rw [hgiven] at h
    cases h
  | ok given =>
    rw [hgiven] at h
    dsimp only at h
    rcases act_cases options given with hact | hact | ⟨reached, hact, hscript⟩
    · rw [hact] at h
      cases h
    · rw [hact] at h
      cases h
    · rw [hact] at h
      cases h
      exact hscript

/-- What a flag for scripts is taken for, and what it does. -/
theorem exists_flag_of_mem (hflag : flag ∈ scriptFlags) (options : Options) :
    ∃ meant : Flag, flag ≠ "--" ∧ classify flag = .ok (.flag meant true none) ∧
      act options [meant] = .ok (options.raise flag) := by
  simp only [scriptFlags, List.mem_cons, List.not_mem_nil, or_false] at hflag
  rcases hflag with rfl | rfl | rfl
  · exact ⟨.tokens, by decide, rfl, by simp [act, Options.raise]⟩
  · exact ⟨.parse, by decide, rfl, by simp [act, Options.raise]⟩
  · exact ⟨.debug, by decide, rfl, by simp [act, Options.raise]⟩

/-- A flag for scripts acts before the words after it do. -/
theorem readWith_cons (hflag : flag ∈ scriptFlags) (options : Options) (words : List String) :
    readWith options (flag :: words) = readWith (options.raise flag) words := by
  obtain ⟨meant, hword, hclassify, hact⟩ := exists_flag_of_mem hflag options
  unfold readWith
  rw [classifyAll.eq_3 _ _ hword, hclassify]
  cases classifyAll words with
  | error fault => rfl
  | ok others =>
    change consume options true [] (.flag meant true none :: others) = _
    rw [consume, flagsOf]
    dsimp only
    rw [hact]

/-- So do several. -/
theorem readWith_append (hflags : ∀ flag ∈ flags, flag ∈ scriptFlags) (options : Options)
    (words : List String) :
    readWith options (flags ++ words) = readWith (flags.foldl Options.raise options) words := by
  induction flags generalizing options with
  | nil => rfl
  | cons flag flags ih =>
    obtain ⟨hflag, hflags⟩ := List.forall_mem_cons.1 hflags
    rw [List.cons_append, readWith_cons hflag, ih hflags, List.foldl_cons]

theorem foldl_raise (flags : List String) (options : Options) :
    flags.foldl Options.raise options =
      { options with
        tokens := options.tokens || flags.contains "--tokens"
        parse := options.parse || flags.contains "--parse"
        debug := options.debug || flags.contains "--debug" } := by
  induction flags generalizing options with
  | nil => simp
  | cons flag flags ih =>
    rw [List.foldl_cons, ih]
    simp only [Options.raise, List.contains_cons, Bool.or_assoc]

/-- Flags for scripts with a word after them come down to the word. -/
theorem read_flags (hflags : ∀ flag ∈ flags, flag ∈ scriptFlags) (word : String) :
    Arguments.read (flags ++ [word]) = readWith (.ofFlags flags) [word] := by
  change readWith {} (flags ++ [word]) = _
  rw [readWith_append hflags, foldl_raise]
  simp [Options.ofFlags]

/-- A word alone, when it does not end the flags. -/
theorem readWith_singleton (hword : word ≠ "--") (options : Options) :
    readWith options [word] =
      match classify word with
      | .error fault => .invalid fault
      | .ok taken => consume options true [] [taken] := by
  unfold readWith
  rw [classifyAll.eq_3 _ _ hword, classifyAll]
  cases classify word <;> rfl

/-- Flags for scripts with a script after them ask for that script. -/
theorem read_flags_script (hflags : ∀ flag ∈ flags, flag ∈ scriptFlags) (hword : IsScript word) :
    Arguments.read (flags ++ [word]) = .proceed { Options.ofFlags flags with script := some word } := by
  obtain ⟨-, hclassify⟩ := hword
  have hdashes : word ≠ "--" := by
    rintro rfl
    cases hclassify
  rw [read_flags hflags, readWith_singleton hdashes, hclassify]
  rfl

/-- Flags for scripts with anything else after them ask for no script. -/
theorem script_of_read_flags (hflags : ∀ flag ∈ flags, flag ∈ scriptFlags) (hword : ¬IsScript word)
    (h : Arguments.read (flags ++ [word]) = .proceed options) :
    options.script = none ∨ options.script = some "" := by
  rw [read_flags hflags] at h
  by_cases hdashes : word = "--"
  · subst hdashes
    cases h
    exact .inl rfl
  rw [readWith_singleton hdashes] at h
  cases hclassify : classify word with
  | error fault =>
    rw [hclassify] at h
    cases h
  | ok taken =>
    rw [hclassify] at h
    cases taken with
    | script name =>
      -- The word is a script after all, but without a name.
      obtain rfl := eq_of_classify_eq_script hclassify
      have hempty : name = "" := by
        by_contra hne
        exact hword ⟨hne, hclassify⟩
      cases h
      exact .inr (congrArg some hempty)
    | separator =>
      cases h
      exact .inl rfl
    | stray name => cases h
    | flag flag long attached => exact .inl (script_of_consume_flag h)

end Flags

end Scriptlet.Arguments
