import Scriptlet.Proofs.Token.Lexeme

/-!
# The longest match

The first element of a text is the longest of the lexemes that the text begins with, or a fault where
it begins with none (`first_cases`, `Lexeme.length_le_first`). So a text splits into its longest
lexemes from left to right, which it can do in one way only (`splits_split`, `Splits.eq_split`), and
scanning reports just those (`Scan.ofText_longest_match`).
-/

namespace Scriptlet

namespace Element

/-! ## Runs of characters -/

/-- The longest run of characters of a sort has every other run within it. -/
theorem prefix_takeWhile {p : Char → Bool} {w rest : List Char} (hw : w <+: rest)
    (hp : ∀ c ∈ w, p c = true) : w <+: rest.takeWhile p := by
  obtain ⟨t, rfl⟩ := hw
  rw [List.takeWhile_append_of_pos hp]
  exact List.prefix_append ..

section Run

variable {p : Char → Bool} {w rest : List Char}

/-- A run is followed by a character of another class, or by nothing. -/
theorem takeWhile_append_eq (hw : ∀ c ∈ w, p c = true)
    (hrest : ∀ c, rest.head? = some c → p c = false) : (w ++ rest).takeWhile p = w := by
  rw [List.takeWhile_append_of_pos hw]
  cases rest with
  | nil => rw [List.takeWhile_nil, List.append_nil]
  | cons c rest =>
    have hc : ¬p c = true := by simp [hrest c rfl]
    rw [List.takeWhile_cons_of_neg hc, List.append_nil]

theorem dropWhile_append_eq (hw : ∀ c ∈ w, p c = true)
    (hrest : ∀ c, rest.head? = some c → p c = false) : (w ++ rest).dropWhile p = rest := by
  rw [List.dropWhile_append_of_pos hw]
  cases rest with
  | nil => rw [List.dropWhile_nil]
  | cons c rest =>
    have hc : ¬p c = true := by simp [hrest c rfl]
    rw [List.dropWhile_cons_of_neg hc]

end Run

theorem not_mem_takeWhile_ne {c : Char} {rest : List Char} : c ∉ rest.takeWhile (· != c) := by
  intro h
  simpa using List.mem_takeWhile_imp h

/-! ## The first element by its first character -/

theorem first_of_punctuation {c : Char} {kind : Token.Kind} (h : (c, kind) ∈ punctuation)
    (rest : List Char) : first c rest = .token kind none [c] := by
  simp only [first, single?_eq_some_iff.2 h]

/-- An equals sign right after one of these characters belongs to it. -/
theorem first_of_comparison {c : Char} {longer alone : Token.Kind}
    (h : (c, longer, alone) ∈ comparisons) (rest : List Char) :
    first c rest = if rest.head? = some '=' then .token longer none [c, '=']
      else .token alone none [c] := by
  have hsingle : ∀ entry ∈ comparisons, single? entry.1 = none := by decide
  simp only [first, hsingle _ h, equalable?_eq_some_iff.2 h]

theorem first_slash (rest : List Char) :
    first '/' rest = if rest.head? = some '/' then .skipped ('/' :: rest.takeWhile (· != '\n'))
      else .token .slash none ['/'] := rfl

theorem first_space {c : Char} (h : c = ' ' ∨ c = '\t' ∨ c = '\r') (rest : List Char) :
    first c rest = .skipped [c] := by
  rcases h with rfl | rfl | rfl <;> rfl

theorem first_newline (rest : List Char) : first '\n' rest = .skipped ['\n'] := rfl

theorem first_quote (rest : List Char) : first '"' rest = stringFrom rest := rfl

/-- The characters that decide what an element is by themselves. -/
def deciders : List Char :=
  punctuation.map (·.1) ++ comparisons.map (·.1) ++ ['/', ' ', '\t', '\r', '\n', '"']

/-- Other characters start a number or a word, or nothing. -/
theorem first_of_not_mem_deciders {c : Char} (h : c ∉ deciders) (rest : List Char) :
    first c rest = if isDigit c then numberFrom c rest
      else if isIdentifierStart c then wordFrom c rest else .unexpected c := by
  simp only [deciders, List.mem_append, List.mem_cons, List.not_mem_nil, or_false, not_or] at h
  obtain ⟨⟨hpunctuation, hcomparison⟩, hslash, hspace, htab, hreturn, hfeed, hquote⟩ := h
  have hsingle : single? c = none := by
    rw [Option.eq_none_iff_forall_ne_some]
    intro kind hkind
    exact hpunctuation (List.mem_map_of_mem (single?_eq_some_iff.1 hkind))
  have hequalable : equalable? c = none := by
    rw [Option.eq_none_iff_forall_ne_some]
    intro kinds hkinds
    exact hcomparison (List.mem_map_of_mem (equalable?_eq_some_iff.1 hkinds))
  have hblank : ¬(isSpace c ∨ c = '\n') := by simp [isSpace, hspace, htab, hreturn, hfeed]
  simp only [first, hsingle, hequalable, hslash, hblank, hquote, ↓reduceIte]

theorem not_mem_deciders {p : Char → Bool} {c : Char} (hc : p c = true)
    (hp : deciders.any p = false) : c ∉ deciders := by
  intro hmem
  have htrue := List.any_eq_true.2 ⟨c, hmem, hc⟩
  rw [hp] at htrue
  cases htrue

theorem first_of_digit {c : Char} (h : c.isDigit = true) (rest : List Char) :
    first c rest = numberFrom c rest := by
  rw [first_of_not_mem_deciders (not_mem_deciders h (by decide)), isDigit_eq, h]
  rfl

theorem first_of_word {c : Char} (h : StartsWord c) (rest : List Char) :
    first c rest = wordFrom c rest := by
  have hstart := isIdentifierStart_iff.2 h
  rw [first_of_not_mem_deciders (not_mem_deciders hstart (by decide)), isDigit_eq,
    h.isDigit_eq_false, hstart]
  rfl

/-! ## Strings, numbers and words -/

/-- A string ends at the next quote, as there are no escapes. -/
theorem stringFrom_of_append {w rest : List Char} (hw : '"' ∉ w) :
    stringFrom (w ++ '"' :: rest) =
      .token .string (some (.string (String.ofList w))) ('"' :: (w ++ ['"'])) := by
  have hbody : (w ++ '"' :: rest).takeWhile (· != '"') = w := by
    rw [List.takeWhile_append_of_pos fun c hc => bne_iff_ne.2 (ne_of_mem_of_not_mem hc hw)]
    simp
  simp only [stringFrom, hbody, List.length_append, List.length_cons]
  rw [ite_eq_left_iff]
  omega

theorem stringFrom_of_not_mem {rest : List Char} (h : '"' ∉ rest) :
    stringFrom rest = .unterminated ('"' :: rest) := by
  have hbody : rest.takeWhile (· != '"') = rest := by
    rw [List.takeWhile_eq_self_iff]
    exact fun c hc => bne_iff_ne.2 (ne_of_mem_of_not_mem hc h)
  simp [stringFrom, hbody]

theorem mem_fractionOf {rest : List Char} {c : Char} (h : c ∈ fractionOf rest) :
    c.isDigit = true := by
  unfold fractionOf at h
  split at h
  · rw [← isDigit_eq]
    exact List.mem_takeWhile_imp h
  · cases h

/-- The point of a number and the digits after it, if there are any. -/
theorem fractionOf_isPrefix (rest : List Char) :
    (if (fractionOf rest).isEmpty then [] else ['.']) ++ fractionOf rest <+: rest := by
  unfold fractionOf
  split
  · next t =>
    split
    · next hempty => simp [List.isEmpty_iff.1 hempty]
    · exact List.prefix_cons_iff.2 (.inr ⟨_, rfl, List.takeWhile_prefix _⟩)
  · simp

/-- A number takes a point only together with a digit after it. -/
theorem lexeme_numberFrom {c : Char} (h : c.isDigit = true) (rest : List Char) :
    Lexeme (numberFrom c rest) := by
  have hwhole : ∀ d ∈ c :: rest.takeWhile isDigit, d.isDigit = true := by
    intro d hd
    rcases List.mem_cons.1 hd with rfl | hd
    · exact h
    · rw [← isDigit_eq]
      exact List.mem_takeWhile_imp hd
  unfold numberFrom
  by_cases hempty : (fractionOf (rest.dropWhile isDigit)).isEmpty
  · rw [List.isEmpty_iff] at hempty
    simp only [hempty, List.isEmpty_nil, ↓reduceIte, List.append_nil]
    exact .whole (List.cons_ne_nil _ _) hwhole
  · simp only [hempty, Bool.false_eq_true, ↓reduceIte, List.append_assoc, List.singleton_append]
    exact .fraction (List.cons_ne_nil _ _) hwhole (by simpa using hempty) fun d => mem_fractionOf

theorem isPrefix_numberFrom (c : Char) (rest : List Char) :
    (numberFrom c rest).text <+: c :: rest := by
  simp only [numberFrom, text, List.cons_append, List.append_assoc, List.prefix_cons_inj]
  calc rest.takeWhile isDigit ++ ((if (fractionOf (rest.dropWhile isDigit)).isEmpty then []
        else ['.']) ++ fractionOf (rest.dropWhile isDigit))
      <+: rest.takeWhile isDigit ++ rest.dropWhile isDigit :=
        (List.prefix_append_right_inj _).2 (fractionOf_isPrefix _)
    _ = rest := List.takeWhile_append_dropWhile

theorem length_le_numberFrom {c : Char} {w rest : List Char} (hstart : w <+: rest)
    (hw : ∀ d ∈ w, d.isDigit = true) : (c :: w).length ≤ (numberFrom c rest).text.length := by
  have hw' : w <+: rest.takeWhile isDigit :=
    prefix_takeWhile hstart fun d hd => (isDigit_eq d).trans (hw d hd)
  have := hw'.length_le
  simp only [numberFrom, text, List.length_append, List.length_cons]
  omega

theorem numberFrom_point {c : Char} {w rest : List Char} (hw : ∀ d ∈ w, d.isDigit = true)
    (hrest : rest.takeWhile isDigit ≠ []) :
    numberFrom c (w ++ '.' :: rest) =
      .token .number (some (numberOf (c :: w) (rest.takeWhile isDigit)))
        (c :: w ++ '.' :: rest.takeWhile isDigit) := by
  have hwhole : ∀ d ∈ w, isDigit d = true := fun d hd => (isDigit_eq d).trans (hw d hd)
  -- The digits before the point are all there are, so the fraction is looked for at the point.
  have htake : (w ++ '.' :: rest).takeWhile isDigit = w := by
    rw [List.takeWhile_append_of_pos hwhole]
    simp [isDigit]
  have hfraction : fractionOf ((w ++ '.' :: rest).dropWhile isDigit) =
      rest.takeWhile isDigit := by
    rw [List.dropWhile_append_of_pos hwhole]
    rfl
  have hsome : (rest.takeWhile isDigit).isEmpty = false := List.isEmpty_eq_false_iff.2 hrest
  simp only [numberFrom, hfraction, htake, hsome, Bool.false_eq_true, ↓reduceIte,
    List.append_assoc, List.singleton_append]

theorem numberFrom_of_digits {c : Char} {w : List Char} (hw : ∀ d ∈ w, d.isDigit = true) :
    numberFrom c w = .token .number (some (numberOf (c :: w) [])) (c :: w) := by
  have hwhole : ∀ d ∈ w, isDigit d = true := fun d hd => (isDigit_eq d).trans (hw d hd)
  simp [numberFrom, List.takeWhile_eq_self_iff.2 hwhole, List.dropWhile_eq_nil_iff.2 hwhole,
    fractionOf]

theorem lexeme_wordFrom {c : Char} (h : StartsWord c) (rest : List Char) :
    Lexeme (wordFrom c rest) := by
  have hparts : ∀ d ∈ rest.takeWhile isIdentifierPart, isIdentifierPart d = true :=
    fun d hd => List.mem_takeWhile_imp hd
  unfold wordFrom
  obtain hmem | ⟨hnone, hkind⟩ := wordKind_cases (String.ofList (c :: rest.takeWhile isIdentifierPart))
  · exact .keyword h hparts hmem
  · simp only [hkind]
    exact .identifier h hparts hnone

/-! ## The first element is the longest lexeme -/

/-- What a text begins with: a lexeme, or a fault. -/
theorem first_cases (c : Char) (rest : List Char) :
    (Lexeme (first c rest) ∧ (first c rest).text <+: c :: rest) ∨
      (c = '"' ∧ first c rest = .unterminated (c :: rest)) ∨
      (c ≠ '"' ∧ first c rest = .unexpected c) := by
  by_cases hmem : c ∈ deciders
  · simp only [deciders, List.mem_append, List.mem_map, List.mem_cons, List.not_mem_nil,
      or_false] at hmem
    obtain (⟨⟨_, kind⟩, hentry, rfl⟩ | ⟨⟨_, longer, alone⟩, hentry, rfl⟩) | hmem := hmem
    · rw [first_of_punctuation hentry]
      exact .inl ⟨.punctuation hentry, by simp [text]⟩
    · rw [first_of_comparison hentry]
      split
      · next hequal =>
        obtain ⟨t, rfl⟩ := List.head?_eq_some_iff.1 hequal
        exact .inl ⟨.comparisonEqual hentry, by simp [text]⟩
      · exact .inl ⟨.comparison hentry, by simp [text]⟩
    · rcases hmem with rfl | rfl | rfl | rfl | rfl | rfl
      · rw [first_slash]
        split
        · next hslash =>
          obtain ⟨t, rfl⟩ := List.head?_eq_some_iff.1 hslash
          rw [List.takeWhile_cons_of_pos (by decide)]
          exact .inl ⟨.comment not_mem_takeWhile_ne, by simp [text, List.takeWhile_prefix]⟩
        · exact .inl ⟨.slash, by simp [text]⟩
      · exact .inl ⟨.space (by simp), by simp [first_space, text]⟩
      · exact .inl ⟨.space (by simp), by simp [first_space, text]⟩
      · exact .inl ⟨.space (by simp), by simp [first_space, text]⟩
      · exact .inl ⟨.newline, by simp [first_newline, text]⟩
      · rw [first_quote]
        by_cases hquote : '"' ∈ rest
        · obtain ⟨w, t, rfl, hw⟩ := List.eq_append_cons_of_mem hquote
          rw [stringFrom_of_append hw]
          exact .inl ⟨.string hw, by simp [text]⟩
        · exact .inr (.inl ⟨rfl, stringFrom_of_not_mem hquote⟩)
  · have hquote : c ≠ '"' := by
      rintro rfl
      exact hmem (by decide)
    rw [first_of_not_mem_deciders hmem]
    by_cases hdigit : isDigit c = true
    · rw [if_pos hdigit]
      rw [isDigit_eq] at hdigit
      exact .inl ⟨lexeme_numberFrom hdigit rest, isPrefix_numberFrom c rest⟩
    · rw [if_neg hdigit]
      by_cases hstart : isIdentifierStart c = true
      · rw [if_pos hstart]
        exact .inl ⟨lexeme_wordFrom (isIdentifierStart_iff.1 hstart) rest, by
          simp [wordFrom, text, List.takeWhile_prefix]⟩
      · rw [if_neg hstart]
        exact .inr (.inr ⟨hquote, rfl⟩)

/-- No lexeme that a text begins with is longer than its first element, which is then a lexeme as
well. -/
theorem Lexeme.length_le_first {element : Element} (h : Lexeme element) {c : Char}
    {rest : List Char} (hstart : element.text <+: c :: rest) :
    Lexeme (first c rest) ∧ element.text.length ≤ (first c rest).text.length := by
  cases h with
  | punctuation hentry =>
    obtain rfl : _ = c := by simpa [text] using hstart
    rw [first_of_punctuation hentry]
    exact ⟨.punctuation hentry, Nat.le_refl _⟩
  | comparison hentry =>
    obtain rfl : _ = c := by simpa [text] using hstart
    rw [first_of_comparison hentry]
    split
    · exact ⟨.comparisonEqual hentry, by simp [text]⟩
    · exact ⟨.comparison hentry, Nat.le_refl _⟩
  | comparisonEqual hentry =>
    simp only [text, List.cons_prefix_cons] at hstart
    obtain ⟨rfl, t, rfl⟩ := hstart
    rw [first_of_comparison hentry]
    exact ⟨.comparisonEqual hentry, Nat.le_refl _⟩
  | slash =>
    obtain rfl : _ = c := by simpa [text] using hstart
    rw [first_slash]
    split
    · next hslash =>
      obtain ⟨t, rfl⟩ := List.head?_eq_some_iff.1 hslash
      rw [List.takeWhile_cons_of_pos (by decide)]
      exact ⟨.comment not_mem_takeWhile_ne, by simp [text]⟩
    · exact ⟨.slash, Nat.le_refl _⟩
  | @comment w hw =>
    simp only [text, List.cons_prefix_cons] at hstart
    obtain ⟨rfl, hstart⟩ := hstart
    obtain ⟨t, rfl⟩ : ∃ t, rest = '/' :: t := by
      obtain ⟨t, rfl⟩ := hstart
      exact ⟨_, rfl⟩
    have hw' : w <+: t.takeWhile (· != '\n') :=
      prefix_takeWhile (List.cons_prefix_cons.1 hstart).2 fun c hc =>
        bne_iff_ne.2 (ne_of_mem_of_not_mem hc hw)
    rw [first_slash, if_pos List.head?_cons, List.takeWhile_cons_of_pos (by decide)]
    exact ⟨.comment not_mem_takeWhile_ne, by simpa [text] using hw'.length_le⟩
  | space hc =>
    obtain rfl : _ = c := by simpa [text] using hstart
    rw [first_space hc]
    exact ⟨.space hc, Nat.le_refl _⟩
  | newline =>
    obtain rfl : _ = c := by simpa [text] using hstart
    exact ⟨.newline, Nat.le_refl _⟩
  | @string w hw =>
    simp only [text, List.cons_prefix_cons] at hstart
    obtain ⟨rfl, t, rfl⟩ := hstart
    rw [first_quote, List.append_assoc, List.singleton_append, stringFrom_of_append hw]
    exact ⟨.string hw, Nat.le_refl _⟩
  | @whole w hne hw =>
    obtain ⟨d, w, rfl⟩ := List.exists_cons_of_ne_nil hne
    simp only [text, List.cons_prefix_cons] at hstart
    obtain ⟨rfl, hstart⟩ := hstart
    obtain ⟨hd, hw⟩ := List.forall_mem_cons.1 hw
    rw [first_of_digit hd]
    exact ⟨lexeme_numberFrom hd rest, length_le_numberFrom hstart hw⟩
  | @fraction w f hne hw hne' hf =>
    obtain ⟨d, w, rfl⟩ := List.exists_cons_of_ne_nil hne
    simp only [text, List.cons_append, List.cons_prefix_cons] at hstart
    obtain ⟨rfl, t, rfl⟩ := hstart
    obtain ⟨hd, hw⟩ := List.forall_mem_cons.1 hw
    have hf' : f <+: (f ++ t).takeWhile isDigit :=
      prefix_takeWhile (List.prefix_append f t) fun c hc => (isDigit_eq c).trans (hf c hc)
    have hrest : (f ++ t).takeWhile isDigit ≠ [] := by
      intro hnil
      rw [hnil] at hf'
      exact hne' (List.prefix_nil.1 hf')
    rw [first_of_digit hd]
    refine ⟨lexeme_numberFrom hd _, ?_⟩
    have hsplit : w ++ '.' :: f ++ t = w ++ '.' :: (f ++ t) := by simp
    rw [hsplit, numberFrom_point hw hrest]
    simpa [text] using hf'.length_le
  | @keyword _ w _ hc hw _ | @identifier _ w hc hw _ =>
    simp only [text, List.cons_prefix_cons] at hstart
    obtain ⟨rfl, hstart⟩ := hstart
    rw [first_of_word hc]
    refine ⟨lexeme_wordFrom hc rest, ?_⟩
    have := (prefix_takeWhile hstart hw).length_le
    simpa [wordFrom, text] using this

/-- Every lexeme takes up text, so that splitting comes to an end. -/
theorem Lexeme.text_ne_nil {element : Element} (h : Lexeme element) : element.text ≠ [] := by
  cases h with
  | whole hne _ => exact hne
  | fraction hne _ _ _ => simp [text, hne]
  | _ => simp [text]

/-- A lexeme is the first element of its own text. -/
theorem Lexeme.first_eq {element : Element} (h : Lexeme element) {c : Char} {w : List Char}
    (htext : element.text = c :: w) : first c w = element := by
  cases h with
  | punctuation hentry =>
    cases htext
    exact first_of_punctuation hentry []
  | comparison hentry =>
    cases htext
    exact first_of_comparison hentry []
  | comparisonEqual hentry =>
    cases htext
    exact first_of_comparison hentry ['=']
  | slash =>
    cases htext
    rfl
  | @comment v hv =>
    cases htext
    have hall : ∀ d ∈ v, (d != '\n') = true :=
      fun d hd => bne_iff_ne.2 (ne_of_mem_of_not_mem hd hv)
    rw [first_slash, if_pos List.head?_cons, List.takeWhile_cons_of_pos (by decide),
      List.takeWhile_eq_self_iff.2 hall]
  | space hc =>
    cases htext
    exact first_space hc []
  | newline =>
    cases htext
    rfl
  | string hw =>
    cases htext
    exact (first_quote _).trans (stringFrom_of_append hw)
  | whole hne hw =>
    obtain rfl : _ = c :: w := htext
    obtain ⟨hc, hw⟩ := List.forall_mem_cons.1 hw
    rw [first_of_digit hc, numberFrom_of_digits hw]
  | @fraction v f hne hv hne' hf =>
    obtain ⟨d, v, rfl⟩ := List.exists_cons_of_ne_nil hne
    simp only [text, List.cons_append, List.cons.injEq] at htext
    obtain ⟨rfl, rfl⟩ := htext
    obtain ⟨hd, hv⟩ := List.forall_mem_cons.1 hv
    have htake : f.takeWhile isDigit = f :=
      List.takeWhile_eq_self_iff.2 fun c hc => (isDigit_eq c).trans (hf c hc)
    rw [first_of_digit hd, numberFrom_point hv (by rw [htake]; exact hne'), htake]
  | keyword hc hw hmem =>
    cases htext
    rw [first_of_word hc, wordFrom, List.takeWhile_eq_self_iff.2 hw, wordKind_of_mem hmem]
  | identifier hc hw hnone =>
    cases htext
    rw [first_of_word hc, wordFrom, List.takeWhile_eq_self_iff.2 hw]
    obtain hmem | ⟨-, hkind⟩ := wordKind_cases (String.ofList (c :: w))
    · exact absurd hmem (hnone _)
    · rw [hkind]

/-- The characters of a lexeme determine what it is. -/
theorem Lexeme.eq_of_text_eq {element other : Element} (h : Lexeme element) (h' : Lexeme other)
    (htext : element.text = other.text) : element = other := by
  obtain ⟨c, w, hcw⟩ := List.exists_cons_of_ne_nil h.text_ne_nil
  rw [← h.first_eq hcw, ← h'.first_eq (htext ▸ hcw)]

/-! ## Kinds and data of lexemes -/

section Kinds

variable {kind : Token.Kind} {literal : Value} {w : List Char}

/-- The kinds of token that stand for no datum and are no keyword. -/
def symbolKinds : List Token.Kind :=
  .slash :: .identifier ::
    (Element.punctuation.map (·.2) ++ comparisons.flatMap fun entry => [entry.2.1, entry.2.2])

/-- A token is a datum, a keyword or a symbol. -/
theorem Lexeme.kind_cases (h : Lexeme (.token kind literal w)) :
    (literal ≠ none ∧ (kind = .string ∨ kind = .number)) ∨
      (literal = none ∧ ((String.ofList w, kind) ∈ Token.keywords ∨ kind ∈ symbolKinds)) := by
  cases h with
  | string _ => exact .inl ⟨by simp, .inl rfl⟩
  | whole _ _ => exact .inl ⟨by simp, .inr rfl⟩
  | fraction _ _ _ _ => exact .inl ⟨by simp, .inr rfl⟩
  | keyword _ _ hentry => exact .inr ⟨rfl, .inl hentry⟩
  | identifier _ _ _ => exact .inr ⟨rfl, .inr (by decide)⟩
  | slash => exact .inr ⟨rfl, .inr (by decide)⟩
  | punctuation hentry =>
    have hall : ∀ entry ∈ Element.punctuation, entry.2 ∈ symbolKinds := by decide
    exact .inr ⟨rfl, .inr (hall _ hentry)⟩
  | comparison hentry =>
    have hall : ∀ entry ∈ comparisons, entry.2.2 ∈ symbolKinds := by decide
    exact .inr ⟨rfl, .inr (hall _ hentry)⟩
  | comparisonEqual hentry =>
    have hall : ∀ entry ∈ comparisons, entry.2.1 ∈ symbolKinds := by decide
    exact .inr ⟨rfl, .inr (hall _ hentry)⟩

theorem Lexeme.kind_ne_eof (h : Lexeme (.token kind literal w)) : kind ≠ .eof := by
  have hkeywords : ∀ entry ∈ Token.keywords, entry.2 ≠ .eof := by decide
  have hsymbols : ∀ k ∈ symbolKinds, k ≠ .eof := by decide
  obtain ⟨-, rfl | rfl⟩ | ⟨-, hmem | hmem⟩ := h.kind_cases
  · decide
  · decide
  · exact hkeywords _ hmem
  · exact hsymbols _ hmem

/-- Data come with strings and numbers, and with no other kind. -/
theorem Lexeme.literal_ne_none_iff (h : Lexeme (.token kind literal w)) :
    literal ≠ none ↔ kind = .string ∨ kind = .number := by
  have hkeywords : ∀ entry ∈ Token.keywords, ¬(entry.2 = .string ∨ entry.2 = .number) := by decide
  have hsymbols : ∀ k ∈ symbolKinds, ¬(k = .string ∨ k = .number) := by decide
  obtain ⟨hliteral, hkind⟩ | ⟨rfl, hmem | hmem⟩ := h.kind_cases
  · exact iff_of_true hliteral hkind
  · exact iff_of_false (by simp) (hkeywords _ hmem)
  · exact iff_of_false (by simp) (hsymbols _ hmem)

/-- Every keyword is a word, so no other lexeme is written like one. -/
theorem Lexeme.kind_eq_of_keyword (h : Lexeme (.token kind literal w)) {k : Token.Kind}
    (hmem : (String.ofList w, k) ∈ Token.keywords) : kind = k := by
  have hwords : ∀ entry ∈ Token.keywords, entry.1.toList.head?.any isIdentifierStart = true ∧
      entry.1.toList.tail.all isIdentifierPart = true := by
    decide
  obtain ⟨hhead, hparts⟩ := hwords _ hmem
  rw [String.toList_ofList] at hhead hparts
  obtain ⟨c, hc, hstart⟩ := (Option.any_eq_true ..).1 hhead
  obtain ⟨v, rfl⟩ := List.head?_eq_some_iff.1 hc
  have hkeyword : Lexeme (.token k none (c :: v)) :=
    .keyword (isIdentifierStart_iff.1 hstart) (List.all_eq_true.1 hparts) hmem
  have heq := h.eq_of_text_eq hkeyword rfl
  cases heq
  rfl

/-- A token that has the kind of a keyword is that keyword. -/
theorem Lexeme.keyword_of_kind (h : Lexeme (.token kind literal w)) {word : String}
    (hword : (word, kind) ∈ Token.keywords) : (String.ofList w, kind) ∈ Token.keywords := by
  have hkinds : ∀ entry ∈ Token.keywords,
      entry.2 ≠ .string ∧ entry.2 ≠ .number ∧ entry.2 ∉ symbolKinds := by
    decide
  obtain ⟨hstring, hnumber, hsymbol⟩ := hkinds _ hword
  obtain ⟨-, hkind | hkind⟩ | ⟨-, hmem | hmem⟩ := h.kind_cases
  · exact absurd hkind hstring
  · exact absurd hkind hnumber
  · exact hmem
  · exact absurd hmem hsymbol

end Kinds

/-! ## Splitting a text -/

/-- A text begins with no lexeme. -/
def Hopeless (source : List Char) : Prop :=
  ∀ element, Lexeme element → ¬element.text <+: source

/-- An element is the longest lexeme that a text begins with. -/
def Longest (element : Element) (source : List Char) : Prop :=
  Lexeme element ∧ element.text <+: source ∧
    ∀ other, Lexeme other → other.text <+: source → other.text.length ≤ element.text.length

/-- A text splits into elements from left to right, without gap or overlap. Each is the longest
lexeme that the rest begins with. Where there is none, a quote takes all of the rest, and any other
character stands alone. -/
inductive Splits : List Char → List Element → Prop
  | nil : Splits [] []
  | lexeme {element : Element} {rest : List Char} {elements : List Element} :
      Longest element (element.text ++ rest) → Splits rest elements →
      Splits (element.text ++ rest) (element :: elements)
  | unterminated {rest : List Char} :
      Hopeless ('"' :: rest) → Splits ('"' :: rest) [.unterminated ('"' :: rest)]
  | unexpected {c : Char} {rest : List Char} {elements : List Element} :
      c ≠ '"' → Hopeless (c :: rest) → Splits rest elements →
      Splits (c :: rest) (.unexpected c :: elements)

/-- Two longest lexemes have the same text, and the text determines the lexeme. -/
theorem Longest.unique {element other : Element} {source : List Char} (h : Longest element source)
    (h' : Longest other source) : element = other := by
  obtain ⟨hlexeme, hstart, hmax⟩ := h
  obtain ⟨hlexeme', hstart', hmax'⟩ := h'
  have hlength : element.text.length = other.text.length :=
    Nat.le_antisymm (hmax' _ hlexeme hstart) (hmax _ hlexeme' hstart')
  exact hlexeme.eq_of_text_eq hlexeme'
    ((List.prefix_of_prefix_length_le hstart hstart' hlength.le).eq_of_length hlength)

theorem hopeless_of_not_lexeme {c : Char} {rest : List Char} (h : ¬Lexeme (first c rest)) :
    Hopeless (c :: rest) :=
  fun _ hlexeme hstart => h (hlexeme.length_le_first hstart).1

theorem longest_first {c : Char} {rest : List Char} (h : Lexeme (first c rest)) :
    Longest (first c rest) (c :: rest) := by
  obtain ⟨-, hstart⟩ | ⟨-, hfirst⟩ | ⟨-, hfirst⟩ := first_cases c rest
  · exact ⟨h, hstart, fun _ hother hp => (hother.length_le_first hp).2⟩
  · rw [hfirst] at h
    cases h
  · rw [hfirst] at h
    cases h

/-- By recursion along the text, with the longest match for every first element. -/
theorem splits_split (source : List Char) : Splits source (split source) := by
  fun_induction split source with
  | case1 => exact .nil
  | case2 c rest element ih =>
    obtain ⟨hlexeme, t, ht⟩ | ⟨rfl, hfirst⟩ | ⟨hc, hfirst⟩ := first_cases c rest
    · rw [← ht, List.drop_left] at ih ⊢
      exact .lexeme (ht ▸ longest_first hlexeme) ih
    · have hnone : Hopeless ('"' :: rest) := by
        apply hopeless_of_not_lexeme
        rw [hfirst]
        rintro ⟨⟩
      simp only [element, hfirst, text, List.drop_length]
      rw [split]
      exact .unterminated hnone
    · have hnone : Hopeless (c :: rest) := by
        apply hopeless_of_not_lexeme
        rw [hfirst]
        rintro ⟨⟩
      simp only [element, hfirst, text] at ih ⊢
      exact .unexpected hc hnone ih

/-- No character is lost and none is used twice. -/
theorem Splits.flatten_text {source : List Char} {elements : List Element}
    (h : Splits source elements) : (elements.map text).flatten = source := by
  induction h with
  | nil => rfl
  | lexeme _ _ ih => simp [ih]
  | unterminated _ => simp [text]
  | unexpected _ _ _ ih => simp [text, ih]

theorem split_cons (c : Char) (rest : List Char) :
    split (c :: rest) =
      first c rest :: split ((c :: rest).drop (first c rest).text.length) := by
  rw [split]

/-- A text splits in one way only. -/
theorem Splits.eq_split {source : List Char} {elements : List Element}
    (h : Splits source elements) : elements = split source := by
  induction h with
  | nil => rw [split]
  | @lexeme element rest elements hlongest _ ih =>
    obtain ⟨c, w, hcw⟩ := List.exists_cons_of_ne_nil hlongest.1.text_ne_nil
    have hsource : element.text ++ rest = c :: (w ++ rest) := by rw [hcw, List.cons_append]
    have hfirst : first c (w ++ rest) = element := by
      rw [hsource] at hlongest
      exact (longest_first (hlongest.1.length_le_first hlongest.2.1).1).unique hlongest
    rw [hsource, split_cons, hfirst, ← hsource, List.drop_left, ih]
  | @unterminated rest hnone =>
    obtain ⟨hlexeme, hstart⟩ | ⟨-, hfirst⟩ | ⟨hc, -⟩ := first_cases '"' rest
    · exact absurd hstart (hnone _ hlexeme)
    · rw [split_cons, hfirst, text, List.drop_length, split]
    · exact absurd rfl hc
  | @unexpected c rest elements hc hnone _ ih =>
    obtain ⟨hlexeme, hstart⟩ | ⟨hquote, -⟩ | ⟨-, hfirst⟩ := first_cases c rest
    · exact absurd hstart (hnone _ hlexeme)
    · exact absurd hquote hc
    · rw [split_cons, hfirst, ih]
      rfl

theorem Splits.lexeme_of_mem_token {source : List Char} {elements : List Element}
    (h : Splits source elements) {kind : Token.Kind} {literal : Value} {w : List Char}
    (hmem : .token kind literal w ∈ elements) : Lexeme (.token kind literal w) := by
  induction h with
  | nil => cases hmem
  | lexeme hlongest _ ih =>
    rcases List.mem_cons.1 hmem with rfl | hmem
    · exact hlongest.1
    · exact ih hmem
  | unterminated _ => simp at hmem
  | unexpected _ _ _ ih => exact ih (by simpa using hmem)

/-! ## What the elements say -/

/-- What a token tells apart from its line: its kind, its lexeme and its datum. -/
def token? : Element → Option (Token.Kind × String × Value)
  | .token kind literal text => some (kind, String.ofList text, literal)
  | _ => none

theorem token?_eq_some {element : Element} {kind : Token.Kind} {lexeme : String} {literal : Value}
    (h : element.token? = some (kind, lexeme, literal)) :
    ∃ w, element = .token kind literal w ∧ lexeme = String.ofList w := by
  cases element with
  | token kind literal w =>
    cases h
    exact ⟨w, rfl, rfl⟩
  | _ => cases h

/-- What is wrong with an element, and the character to name. -/
def complaint? : Element → Option (String × Option String)
  | .unexpected c => some ("Unexpected character.", some (String.singleton c))
  | .unterminated _ => some ("Unterminated string.", none)
  | _ => none

end Element

namespace Scan

/-- A scan has the tokens among its elements in order, and an end mark. -/
theorem tokens_ofElements (line : Nat) (elements : List Element) :
    (ofElements line elements).tokens.map (fun t => (t.kind, t.lexeme, t.literal)) =
      elements.filterMap Element.token? ++ [(.eof, "", none)] := by
  induction elements generalizing line with
  | nil => rfl
  | cons element elements ih =>
    cases element <;> simp [ofElements, List.filterMap_cons, Element.token?, ih]

/-- A scan has the complaints about its elements in order. -/
theorem diagnostics_ofElements (line : Nat) (elements : List Element) :
    (ofElements line elements).diagnostics.map (fun d => (d.kind, d.message, d.lexeme)) =
      (elements.filterMap Element.complaint?).map fun c => (.scan, c) := by
  induction elements generalizing line with
  | nil => rfl
  | cons element elements ih =>
    have ih' := ih (line + element.text.count '\n')
    simp only [diagnostics, List.map_map] at ih'
    cases element <;>
      simp [ofElements, diagnostics, List.filterMap_cons, Element.complaint?,
        LexicalFault.diagnostic, ih']

theorem exists_lexeme_of_mem_filterMap {source : String} {kind : Token.Kind} {lexeme : String}
    {literal : Value}
    (h : (kind, lexeme, literal) ∈ (Element.split source.toList).filterMap Element.token?) :
    ∃ w, lexeme = String.ofList w ∧ Element.Lexeme (.token kind literal w) := by
  obtain ⟨element, helement, htoken⟩ := List.mem_filterMap.1 h
  obtain ⟨w, rfl, hw⟩ := Element.token?_eq_some htoken
  exact ⟨w, hw, (Element.splits_split source.toList).lexeme_of_mem_token helement⟩

/-- The tokens of a text have one end mark, and it is the last of them. -/
theorem exists_tokens_eq (source : String) :
    ∃ ts mark, (ofText source).tokens = ts ++ [mark] ∧ mark.kind = .eof ∧
      ∀ t ∈ ts, t.kind ≠ .eof := by
  obtain ⟨ts, marks, htokens, hts, hmarks⟩ := List.map_eq_append_iff.1
    (tokens_ofElements 1 (Element.split source.toList))
  obtain ⟨mark, rfl, hmark⟩ := List.map_eq_singleton_iff.1 hmarks
  refine ⟨ts, mark, htokens, congrArg Prod.fst hmark, fun t ht => ?_⟩
  have hmem : (t.kind, t.lexeme, t.literal) ∈
      (Element.split source.toList).filterMap Element.token? := by
    rw [← hts]
    exact List.mem_map_of_mem ht
  obtain ⟨w, -, hw⟩ := exists_lexeme_of_mem_filterMap hmem
  exact hw.kind_ne_eof

/-- Scanning is longest match and loses nothing. The text splits in exactly one way; the tokens are
those of the elements, in order, with one end mark after them; and each faulty element has its one
fault. -/
theorem ofText_longest_match (source : String) :
    ∃ elements : List Element,
      (∀ others, Element.Splits source.toList others ↔ others = elements) ∧
      (elements.map Element.text).flatten = source.toList ∧
      (ofText source).tokens.map (fun t => (t.kind, t.lexeme, t.literal)) =
        elements.filterMap Element.token? ++ [(.eof, "", none)] ∧
      (ofText source).diagnostics.map (fun d => (d.kind, d.message, d.lexeme)) =
        (elements.filterMap Element.complaint?).map (fun c => (.scan, c)) ∧
      ∀ kind lexeme literal, (kind, lexeme, literal) ∈ elements.filterMap Element.token? →
        kind ≠ .eof ∧ (literal ≠ none ↔ kind = .string ∨ kind = .number) ∧
        (∀ k, (lexeme, k) ∈ Token.keywords → kind = k) ∧
        ((∃ word, (word, kind) ∈ Token.keywords) → (lexeme, kind) ∈ Token.keywords) := by
  have hsplits := Element.splits_split source.toList
  refine ⟨Element.split source.toList, fun others => ⟨fun h => h.eq_split, fun h => h ▸ hsplits⟩,
    hsplits.flatten_text, tokens_ofElements 1 _, diagnostics_ofElements 1 _, ?_⟩
  intro kind lexeme literal hmem
  obtain ⟨element, helement, htoken⟩ := List.mem_filterMap.1 hmem
  obtain ⟨w, rfl, rfl⟩ := Element.token?_eq_some htoken
  have hlexeme := hsplits.lexeme_of_mem_token helement
  exact ⟨hlexeme.kind_ne_eof, hlexeme.literal_ne_none_iff, fun k => hlexeme.kind_eq_of_keyword,
    fun ⟨word, hword⟩ => hlexeme.keyword_of_kind hword⟩

end Scan

end Scriptlet
