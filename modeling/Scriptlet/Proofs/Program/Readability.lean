import Scriptlet.Program.Sexp

/-!
# Unique readability of s-expressions

The text of an s-expression shows where it ends: an atom ends before a separator, and a list at the
parenthesis that closes it. So the text determines the s-expression, provided that atoms and heads
are *words*, which contain no separator themselves. Lists written one a line are determined as well.
-/

namespace Scriptlet.Sexp

/-- The characters that are written around and between words. -/
def separators : List Char := ['(', ')', ' ', '\n']

def IsWord (text : String) : Prop := ∀ c ∈ text.toList, c ∉ separators

theorem isWord_iff {text : String} :
    (text.toList.all fun c => !separators.contains c) = true ↔ IsWord text := by
  simp only [List.all_eq_true, Bool.not_eq_true', List.contains_eq_mem, decide_eq_false_iff_not]
  rfl

instance (text : String) : Decidable (IsWord text) := decidable_of_decidable_of_iff isWord_iff

mutual

/-- S-expressions whose atoms and heads are words. -/
def Legible : Sexp → Prop
  | atom text => IsWord text
  | list head parts => IsWord head ∧ LegibleParts parts

def LegibleParts : List Sexp → Prop
  | [] => True
  | part :: parts => part.Legible ∧ LegibleParts parts

end

/-- What may come after a whole s-expression: nothing, or something else than a word or a list. -/
def Follows (rest : List Char) : Prop := ∀ c ∈ rest.head?, c ∈ [')', ' ', '\n']

/-- What may come after a whole s-expression ends a word as well. -/
theorem Follows.mem_separators {rest : List Char} (h : Follows rest) :
    ∀ c ∈ rest.head?, c ∈ separators := fun c hc => List.mem_cons_of_mem _ (h c hc)

/-- A word ends where a separator comes. -/
theorem word_append_inj {w w' rest rest' : List Char} (hw : ∀ c ∈ w, c ∉ separators)
    (hw' : ∀ c ∈ w', c ∉ separators) (hrest : ∀ c ∈ rest.head?, c ∈ separators)
    (hrest' : ∀ c ∈ rest'.head?, c ∈ separators) (h : w ++ rest = w' ++ rest') :
    w = w' ∧ rest = rest' := by
  induction w generalizing w' with
  | nil =>
    cases w' with
    | nil => exact ⟨rfl, h⟩
    | cons c w' =>
      rw [List.nil_append] at h
      subst h
      exact absurd (hrest c rfl) (hw' c List.mem_cons_self)
  | cons c w ih =>
    cases w' with
    | nil =>
      rw [List.nil_append] at h
      subst h
      exact absurd (hrest' c rfl) (hw c List.mem_cons_self)
    | cons c' w' =>
      rw [List.cons_append, List.cons_append] at h
      obtain ⟨rfl, htail⟩ := List.cons.inj h
      obtain ⟨rfl, hrests⟩ := ih (List.forall_mem_cons.1 hw).2 (List.forall_mem_cons.1 hw').2 htail
      exact ⟨rfl, hrests⟩

theorem toList_text_list (head : String) (parts : List Sexp) :
    (list head parts).text.toList =
      '(' :: (head.toList ++ ((textParts parts).toList ++ [')'])) := by
  simp [text, String.toList_append]

theorem toList_textParts_cons (part : Sexp) (parts : List Sexp) :
    (textParts (part :: parts)).toList = ' ' :: (part.text.toList ++ (textParts parts).toList) := by
  simp [textParts, String.toList_append]

/-- After a head there are parts, each after a space, or the closing parenthesis. -/
theorem follows_textParts (parts : List Sexp) (rest : List Char) :
    Follows ((textParts parts).toList ++ ')' :: rest) := by
  cases parts with
  | nil => simp [Follows, textParts]
  | cons part parts => simp [Follows, toList_textParts_cons]

/-- A word does not start as a list does. -/
theorem atom_append_ne {word head : String} {parts : List Sexp} {rest rest' : List Char}
    (hword : IsWord word) (hrest : Follows rest) :
    (atom word).text.toList ++ rest ≠ (list head parts).text.toList ++ rest' := by
  rw [toList_text_list, List.cons_append, text]
  intro h
  cases hcs : word.toList with
  | nil =>
    rw [hcs, List.nil_append] at h
    have hopen := hrest '(' (by rw [h]; rfl)
    revert hopen
    decide
  | cons c cs =>
    rw [hcs, List.cons_append] at h
    obtain ⟨rfl, -⟩ := List.cons.inj h
    exact hword '(' (by rw [hcs]; exact List.mem_cons_self) List.mem_cons_self

mutual

/-- The text of an s-expression determines it, and where it ends. -/
theorem text_append_inj : (s s' : Sexp) → {rest rest' : List Char} → s.Legible → s'.Legible →
    Follows rest → Follows rest' → s.text.toList ++ rest = s'.text.toList ++ rest' →
    s = s' ∧ rest = rest'
  | atom word, atom word', rest, rest', hs, hs', hrest, hrest', h => by
    rw [text, text] at h
    obtain ⟨hwords, hrests⟩ := word_append_inj hs hs' hrest.mem_separators hrest'.mem_separators h
    exact ⟨congrArg atom (String.toList_inj.1 hwords), hrests⟩
  | atom _, list _ _, _, _, hs, _, hrest, _, h => absurd h (atom_append_ne hs hrest)
  | list _ _, atom _, _, _, _, hs', _, hrest', h => absurd h.symm (atom_append_ne hs' hrest')
  | list head parts, list head' parts', rest, rest', hs, hs', hrest, hrest', h => by
    simp only [toList_text_list, List.cons_append, List.append_assoc, List.cons.injEq, true_and,
      List.nil_append] at h
    obtain ⟨hheads, htail⟩ := word_append_inj hs.1 hs'.1
      (follows_textParts parts rest).mem_separators
      (follows_textParts parts' rest').mem_separators h
    obtain ⟨rfl, hrests⟩ := textParts_append_inj parts parts' hs.2 hs'.2 htail
    rw [String.toList_inj.1 hheads]
    exact ⟨rfl, hrests⟩

/-- The text of parts up to the parenthesis that closes them determines the parts. -/
theorem textParts_append_inj : (parts parts' : List Sexp) → {rest rest' : List Char} →
    LegibleParts parts → LegibleParts parts' →
    (textParts parts).toList ++ ')' :: rest = (textParts parts').toList ++ ')' :: rest' →
    parts = parts' ∧ rest = rest'
  | [], [], _, _, _, _, h => ⟨rfl, (List.cons.inj h).2⟩
  | [], part' :: parts', _, _, _, _, h => by
    rw [toList_textParts_cons] at h
    simp [textParts] at h
  | part :: parts, [], _, _, _, _, h => by
    rw [toList_textParts_cons] at h
    simp [textParts] at h
  | part :: parts, part' :: parts', rest, rest', hs, hs', h => by
    simp only [toList_textParts_cons, List.cons_append, List.append_assoc, List.cons.injEq,
      true_and] at h
    obtain ⟨rfl, htail⟩ := text_append_inj part part' hs.1 hs'.1 (follows_textParts parts rest)
      (follows_textParts parts' rest') h
    obtain ⟨rfl, hrests⟩ := textParts_append_inj parts parts' hs.2 hs'.2 htail
    exact ⟨rfl, hrests⟩

end

/-! ## One a line -/

/-- Joined lines are the first one, and every other one after a line feed. -/
theorem toList_intercalate_cons (first : String) (rest : List String) :
    ("\n".intercalate (first :: rest)).toList =
      first.toList ++ rest.flatMap fun line => '\n' :: line.toList := by
  have hfeed : "\n".toList = ['\n'] := rfl
  rw [String.toList_intercalate, hfeed]
  induction rest generalizing first with
  | nil => simp
  | cons next rest ih => simp [← ih next]

/-- The texts of several s-expressions, each on a line after a line feed. -/
def afterLineFeeds (ss : List Sexp) : List Char := ss.flatMap fun s => '\n' :: s.text.toList

theorem follows_afterLineFeeds (ss : List Sexp) : Follows (afterLineFeeds ss) := by
  cases ss <;> simp [Follows, afterLineFeeds]

/-- A line feed ends each text, and no text has one inside, so the texts are found one by one. -/
theorem afterLineFeeds_inj {ss ss' : List Sexp} (hss : ∀ s ∈ ss, s.Legible)
    (hss' : ∀ s ∈ ss', s.Legible) (h : afterLineFeeds ss = afterLineFeeds ss') : ss = ss' := by
  induction ss generalizing ss' with
  | nil =>
    cases ss' with
    | nil => rfl
    | cons s' ss' => cases h
  | cons s ss ih =>
    cases ss' with
    | nil => cases h
    | cons s' ss' =>
      obtain ⟨hs, hrest⟩ := List.forall_mem_cons.1 hss
      obtain ⟨hs', hrest'⟩ := List.forall_mem_cons.1 hss'
      obtain ⟨rfl, htail⟩ := text_append_inj s s' hs hs' (follows_afterLineFeeds ss)
        (follows_afterLineFeeds ss') (List.cons.inj h).2
      rw [ih hrest hrest' htail]

theorem toList_intercalate_text (s : Sexp) (ss : List Sexp) :
    ("\n".intercalate ((s :: ss).map text)).toList = s.text.toList ++ afterLineFeeds ss := by
  rw [List.map_cons, toList_intercalate_cons, List.flatMap_map]
  rfl

/-- Lists that are written one a line are determined by the text. -/
theorem intercalate_text_inj {ss ss' : List Sexp}
    (hss : ∀ s ∈ ss, s.Legible ∧ ∃ head parts, s = list head parts)
    (hss' : ∀ s ∈ ss', s.Legible ∧ ∃ head parts, s = list head parts)
    (h : "\n".intercalate (ss.map text) = "\n".intercalate (ss'.map text)) : ss = ss' := by
  -- A list is never written as nothing.
  have hsome (s : Sexp) (rest : List Sexp) (hs : ∃ head parts, s = list head parts) :
      "\n".intercalate ((s :: rest).map text) ≠ "" := by
    obtain ⟨head, parts, rfl⟩ := hs
    rw [ne_eq, ← String.toList_inj, toList_intercalate_text, toList_text_list]
    exact fun h => List.cons_ne_nil _ _ h
  cases ss with
  | nil =>
    cases ss' with
    | nil => rfl
    | cons s' rest' => exact absurd h.symm (hsome s' rest' (hss' s' List.mem_cons_self).2)
  | cons s rest =>
    cases ss' with
    | nil => exact absurd h (hsome s rest (hss s List.mem_cons_self).2)
    | cons s' rest' =>
      rw [← String.toList_inj, toList_intercalate_text, toList_intercalate_text] at h
      obtain ⟨hs, hrest⟩ := List.forall_mem_cons.1 hss
      obtain ⟨hs', hrest'⟩ := List.forall_mem_cons.1 hss'
      obtain ⟨rfl, htail⟩ := text_append_inj s s' hs.1 hs'.1 (follows_afterLineFeeds rest)
        (follows_afterLineFeeds rest') h
      rw [afterLineFeeds_inj (fun s hs => (hrest s hs).1) (fun s hs => (hrest' s hs).1) htail]

/-- What is written for several s-expressions, if all of them can be written. -/
theorem eq_intercalate_of_textLines? {ss : List Sexp} {written : String}
    (h : textLines? ss = some written) : written = "\n".intercalate (ss.map text) := by
  unfold textLines? at h
  obtain ⟨texts, htexts, rfl⟩ := Option.map_eq_some_iff.1 h
  suffices hmap : texts = ss.map text by rw [hmap]
  clear h
  induction ss generalizing texts with
  | nil =>
    cases htexts
    rfl
  | cons s ss ih =>
    rw [List.mapM_cons] at htexts
    obtain ⟨first, hfirst, htexts⟩ := Option.bind_eq_some_iff.1 htexts
    obtain ⟨others, hothers, htexts⟩ := Option.bind_eq_some_iff.1 htexts
    cases htexts
    have hs : first = s.text := by
      unfold text? at hfirst
      split at hfirst
      · cases hfirst
        rfl
      · cases hfirst
    rw [List.map_cons, hs, ih others hothers]

end Scriptlet.Sexp
