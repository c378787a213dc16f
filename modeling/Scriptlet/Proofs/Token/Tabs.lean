import Scriptlet.Proofs.Token.LongestMatch
import Mathlib.Data.List.Forall2

/-!
# Scanning text whose tabs are written as spaces

Tabs may be replaced by spaces, as many for each as its column asks for, and the text is still scanned
as it was. Between tokens one blank is as good as several, and none of them starts, joins or splits a
token. Only a string shows what its tabs have become. The two texts are split side by side
(`Element.begins_untabbed`): what they begin with is alike, and what is left of them are again two
such texts.
-/

namespace Scriptlet

/-! ## Texts -/

namespace Text

/-- The second text is the first with each tab replaced by one to eight spaces. -/
inductive Untabbed : List Char → List Char → Prop
  | nil : Untabbed [] []
  | keep {c : Char} {v w : List Char} : c ≠ '\t' → Untabbed v w → Untabbed (c :: v) (c :: w)
  | tab {n : Nat} {v w : List Char} : 1 ≤ n → n ≤ 8 → Untabbed v w →
      Untabbed ('\t' :: v) (List.replicate n ' ' ++ w)

/-- A tab goes to the next multiple of eight, so it is at least one space and at most eight. -/
theorem untabbed_expandTabs (column : Nat) (text : List Char) :
    Untabbed text (expandTabs 8 column text) := by
  induction text generalizing column with
  | nil => exact .nil
  | cons c text ih =>
    rw [expandTabs]
    by_cases htab : c = '\t'
    · subst htab
      exact .tab (by omega) (by omega) (ih _)
    · rw [if_neg htab]
      split
      · exact .keep htab (ih 0)
      · exact .keep htab (ih _)

namespace Untabbed

variable {v w : List Char}

/-- Text without tabs stays as it is, whatever its column. -/
theorem eq_of_not_mem (h : Untabbed v w) (htab : '\t' ∉ v) : w = v := by
  induction h with
  | nil => rfl
  | keep _ _ ih => rw [ih fun hmem => htab (List.mem_cons_of_mem _ hmem)]
  | tab _ _ _ _ => exact absurd List.mem_cons_self htab

/-- A text in two pieces has its tabs replaced in each of them. -/
theorem of_append {x u : List Char} (h : Untabbed (x ++ v) u) :
    ∃ y w, u = y ++ w ∧ Untabbed x y ∧ Untabbed v w := by
  induction x generalizing u with
  | nil => exact ⟨[], u, rfl, .nil, h⟩
  | cons c x ih =>
    cases h with
    | keep hc h =>
      obtain ⟨y, w, rfl, hx, hv⟩ := ih h
      exact ⟨c :: y, w, rfl, .keep hc hx, hv⟩
    | @tab n _ _ hlow hhigh h =>
      obtain ⟨y, w, rfl, hx, hv⟩ := ih h
      exact ⟨List.replicate n ' ' ++ y, w, (List.append_assoc ..).symm, .tab hlow hhigh hx, hv⟩

theorem append {x y : List Char} (h : Untabbed x y) (h' : Untabbed v w) :
    Untabbed (x ++ v) (y ++ w) := by
  induction h with
  | nil => exact h'
  | keep hc _ ih => exact .keep hc ih
  | tab hlow hhigh _ ih =>
    rw [List.append_assoc]
    exact .tab hlow hhigh ih

theorem singleton {c : Char} (hc : c ≠ '\t') : Untabbed [c] [c] := .keep hc .nil

/-- Other characters than tabs and spaces stay. -/
theorem mem_iff (h : Untabbed v w) {c : Char} (htab : c ≠ '\t') (hspace : c ≠ ' ') :
    c ∈ w ↔ c ∈ v := by
  induction h with
  | nil => exact Iff.rfl
  | keep _ _ ih => rw [List.mem_cons, List.mem_cons, ih]
  | tab _ _ _ ih =>
    rw [List.mem_append, List.mem_cons, ih, List.mem_replicate]
    simp only [htab, hspace, and_false]

/-- Neither tabs nor spaces end a line, so all lines keep their numbers. -/
theorem count_newline (h : Untabbed v w) : w.count '\n' = v.count '\n' := by
  induction h with
  | nil => rfl
  | keep _ _ ih => rw [List.count_cons, List.count_cons, ih]
  | tab _ _ _ ih =>
    rw [List.count_append, List.count_replicate, List.count_cons, ih]
    simp

/-- Characters other than tabs and spaces start the one text just when they start the other. -/
theorem head?_iff (h : Untabbed v w) {c : Char} (htab : c ≠ '\t') (hspace : c ≠ ' ') :
    w.head? = some c ↔ v.head? = some c := by
  cases h with
  | nil => exact Iff.rfl
  | keep _ _ => rw [List.head?_cons, List.head?_cons]
  | @tab n _ _ hlow _ _ =>
    obtain ⟨m, rfl⟩ := Nat.exists_eq_add_of_le' hlow
    simp [List.replicate_succ, htab.symm, hspace.symm]

/-- What satisfies a condition that does not tell tabs from spaces ends at the same place. -/
theorem takeWhile_dropWhile (h : Untabbed v w) {p : Char → Bool} (hp : p '\t' = p ' ') :
    Untabbed (v.takeWhile p) (w.takeWhile p) ∧ Untabbed (v.dropWhile p) (w.dropWhile p) := by
  induction h with
  | nil => exact ⟨.nil, .nil⟩
  | @keep c v w hc h ih =>
    by_cases hpc : p c = true
    · rw [List.takeWhile_cons_of_pos hpc, List.takeWhile_cons_of_pos hpc,
        List.dropWhile_cons_of_pos hpc, List.dropWhile_cons_of_pos hpc]
      exact ⟨.keep hc ih.1, ih.2⟩
    · rw [List.takeWhile_cons_of_neg hpc, List.takeWhile_cons_of_neg hpc,
        List.dropWhile_cons_of_neg hpc, List.dropWhile_cons_of_neg hpc]
      exact ⟨.nil, .keep hc h⟩
  | @tab n v w hlow hhigh h ih =>
    by_cases htab : p '\t' = true
    · have hspaces : ∀ c ∈ List.replicate n ' ', p c = true := by
        intro c hc
        rw [List.eq_of_mem_replicate hc, ← hp, htab]
      rw [List.takeWhile_cons_of_pos htab, List.dropWhile_cons_of_pos htab,
        List.takeWhile_append_of_pos hspaces, List.dropWhile_append_of_pos hspaces]
      exact ⟨.tab hlow hhigh ih.1, ih.2⟩
    · have hspace : ¬p ' ' = true := hp ▸ htab
      obtain ⟨m, rfl⟩ := Nat.exists_eq_add_of_le' hlow
      rw [List.takeWhile_cons_of_neg htab, List.dropWhile_cons_of_neg htab, List.replicate_succ,
        List.cons_append, List.takeWhile_cons_of_neg hspace, List.dropWhile_cons_of_neg hspace,
        ← List.cons_append, ← List.replicate_succ]
      exact ⟨.nil, .tab hlow hhigh h⟩

/-- A condition that neither tabs nor spaces satisfy picks the same characters. -/
theorem takeWhile_eq (h : Untabbed v w) {p : Char → Bool} (htab : p '\t' = false)
    (hspace : p ' ' = false) : w.takeWhile p = v.takeWhile p := by
  refine (h.takeWhile_dropWhile (htab.trans hspace.symm)).1.eq_of_not_mem fun hmem => ?_
  rw [List.mem_takeWhile_imp hmem] at htab
  cases htab

end Untabbed

end Text

/-! ## Elements -/

namespace Element

open Text (Untabbed)

/-- Two elements are the same but for the tabs in skipped text and in strings. -/
inductive TabsAside : Element → Element → Prop
  | token {kind : Token.Kind} {literal : Value} {w : List Char} : '\t' ∉ w →
      TabsAside (.token kind literal w) (.token kind literal w)
  | string {v w : List Char} : Untabbed v w →
      TabsAside (.token .string (some (.string (String.ofList v))) ('"' :: (v ++ ['"'])))
        (.token .string (some (.string (String.ofList w))) ('"' :: (w ++ ['"'])))
  | skipped {v w : List Char} : Untabbed v w → TabsAside (.skipped v) (.skipped w)
  | unexpected (c : Char) : TabsAside (.unexpected c) (.unexpected c)
  | unterminated {v w : List Char} : Untabbed v w → TabsAside (.unterminated v) (.unterminated w)

/-- Two texts begin with elements that are the same but for tabs, and so are the rests of them. -/
def BeginAlike (source other : List Char) (element image : Element) : Prop :=
  TabsAside element image ∧ ∃ more rest, source = element.text ++ more ∧
    other = image.text ++ rest ∧ Untabbed more rest

variable {c : Char} {rest other : List Char}

/-- Texts begin alike if they begin with the same element and no tab is in it. -/
theorem BeginAlike.of_token {source other : List Char} {kind : Token.Kind} {literal : Value}
    {w : List Char} (h : Untabbed source other) (hw : w <+: source) (htab : '\t' ∉ w) :
    BeginAlike source other (.token kind literal w) (.token kind literal w) := by
  obtain ⟨more, rfl⟩ := hw
  obtain ⟨y, rest, rfl, hy, hmore⟩ := h.of_append
  rw [hy.eq_of_not_mem htab]
  exact ⟨.token htab, more, rest, rfl, rfl, hmore⟩

theorem beginAlike_slash (h : Untabbed rest other) :
    BeginAlike ('/' :: rest) ('/' :: other) (first '/' rest) (first '/' other) := by
  have hslash : other.head? = some '/' ↔ rest.head? = some '/' :=
    h.head?_iff (by decide) (by decide)
  rw [first_slash, first_slash]
  simp only [hslash]
  split
  · obtain ⟨htake, hdrop⟩ := h.takeWhile_dropWhile (p := (· != '\n')) rfl
    refine ⟨.skipped (.keep (by decide) htake), rest.dropWhile (· != '\n'),
      other.dropWhile (· != '\n'), ?_, ?_, hdrop⟩
    · rw [text, List.cons_append, List.takeWhile_append_dropWhile]
    · rw [text, List.cons_append, List.takeWhile_append_dropWhile]
  · exact ⟨.token (by decide), rest, other, rfl, rfl, h⟩

/-- Tabs in a string are tabs of its datum, so this is where the two texts may differ in a token. -/
theorem beginAlike_quote (h : Untabbed rest other) :
    BeginAlike ('"' :: rest) ('"' :: other) (stringFrom rest) (stringFrom other) := by
  have hquote : '"' ∈ other ↔ '"' ∈ rest := h.mem_iff (by decide) (by decide)
  by_cases hmem : '"' ∈ rest
  · obtain ⟨v, more, rfl, hv⟩ := List.eq_append_cons_of_mem hmem
    obtain ⟨w, tail, rfl, hvw, htail⟩ := h.of_append
    cases htail with
    | @keep _ _ after _ hafter =>
      have hw : '"' ∉ w := mt (hvw.mem_iff (by decide) (by decide)).1 hv
      rw [stringFrom_of_append hv, stringFrom_of_append hw]
      exact ⟨.string hvw, more, after, by simp [text], by simp [text], hafter⟩
  · rw [stringFrom_of_not_mem hmem, stringFrom_of_not_mem (mt hquote.1 hmem)]
    refine ⟨.unterminated (.keep (by decide) h), [], [], ?_, ?_, .nil⟩
    · rw [text, List.append_nil]
    · rw [text, List.append_nil]

theorem fractionOf_untabbed (h : Untabbed rest other) : fractionOf other = fractionOf rest := by
  cases h with
  | nil => rfl
  | @keep c v w _ h =>
    by_cases hc : c = '.'
    · subst hc
      exact h.takeWhile_eq (by decide) (by decide)
    · unfold fractionOf
      split <;> split <;> simp_all
  | @tab n v w hlow _ _ =>
    obtain ⟨m, rfl⟩ := Nat.exists_eq_add_of_le' hlow
    rfl

/-- Neither a tab nor a space continues a number. -/
theorem numberFrom_untabbed (c : Char) (h : Untabbed rest other) :
    numberFrom c other = numberFrom c rest := by
  have hdigits : Untabbed (rest.dropWhile isDigit) (other.dropWhile isDigit) :=
    (h.takeWhile_dropWhile (by decide)).2
  simp only [numberFrom, h.takeWhile_eq (p := isDigit) (by decide) (by decide),
    fractionOf_untabbed hdigits]

theorem tab_not_mem_numberFrom (hc : c.isDigit = true) (rest : List Char) :
    '\t' ∉ (numberFrom c rest).text := by
  unfold numberFrom
  simp only [text, List.mem_append, List.mem_cons, not_or]
  refine ⟨⟨⟨?_, fun hmem => ?_⟩, ?_⟩, fun hmem => ?_⟩
  · rintro rfl
    cases hc
  · cases List.mem_takeWhile_imp hmem
  · split <;> simp
  · cases mem_fractionOf hmem

/-- Texts that are the same but for tabs, and do not begin with one, begin alike. -/
theorem begins_untabbed (hc : c ≠ '\t') (h : Untabbed rest other) :
    BeginAlike (c :: rest) (c :: other) (first c rest) (first c other) := by
  have hall : Untabbed (c :: rest) (c :: other) := .keep hc h
  have hsingle : '\t' ∉ [c] := mt List.mem_singleton.1 hc.symm
  by_cases hmem : c ∈ deciders
  · simp only [deciders, List.mem_append, List.mem_map, List.mem_cons, List.not_mem_nil,
      or_false] at hmem
    obtain (⟨⟨_, kind⟩, hentry, rfl⟩ | ⟨⟨_, longer, alone⟩, hentry, rfl⟩) | hmem := hmem
    · rw [first_of_punctuation hentry, first_of_punctuation hentry]
      exact ⟨.token hsingle, rest, other, rfl, rfl, h⟩
    · have hequal : other.head? = some '=' ↔ rest.head? = some '=' :=
        h.head?_iff (by decide) (by decide)
      rw [first_of_comparison hentry, first_of_comparison hentry]
      simp only [hequal]
      split
      · next hhead =>
        obtain ⟨more, rfl⟩ := List.head?_eq_some_iff.1 hhead
        exact .of_token hall (by simp) (by simp [hc.symm])
      · exact ⟨.token hsingle, rest, other, rfl, rfl, h⟩
    · rcases hmem with rfl | rfl | rfl | rfl | rfl | rfl
      · exact beginAlike_slash h
      · exact ⟨.skipped (.singleton hc), rest, other, rfl, rfl, h⟩
      · exact absurd rfl hc
      · exact ⟨.skipped (.singleton hc), rest, other, rfl, rfl, h⟩
      · exact ⟨.skipped (.singleton hc), rest, other, rfl, rfl, h⟩
      · exact beginAlike_quote h
  · rw [first_of_not_mem_deciders hmem, first_of_not_mem_deciders hmem]
    by_cases hdigit : isDigit c = true
    · rw [if_pos hdigit, if_pos hdigit, numberFrom_untabbed c h]
      rw [isDigit_eq] at hdigit
      exact .of_token hall (isPrefix_numberFrom c rest) (tab_not_mem_numberFrom hdigit rest)
    · rw [if_neg hdigit, if_neg hdigit]
      by_cases hstart : isIdentifierStart c = true
      · rw [if_pos hstart, if_pos hstart, wordFrom, wordFrom,
          h.takeWhile_eq (by decide) (by decide)]
        refine .of_token hall (by simp [List.takeWhile_prefix]) ?_
        rw [List.mem_cons, not_or]
        exact ⟨hc.symm, fun hmem => absurd (List.mem_takeWhile_imp hmem) (by decide)⟩
      · rw [if_neg hstart, if_neg hstart]
        exact ⟨.unexpected c, rest, other, rfl, rfl, h⟩

end Element

/-! ## Scans -/

open Text (Untabbed)

/-- Two tokens are the same, but a string with tabs has one to eight spaces for each of them. -/
structure Token.TabsAside (t u : Token) : Prop where
  kind : u.kind = t.kind
  line : u.line = t.line
  same : ¬(t.kind = .string ∧ '\t' ∈ t.lexeme.toList) → u.lexeme = t.lexeme ∧ u.literal = t.literal
  spaced : t.kind = .string → '\t' ∈ t.lexeme.toList →
    Untabbed t.lexeme.toList u.lexeme.toList ∧ ∃ v w : String,
      t.literal = some (.string v) ∧ u.literal = some (.string w) ∧ Untabbed v.toList w.toList

theorem Token.TabsAside.refl {t : Token} (h : '\t' ∉ t.lexeme.toList) : TabsAside t t where
  kind := rfl
  line := rfl
  same _ := ⟨rfl, rfl⟩
  spaced _ hmem := absurd hmem h

theorem Token.tabsAside_string {v w : List Char} (h : Untabbed v w) (line : Int) :
    TabsAside
      ⟨.string, String.ofList ('"' :: (v ++ ['"'])), some (.string (String.ofList v)), line⟩
      ⟨.string, String.ofList ('"' :: (w ++ ['"'])), some (.string (String.ofList w)), line⟩ where
  kind := rfl
  line := rfl
  same hplain := by
    simp only [String.toList_ofList, true_and] at hplain
    rw [h.eq_of_not_mem fun hmem =>
      hplain (List.mem_cons_of_mem _ (List.mem_append_left _ hmem))]
    exact ⟨rfl, rfl⟩
  spaced _ _ := by
    rw [String.toList_ofList, String.toList_ofList]
    refine ⟨.keep (by decide) (h.append (.singleton (by decide))), _, _, rfl, rfl, ?_⟩
    rw [String.toList_ofList, String.toList_ofList]
    exact h

namespace Scan

/-- Two scans have the same faults and, but for tabs in strings, the same tokens. -/
def TabsAside (scan other : Scan) : Prop :=
  other.faults = scan.faults ∧ List.Forall₂ Token.TabsAside scan.tokens other.tokens

theorem TabsAside.cons {element image : Element} (h : element.TabsAside image) {line : Nat}
    {elements images : List Element}
    (hlater : ∀ line, (ofElements line elements).TabsAside (ofElements line images)) :
    (ofElements line (element :: elements)).TabsAside (ofElements line (image :: images)) := by
  have hline : image.text.count '\n' = element.text.count '\n' := by
    cases h with
    | token _ | unexpected _ => rfl
    | skipped hw | unterminated hw => exact hw.count_newline
    | string hw => simp [Element.text, hw.count_newline]
  obtain ⟨hfaults, htokens⟩ := hlater (line + element.text.count '\n')
  cases h with
  | token htab =>
    refine ⟨hfaults, .cons (.refl ?_) htokens⟩
    rw [String.toList_ofList]
    exact htab
  | string hw =>
    simp only [ofElements, hline]
    exact ⟨hfaults, .cons (Token.tabsAside_string hw _) htokens⟩
  | skipped _ =>
    simp only [ofElements, hline]
    exact ⟨hfaults, htokens⟩
  | unexpected c => exact ⟨congrArg (_ :: ·) hfaults, htokens⟩
  | unterminated _ =>
    simp only [ofElements, hline]
    exact ⟨congrArg (_ :: ·) hfaults, htokens⟩

/-- Spaces before a text are skipped. -/
theorem ofElements_spaces_append (line n : Nat) (rest : List Char) :
    ofElements line (Element.split (List.replicate n ' ' ++ rest)) =
      ofElements line (Element.split rest) := by
  induction n with
  | zero => rfl
  | succ n ih =>
    rw [List.replicate_succ, List.cons_append, Element.split_cons, Element.first_space (.inl rfl)]
    exact ih

/-- By recursion along both texts, which begin alike and go on alike. -/
theorem tabsAside_split {source other : List Char} (h : Untabbed source other) (line : Nat) :
    (ofElements line (Element.split source)).TabsAside
      (ofElements line (Element.split other)) := by
  fun_induction Element.split source generalizing other line with
  | case1 =>
    cases h
    rw [Element.split]
    exact ⟨rfl, .cons (.refl List.not_mem_nil) .nil⟩
  | case2 c rest element =>
    rename_i ih
    cases h with
    | keep hc h =>
      obtain ⟨halike, more, tail, hsource, hother, hmore⟩ := Element.begins_untabbed hc h
      rw [Element.split_cons, hother, List.drop_left]
      rw [hsource, List.drop_left] at ih ⊢
      exact .cons halike fun line => ih hmore line
    | tab _ _ h =>
      -- The tab is one element of the first text, and its spaces are one each of the other.
      rw [ofElements_spaces_append]
      exact ih h line

/-- A text and the same text with spaces for its tabs are scanned alike. -/
theorem tabsAside_ofText {source other : String} (h : Untabbed source.toList other.toList) :
    (ofText source).TabsAside (ofText other) :=
  tabsAside_split h 1

end Scan

end Scriptlet
