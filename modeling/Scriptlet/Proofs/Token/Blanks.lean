import Scriptlet.Text.Ranges
import Scriptlet.Proofs.Token.Spacing

/-!
# Blanks in program text

More characters are blank at the ends of a typed line than between tokens. As program text, a blank
is skipped if it may stand between tokens, and otherwise it is a character that starts nothing
(`Element.first_of_isBlank`). Either way it is an element of its own and ends the word before it, so
blanks around a text add no token to it (`Element.split_isBlank_append`).
-/

namespace Scriptlet

/-! ## Stripping -/

namespace Text

def Ranges.points (table : Ranges) : List Nat :=
  table.flatMap fun (low, high) => List.range' low (high + 1 - low)

theorem Ranges.mem_points {table : Ranges} {n : Nat} (h : table.has n = true) :
    n ∈ table.points := by
  induction table with
  | nil => cases h
  | cons range table ih =>
    obtain ⟨low, high⟩ := range
    simp only [Ranges.has, Bool.and_eq_true, Bool.or_eq_true, decide_eq_true_eq] at h
    obtain ⟨hlow, hhigh | hlater⟩ := h
    · refine List.mem_flatMap.2 ⟨(low, high), List.mem_cons_self, ?_⟩
      rw [List.mem_range'_1]
      omega
    · obtain ⟨other, hother, hn⟩ := List.mem_flatMap.1 (ih hlater)
      exact List.mem_flatMap.2 ⟨other, List.mem_cons_of_mem _ hother, hn⟩

/-- Stripping takes blanks off both ends. -/
theorem exists_eq_strip (text : List Char) :
    ∃ lead trail, text = lead ++ strip text ++ trail ∧
      (∀ c ∈ lead, isBlank c = true) ∧ ∀ c ∈ trail, isBlank c = true := by
  let rest := text.dropWhile isBlank
  refine ⟨text.takeWhile isBlank, (rest.reverse.takeWhile isBlank).reverse, ?_, ?_, ?_⟩
  · have hrest : strip text ++ (rest.reverse.takeWhile isBlank).reverse = rest := by
      rw [strip, ← List.reverse_append, List.takeWhile_append_dropWhile, List.reverse_reverse]
    rw [List.append_assoc, hrest, List.takeWhile_append_dropWhile]
  · intro c hc
    exact List.mem_takeWhile_imp hc
  · intro c hc
    exact List.mem_takeWhile_imp (List.mem_reverse.1 hc)

/-- A text neither starts nor ends with a blank. -/
def Trimmed (text : List Char) : Prop :=
  ∀ c, text.head? = some c ∨ text.getLast? = some c → isBlank c = false

/-- Stripping takes off no more than the blanks around a text. -/
theorem strip_eq_of_trimmed {lead text trail : List Char} (hlead : ∀ c ∈ lead, isBlank c = true)
    (htext : Trimmed text) (htrail : ∀ c ∈ trail, isBlank c = true) :
    strip (lead ++ (text ++ trail)) = text := by
  have hreverse : ∀ c ∈ trail.reverse, isBlank c = true :=
    fun c hc => htrail c (List.mem_reverse.1 hc)
  have hlast : ∀ c, text.reverse.head? = some c → isBlank c = false := by
    intro c hc
    rw [List.head?_reverse] at hc
    exact htext c (.inr hc)
  have hstart : (lead ++ (text ++ trail)).dropWhile isBlank = text ++ trail ∨
      text = [] ∧ (lead ++ (text ++ trail)).dropWhile isBlank = [] := by
    cases text with
    | nil =>
      refine .inr ⟨rfl, List.dropWhile_eq_nil_iff.2 fun c hc => ?_⟩
      exact (List.mem_append.1 hc).elim (hlead c) (htrail c)
    | cons d text => exact .inl (Element.dropWhile_append_eq hlead fun c hc => htext c (.inl hc))
  obtain hstart | ⟨rfl, hstart⟩ := hstart
  · rw [strip, hstart, List.reverse_append, Element.dropWhile_append_eq hreverse hlast,
      List.reverse_reverse]
  · rw [strip, hstart]
    rfl

end Text

/-! ## Blanks as elements -/

namespace Element

/-- A blank never goes on a word. It may stand between tokens, or it starts nothing. -/
theorem isBlank_cases {c : Char} (h : Text.isBlank c = true) :
    isIdentifierPart c = false ∧
      (c ∈ blanks ∨ c ∉ deciders ∧ isDigit c = false ∧ isIdentifierStart c = false) := by
  -- There are few blanks, and each of them is looked at.
  have hall : ∀ n ∈ Text.blanks.points, isIdentifierPart (Char.ofNat n) = false ∧
      (Char.ofNat n ∈ blanks ∨ Char.ofNat n ∉ deciders ∧ isDigit (Char.ofNat n) = false ∧
        isIdentifierStart (Char.ofNat n) = false) := by
    decide +kernel
  have hpoint := hall c.toNat (Text.Ranges.mem_points h)
  rwa [Char.ofNat_toNat] at hpoint

/-- A blank as an element: skipped between tokens, or unexpected. -/
def ofBlank (c : Char) : Element := if c ∈ blanks then .skipped [c] else .unexpected c

theorem token?_ofBlank (c : Char) : (ofBlank c).token? = none := by
  unfold ofBlank
  split <;> rfl

theorem text_ofBlank (c : Char) : (ofBlank c).text = [c] := by
  unfold ofBlank
  split <;> rfl

/-- No token starts with a blank, and no blank is joined with what follows it. -/
theorem first_of_isBlank {c : Char} (h : Text.isBlank c = true) (rest : List Char) :
    first c rest = ofBlank c := by
  unfold ofBlank
  by_cases hc : c ∈ blanks
  · rw [if_pos hc, first_blank hc]
  · obtain ⟨-, hblank | ⟨hdecider, hdigit, hstart⟩⟩ := isBlank_cases h
    · exact absurd hblank hc
    · rw [if_neg hc, first_of_not_mem_deciders hdecider, hdigit, hstart]
      rfl

/-- Blanks before a text are elements of their own. -/
theorem split_isBlank_append {lead : List Char} (h : ∀ c ∈ lead, Text.isBlank c = true)
    (rest : List Char) : split (lead ++ rest) = lead.map ofBlank ++ split rest := by
  induction lead with
  | nil => rfl
  | cons c lead ih =>
    obtain ⟨hc, hlead⟩ := List.forall_mem_cons.1 h
    rw [List.cons_append, split_cons, first_of_isBlank hc, text_ofBlank]
    exact congrArg _ (ih hlead)

/-- A blank line has no tokens, although it may have faults. -/
theorem split_of_isBlank {source : List Char} (h : ∀ c ∈ source, Text.isBlank c = true) :
    split source = source.map ofBlank := by
  have hsplit := split_isBlank_append h []
  rwa [List.append_nil, split, List.append_nil] at hsplit

/-- Blanks after a word end it. -/
theorem split_word_append {c : Char} {w trail : List Char} (hc : StartsWord c)
    (hw : ∀ d ∈ w, isIdentifierPart d = true) (htrail : ∀ d ∈ trail, Text.isBlank d = true) :
    split (c :: (w ++ trail)) =
      .token (Token.wordKind (String.ofList (c :: w))) none (c :: w) :: trail.map ofBlank := by
  have hword : (w ++ trail).takeWhile isIdentifierPart = w := by
    refine takeWhile_append_eq hw fun d hd => ?_
    exact (isBlank_cases (htrail d (List.mem_of_mem_head? hd))).1
  have hfirst : first c (w ++ trail) =
      .token (Token.wordKind (String.ofList (c :: w))) none (c :: w) := by
    rw [first_of_word hc, wordFrom, hword]
  rw [split_cons, hfirst, text, ← List.cons_append, List.drop_left, split_of_isBlank htrail]

/-- Blanks around a text hold no token. -/
theorem filterMap_token?_ofBlank (source : List Char) :
    (source.map ofBlank).filterMap token? = [] := by
  rw [List.filterMap_map, List.filterMap_eq_nil_iff]
  intro c _
  exact token?_ofBlank c

end Element

/-! ## What is scanned -/

namespace Scan

/-- A scan without faults has nothing to say against any element. -/
theorem complaint?_eq_none {line : Nat} {elements : List Element} {element : Element}
    (h : (ofElements line elements).faults = []) (helement : element ∈ elements) :
    element.complaint? = none := by
  have hcomplaints := diagnostics_ofElements line elements
  rw [diagnostics, h, List.map_nil, List.map_nil] at hcomplaints
  exact List.filterMap_eq_nil_iff.1 (List.map_eq_nil_iff.1 hcomplaints.symm) element helement

/-- The tokens that are read are those of the elements. -/
theorem map_told_body (source : String) :
    (Token.body (ofText source).tokens).map Token.told =
      (Element.split source.toList).filterMap Element.token? := by
  obtain ⟨ts, mark, htokens, hmark, hne⟩ := exists_tokens_eq source
  rw [← map_told_dropLast, htokens, List.dropLast_concat, Token.body_concat hne hmark]

end Scan

end Scriptlet
