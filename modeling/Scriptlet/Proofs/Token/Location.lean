import Scriptlet.Proofs.Token.LongestMatch

/-!
# Where tokens and faults lie

A token stands in the text with its last character on its line, and so does the character that an
unexpected one is named by. The end mark and an open string have no text of their own, and only
their lines are known to be lines of the text.
-/

namespace Scriptlet

/-- A stretch of a text whose last character is on a line. -/
def EndsOnLine (source lexeme : List Char) (line : Int) : Prop :=
  ∃ before start last after, lexeme = start ++ [last] ∧ source = before ++ lexeme ++ after ∧
    line = (before ++ start).count '\n' + 1

/-- A token that was found in a text. -/
structure Token.LiesIn (source : List Char) (t : Token) : Prop where
  one_le_line : 1 ≤ t.line
  line_le : t.line ≤ source.count '\n' + 1
  endsOnLine : t.kind ≠ .eof → EndsOnLine source t.lexeme.toList t.line

/-- A diagnostic that points into a text. -/
structure Diagnostic.LiesIn (source : List Char) (d : Diagnostic) : Prop where
  one_le_line : 1 ≤ d.line
  line_le : d.line ≤ source.count '\n' + 1
  endsOnLine : ∀ lexeme, d.lexeme = some lexeme → d.atEnd = false →
    EndsOnLine source lexeme.toList d.line

theorem Token.LiesIn.atToken {source : List Char} {t : Token} (h : t.LiesIn source)
    (kind : Diagnostic.Kind) (message : String) :
    (Diagnostic.atToken kind t message).LiesIn source where
  one_le_line := h.one_le_line
  line_le := h.line_le
  endsOnLine := by
    intro lexeme hlexeme hend
    cases hlexeme
    exact h.endsOnLine (by simpa [Diagnostic.atToken] using hend)

/-- The line of a stretch is one that the text has. -/
theorem EndsOnLine.line_le {source lexeme : List Char} {line : Int}
    (h : EndsOnLine source lexeme line) : 1 ≤ line ∧ line ≤ source.count '\n' + 1 := by
  obtain ⟨before, start, last, after, rfl, rfl, rfl⟩ := h
  simp only [List.count_append]
  omega

/-- Reading on from `before` puts a lexeme that does not end a line on its last character's line. -/
theorem endsOnLine_append (before rest : List Char) {w : List Char} (hw : w ≠ [])
    (hlast : w.getLast hw ≠ '\n') :
    EndsOnLine (before ++ (w ++ rest)) w ((before ++ w).count '\n' + 1) := by
  have hsplit : w = w.dropLast ++ [w.getLast hw] := (List.dropLast_concat_getLast hw).symm
  have hcount : w.count '\n' = w.dropLast.count '\n' := by
    rw [hsplit, List.count_append, ← hsplit, List.count_singleton, if_neg (by simpa using hlast)]
    rfl
  refine ⟨before, w.dropLast, w.getLast hw, rest, hsplit, by simp, ?_⟩
  rw [List.count_append, List.count_append, hcount]

namespace Element

/-- Only strings go over a line's end. -/
theorem Lexeme.not_mem_newline {kind : Token.Kind} {literal : Value} {w : List Char}
    (h : Lexeme (.token kind literal w)) (hkind : kind ≠ .string) : '\n' ∉ w := by
  have hword : ∀ {c : Char}, StartsWord c → c ≠ '\n' := by
    rintro c hc rfl
    exact absurd (isIdentifierStart_iff.2 hc) (by decide)
  intro hmem
  cases h with
  | punctuation hentry =>
    have hall : ∀ entry ∈ Element.punctuation, entry.1 ≠ '\n' := by decide
    exact hall _ hentry (List.mem_singleton.1 hmem).symm
  | comparison hentry =>
    have hall : ∀ entry ∈ comparisons, entry.1 ≠ '\n' := by decide
    exact hall _ hentry (List.mem_singleton.1 hmem).symm
  | comparisonEqual hentry =>
    have hall : ∀ entry ∈ comparisons, '\n' ∉ [entry.1, '='] := by decide
    exact hall _ hentry hmem
  | slash => exact absurd hmem (by decide)
  | string _ => exact hkind rfl
  | whole _ hw => exact absurd (hw _ hmem) (by decide)
  | fraction _ hw _ hf =>
    rcases List.mem_append.1 hmem with hmem | hmem
    · exact absurd (hw _ hmem) (by decide)
    · rcases List.mem_cons.1 hmem with hpoint | hmem
      · exact absurd hpoint (by decide)
      · exact absurd (hf _ hmem) (by decide)
  | keyword hc hw _ | identifier hc hw _ =>
    rcases List.mem_cons.1 hmem with hfirst | hmem
    · exact hword hc hfirst.symm
    · exact absurd (hw _ hmem) (by decide)

/-- No token ends in a line feed, so the line that it ends on is that of its last character. -/
theorem Lexeme.getLast_ne_newline {kind : Token.Kind} {literal : Value} {w : List Char}
    (h : Lexeme (.token kind literal w)) (hw : w ≠ []) : w.getLast hw ≠ '\n' := by
  by_cases hkind : kind = .string
  · subst hkind
    cases h with
    | string _ => rw [List.getLast_cons (by simp), List.getLast_concat]; decide
    | punctuation hentry =>
      have hall : ∀ entry ∈ Element.punctuation, entry.2 ≠ .string := by decide
      exact absurd rfl (hall _ hentry)
    | comparison hentry =>
      have hall : ∀ entry ∈ comparisons, entry.2.2 ≠ .string := by decide
      exact absurd rfl (hall _ hentry)
    | comparisonEqual hentry =>
      have hall : ∀ entry ∈ comparisons, entry.2.1 ≠ .string := by decide
      exact absurd rfl (hall _ hentry)
    | keyword _ _ hentry =>
      have hall : ∀ entry ∈ Token.keywords, entry.2 ≠ .string := by decide
      exact absurd rfl (hall _ hentry)
  · exact fun hlast => h.not_mem_newline hkind (hlast ▸ List.getLast_mem hw)

end Element

namespace Scan

theorem endAt_liesIn {source : List Char} {line : Nat} (hpos : 1 ≤ line)
    (hle : line ≤ source.count '\n' + 1) : (Token.endAt line).LiesIn source where
  one_le_line := by simp only [Token.endAt]; omega
  line_le := by simp only [Token.endAt]; omega
  endsOnLine := fun h => absurd rfl h

/-- Everything found in the text after `before`, read from the line where `before` ends, points into
the two together. -/
theorem liesIn_ofElements {rest : List Char} {elements : List Element}
    (h : Element.Splits rest elements) (before : List Char) :
    (∀ t ∈ (ofElements (before.count '\n' + 1) elements).tokens, t.LiesIn (before ++ rest)) ∧
    ∀ d ∈ (ofElements (before.count '\n' + 1) elements).diagnostics, d.LiesIn (before ++ rest) := by
  -- The line to read from is always one more than the line feeds before, so only `before` grows.
  induction h generalizing before with
  | nil =>
    refine ⟨fun t ht => ?_, fun d hd => absurd hd List.not_mem_nil⟩
    rw [List.mem_singleton.1 ht]
    exact endAt_liesIn (by omega) (by simp)
  | @lexeme element rest elements hlongest _ ih =>
    have hline : before.count '\n' + 1 + element.text.count '\n' =
        (before ++ element.text).count '\n' + 1 := by
      rw [List.count_append]; omega
    have ih := ih (before ++ element.text)
    rw [List.append_assoc] at ih
    cases element with
    | skipped w => simpa only [ofElements, hline] using ih
    | token kind literal w =>
      have hw : w ≠ [] := hlongest.1.text_ne_nil
      have hends := endsOnLine_append before rest hw (hlongest.1.getLast_ne_newline hw)
      simp only [ofElements, hline, List.forall_mem_cons]
      refine ⟨⟨⟨hends.line_le.1, hends.line_le.2, fun _ => ?_⟩, ih.1⟩, ih.2⟩
      rw [String.toList_ofList]
      exact hends
    | unexpected _ => cases hlongest.1
    | unterminated _ => cases hlongest.1
  | @unterminated rest _ =>
    have hline : before.count '\n' + 1 + ('"' :: rest).count '\n' =
        (before ++ '"' :: rest).count '\n' + 1 := by
      rw [List.count_append]; omega
    simp only [ofElements, Element.text, hline, diagnostics, List.map_cons, List.map_nil,
      List.forall_mem_singleton]
    exact ⟨endAt_liesIn (by omega) (by omega), ⟨by simp only [LexicalFault.diagnostic]; omega,
      by simp only [LexicalFault.diagnostic]; omega, by intro _ hlexeme; cases hlexeme⟩⟩
  | @unexpected c rest elements _ hhopeless _ ih =>
    have hc : c ≠ '\n' := by
      rintro rfl
      exact hhopeless _ .newline ⟨rest, rfl⟩
    have hline : before.count '\n' + 1 + [c].count '\n' = (before ++ [c]).count '\n' + 1 := by
      rw [List.count_append]; omega
    have hends := endsOnLine_append before rest (List.cons_ne_nil c []) hc
    have ih := ih (before ++ [c])
    rw [List.append_assoc] at ih
    simp only [ofElements, Element.text, hline, diagnostics, List.map_cons, List.forall_mem_cons]
    refine ⟨ih.1, ⟨hends.line_le.1, hends.line_le.2, fun lexeme hlexeme _ => ?_⟩, ih.2⟩
    cases hlexeme
    rw [String.toList_singleton]
    exact hends

/-- The tokens of a text lie in it, and so do its faults. -/
theorem liesIn_ofText (source : String) :
    (∀ t ∈ (ofText source).tokens, t.LiesIn source.toList) ∧
    ∀ d ∈ (ofText source).diagnostics, d.LiesIn source.toList :=
  liesIn_ofElements (Element.splits_split source.toList) []

end Scan

end Scriptlet
