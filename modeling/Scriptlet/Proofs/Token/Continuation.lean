import Scriptlet.Proofs.Token.Composition

/-!
# Scanning damaged text with more text after it

Faults do not stop a scan, and only one of them reaches beyond its line: a string that is not closed.
Without it, a text and the lines after it are scanned each on its own, whatever else is wrong with
either (`Scan.ofText_append_damaged`). With it, more text without a quote makes the open string
longer and changes nothing before it (`Element.split_append_open`).
-/

namespace Scriptlet

namespace Element

variable {source tail : List Char}

/-! ## Open strings -/

/-- An open string starts with the last quote of the text and takes everything after it. -/
theorem first_eq_unterminated {c : Char} {rest w : List Char} (h : first c rest = .unterminated w) :
    c = '"' ∧ '"' ∉ rest ∧ w = '"' :: rest := by
  obtain ⟨hlexeme, -⟩ | ⟨rfl, hfirst⟩ | ⟨-, hfirst⟩ := first_cases c rest
  · rw [h] at hlexeme
    cases hlexeme
  · refine ⟨rfl, fun hmem => ?_, ?_⟩
    · obtain ⟨v, more, rfl, hv⟩ := List.eq_append_cons_of_mem hmem
      rw [first_quote, stringFrom_of_append hv] at h
      cases h
    · rw [hfirst] at h
      cases h
      rfl
  · rw [hfirst] at h
    cases h

theorem quote_mem_of_unterminated {w : List Char} (h : .unterminated w ∈ split source) :
    '"' ∈ source := by
  fun_induction split source with
  | case1 => cases h
  | case2 c rest element ih =>
    rcases List.mem_cons.1 h with hhead | htail
    · obtain ⟨rfl, -, -⟩ := first_eq_unterminated hhead.symm
      exact List.mem_cons_self
    · exact List.mem_of_mem_drop (ih htail)

/-- A string that is closed later on is closed in its own text. -/
theorem quote_mem_of_text_first {w rest : List Char} (h : (first '"' rest).text = '"' :: w)
    (hmem : '"' ∈ rest) : '"' ∈ w := by
  obtain ⟨v, more, rfl, hv⟩ := List.eq_append_cons_of_mem hmem
  rw [first_quote, stringFrom_of_append hv, text] at h
  rw [← List.tail_eq_of_cons_eq h]
  exact List.mem_append_right v List.mem_cons_self

/-- A comment that something else comes after is ended by a line feed. -/
theorem newline_mem_of_text_first {w before after : List Char} {stop : Char} (hstop : stop ≠ '\n')
    (h : (first '/' (w ++ (before ++ stop :: after))).text = '/' :: w)
    (hhead : (w ++ before).head? = some '/') : '\n' ∈ w ++ before := by
  have hslash : (w ++ (before ++ stop :: after)).head? = some '/' := by
    rw [← List.append_assoc, List.head?_append, hhead, Option.some_or]
  rw [first_slash, if_pos hslash, text] at h
  by_contra hnone
  have hall : ∀ d ∈ w ++ before, (d != '\n') = true := by
    intro d hd
    rw [bne_iff_ne]
    rintro rfl
    exact hnone hd
  have hkept : (stop :: after).takeWhile (· != '\n') = stop :: after.takeWhile (· != '\n') :=
    List.takeWhile_cons_of_pos (bne_iff_ne.2 hstop)
  have hlength := congrArg List.length (List.tail_eq_of_cons_eq h)
  rw [← List.append_assoc, List.takeWhile_append_of_pos hall, hkept] at hlength
  simp only [List.length_append, List.length_cons] at hlength
  omega

/-- What a text begins with is decided before any quote that comes later. -/
theorem first_append_of_quote {c : Char} {rest : List Char}
    (h : '"' ∈ (c :: rest).drop (first c rest).text.length) (tail : List Char) :
    first c (rest ++ tail) = first c rest := by
  obtain ⟨w, more, htext, rfl⟩ := exists_text_first c rest
  rw [htext, ← List.cons_append, List.drop_left] at h
  obtain ⟨before, after, rfl⟩ := List.append_of_mem h
  have hquote : c = '"' → '"' ∈ w ++ before := by
    rintro rfl
    exact List.mem_append_left _ (quote_mem_of_text_first htext (by simp))
  have hcomment : c = '/' → (w ++ before).head? = some '/' → '"' = '\n' ∨ '\n' ∈ w ++ before := by
    rintro rfl hhead
    exact .inr (newline_mem_of_text_first (by decide) htext hhead)
  rw [← List.append_assoc, List.append_assoc, List.cons_append,
    first_append_stop (by decide) hquote hcomment, first_append_stop (by decide) hquote hcomment]

/-- More text after an open string makes the string longer, as long as no quote closes it. -/
theorem split_append_open {w : List Char} (h : .unterminated w ∈ split source)
    (htail : '"' ∉ tail) :
    ∃ elements, split source = elements ++ [.unterminated w] ∧
      split (source ++ tail) = elements ++ [.unterminated (w ++ tail)] ∧
      ∀ v, .unterminated v ∉ elements := by
  fun_induction split source with
  | case1 => cases h
  | case2 c rest element ih =>
    rcases List.mem_cons.1 h with hhead | hlater
    · obtain ⟨rfl, hopen, rfl⟩ := first_eq_unterminated hhead.symm
      have hopen' : '"' ∉ rest ++ tail := by simp [hopen, htail]
      refine ⟨[], ?_, ?_, fun v => List.not_mem_nil⟩
      · simp only [element, first_quote, stringFrom_of_not_mem hopen, text, List.drop_length]
        rw [split, List.nil_append]
      · rw [List.cons_append, split_cons, first_quote, stringFrom_of_not_mem hopen', text,
          List.drop_length, split, List.nil_append]
    · obtain ⟨elements, hsplit, happend, hnone⟩ := ih hlater
      have hfirst : first c (rest ++ tail) = element :=
        first_append_of_quote (quote_mem_of_unterminated hlater) tail
      refine ⟨element :: elements, ?_, ?_, ?_⟩
      · rw [hsplit, List.cons_append]
      · rw [List.cons_append, split_cons, hfirst, ← List.cons_append,
          List.drop_append_of_le_length (length_text_first_le c rest), happend, List.cons_append]
      · refine fun v => List.not_mem_cons_of_ne_of_not_mem ?_ (hnone v)
        -- An open string leaves nothing for the later one to start in.
        intro hopen
        obtain ⟨rfl, hnot, rfl⟩ := first_eq_unterminated hopen.symm
        have hquote := quote_mem_of_unterminated hlater
        rw [show element = _ from hopen.symm, text, List.drop_length] at hquote
        cases hquote

end Element

/-! ## Scans -/

namespace Scan

/-- Lines after a text do not change what is scanned in it, and are scanned as they are on their own,
further down. The text and the lines after it may have any faults, as long as no string is open at
the end of the text. -/
theorem ofText_append_damaged (a b : String)
    (h : ∀ d ∈ (ofText a).diagnostics, d.message ≠ "Unterminated string.") :
    (∃ ts mark, (ofText a).tokens = ts ++ [mark] ∧ mark.kind = .eof ∧
      (ofText (a ++ "\n" ++ b)).tokens =
        ts ++ (ofText b).tokens.map (Token.down (a.toList.count '\n' + 1))) ∧
    (ofText (a ++ "\n" ++ b)).diagnostics =
      (ofText a).diagnostics ++
        (ofText b).diagnostics.map (Diagnostic.down (a.toList.count '\n' + 1)) := by
  have hclosed : ∀ w, Element.unterminated w ∉ Element.split a.toList := by
    intro w hw
    obtain ⟨d, hd, hmessage⟩ := (exists_unterminated_iff 1).1 ⟨w, hw⟩
    exact h d hd hmessage
  have hwhole := ofText_append_newline a b hclosed
  obtain ⟨ts, mark, htokens, hmark, -⟩ := exists_tokens_eq a
  refine ⟨⟨ts, mark, htokens, hmark, ?_⟩, ?_⟩
  · rw [hwhole, append, htokens, List.dropLast_concat, down]
  · rw [hwhole, diagnostics_append, diagnostics_down]

/-- An unexpected character, a number before a point and a quote in a comment, all at line ends. -/
theorem ofText_append_damaged_comment :
    (∀ d ∈ (ofText "# 1.\n// \"").diagnostics, d.message ≠ "Unterminated string.") ∧
    (∃ ts mark, (ofText "# 1.\n// \"").tokens = ts ++ [mark] ∧ mark.kind = .eof ∧
      (ofText ("# 1.\n// \"" ++ "\n" ++ "5 \"a\nb\" \"")).tokens =
        ts ++ (ofText "5 \"a\nb\" \"").tokens.map
          (Token.down ("# 1.\n// \"".toList.count '\n' + 1))) ∧
    (ofText ("# 1.\n// \"" ++ "\n" ++ "5 \"a\nb\" \"")).diagnostics =
      (ofText "# 1.\n// \"").diagnostics ++
        (ofText "5 \"a\nb\" \"").diagnostics.map
          (Diagnostic.down ("# 1.\n// \"".toList.count '\n' + 1)) :=
  have h : ∀ d ∈ (ofText "# 1.\n// \"").diagnostics, d.message ≠ "Unterminated string." := by
    decide +kernel
  ⟨h, ofText_append_damaged _ _ h⟩

/-! ## The first complaint -/

/-- The complaint about an open string is the last, and stands at the end of the text. -/
theorem diagnostics_of_open {source : String} {elements : List Element} {w : List Char}
    (h : Element.split source.toList = elements ++ [.unterminated w]) :
    (ofText source).diagnostics = (ofElements 1 elements).diagnostics ++
      [(LexicalFault.unterminatedString (1 + source.toList.count '\n')).diagnostic] := by
  have htext := (Element.splits_split source.toList).flatten_text
  rw [h, List.map_append, List.flatten_append] at htext
  have hcount : 1 + (elements.map Element.text).flatten.count '\n' + w.count '\n' =
      1 + source.toList.count '\n' := by
    rw [← htext, List.count_append, Nat.add_assoc]
    simp [Element.text]
  rw [ofText, h, ofElements_append, diagnostics_append, ← hcount]
  rfl

/-- Lines without a quote after a text do not change its first complaint, but an open string runs on
to their end. -/
theorem diagnostics_append_newline {a b : String} (hb : '"' ∉ b.toList) {first : Diagnostic}
    {rest : List Diagnostic} (h : (ofText a).diagnostics = first :: rest) :
    ∃ more, (ofText (a ++ "\n" ++ b)).diagnostics =
      (if first.message = "Unterminated string." then first.down (b.toList.count '\n' + 1)
        else first) :: more := by
  by_cases hopen : ∃ w, Element.unterminated w ∈ Element.split a.toList
  · obtain ⟨w, hw⟩ := hopen
    have htail : '"' ∉ '\n' :: b.toList := by simp [hb]
    have hsource : (a ++ "\n" ++ b).toList = a.toList ++ '\n' :: b.toList := by simp
    obtain ⟨elements, hsplit, happend, hnone⟩ := Element.split_append_open hw htail
    rw [← hsource] at happend
    rw [diagnostics_of_open hsplit] at h
    rw [diagnostics_of_open happend]
    cases hearlier : (ofElements 1 elements).diagnostics with
    | nil =>
      rw [hearlier, List.nil_append] at h
      cases h
      have hlines : 1 + (a ++ "\n" ++ b).toList.count '\n' =
          1 + a.toList.count '\n' + (b.toList.count '\n' + 1) := by
        rw [hsource, List.count_append, List.count_cons_self, Nat.add_assoc]
      refine ⟨[], ?_⟩
      simp only [LexicalFault.diagnostic, ↓reduceIte, Diagnostic.down, hlines, Int.natCast_add,
        List.nil_append]
    | cons d earlier =>
      rw [hearlier, List.cons_append] at h
      cases h
      have hmessage : first.message ≠ "Unterminated string." := by
        intro hmessage
        obtain ⟨v, hv⟩ := (exists_unterminated_iff 1).2
          ⟨first, hearlier ▸ List.mem_cons_self, hmessage⟩
        exact hnone v hv
      rw [if_neg hmessage]
      exact ⟨_, rfl⟩
  · have hmessage : first.message ≠ "Unterminated string." := fun hmessage =>
      hopen ((exists_unterminated_iff 1).2 ⟨first, h ▸ List.mem_cons_self, hmessage⟩)
    rw [if_neg hmessage, ofText_append_newline a b fun w hw => hopen ⟨w, hw⟩, diagnostics_append, h]
    exact ⟨_, rfl⟩

end Scan

end Scriptlet
