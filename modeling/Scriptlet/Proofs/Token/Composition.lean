import Scriptlet.Program.Reading
import Scriptlet.Proofs.Token.LongestMatch

/-!
# Scanning a text in two pieces

Only strings go over the end of a line, so a line feed that no open string runs into is an element of
its own, and what stands before it is split as if nothing followed. The tokens after it are those of
the rest on its own, moved down by the lines before.
-/

namespace Scriptlet

/-! ## Elements -/

namespace Element

variable {rest tail : List Char} {stop : Char}

/-- The characters between tokens. Each of them ends every token but a string. -/
def blanks : List Char := [' ', '\t', '\r', '\n']

/-- A run of characters ends at the first one that does not belong, whatever comes after that. -/
theorem takeWhile_append_stop {p : Char → Bool} (hp : p stop = false) :
    (rest ++ stop :: tail).takeWhile p = rest.takeWhile p := by
  induction rest with
  | nil => simp [hp]
  | cons c rest ih =>
    by_cases hc : p c = true
    · simp [hc, ih]
    · simp [hc]

theorem dropWhile_append_stop {p : Char → Bool} (hp : p stop = false) :
    (rest ++ stop :: tail).dropWhile p = rest.dropWhile p ++ stop :: tail := by
  induction rest with
  | nil => simp [hp]
  | cons c rest ih =>
    by_cases hc : p c = true
    · simp [hc, ih]
    · simp [hc]

theorem head?_append_stop {c : Char} (hc : stop ≠ c) :
    (rest ++ stop :: tail).head? = some c ↔ rest.head? = some c := by
  cases rest with
  | nil => simp [hc]
  | cons d rest => simp

/-- A fraction needs a point and a digit, so neither may be what follows. -/
theorem fractionOf_append_stop (hpoint : stop ≠ '.') (hdigit : isDigit stop = false) :
    fractionOf (rest ++ stop :: tail) = fractionOf rest := by
  cases rest with
  | nil =>
    rw [List.nil_append]
    unfold fractionOf
    split <;> simp_all
  | cons c rest =>
    by_cases hc : c = '.'
    · subst hc
      exact takeWhile_append_stop hdigit
    · rw [List.cons_append]
      unfold fractionOf
      split <;> split <;> simp_all

theorem stringFrom_append (h : '"' ∈ rest) : stringFrom (rest ++ tail) = stringFrom rest := by
  obtain ⟨w, more, rfl, hw⟩ := List.eq_append_cons_of_mem h
  rw [List.append_assoc, List.cons_append, stringFrom_of_append hw, stringFrom_of_append hw]

/-- What follows a number does not count unless it could continue it. -/
theorem numberFrom_append_stop (c : Char) (hpoint : stop ≠ '.') (hdigit : isDigit stop = false) :
    numberFrom c (rest ++ stop :: tail) = numberFrom c rest := by
  simp only [numberFrom, takeWhile_append_stop hdigit, dropWhile_append_stop hdigit,
    fractionOf_append_stop hpoint hdigit]

theorem wordFrom_append_stop (c : Char) (hpart : isIdentifierPart stop = false) :
    wordFrom c (rest ++ stop :: tail) = wordFrom c rest := by
  simp only [wordFrom, takeWhile_append_stop hpart]

theorem takeWhile_append_of_mem {p : Char → Bool} (hp : p stop = false) (h : stop ∈ rest) :
    (rest ++ tail).takeWhile p = rest.takeWhile p := by
  obtain ⟨w, more, rfl⟩ := List.append_of_mem h
  rw [List.append_assoc, List.cons_append, takeWhile_append_stop hp, takeWhile_append_stop hp]

/-- What a text begins with is decided before a blank or a quote, unless it is a string or a comment
that goes on there. -/
theorem first_append_stop {c : Char} (hstop : stop ∈ '"' :: blanks) (hquote : c = '"' → '"' ∈ rest)
    (hcomment : c = '/' → rest.head? = some '/' → stop = '\n' ∨ '\n' ∈ rest) :
    first c (rest ++ stop :: tail) = first c rest := by
  have hends : stop ≠ '=' ∧ stop ≠ '/' ∧ stop ≠ '.' ∧ isDigit stop = false ∧
      isIdentifierPart stop = false := by
    simp only [blanks, List.mem_cons, List.not_mem_nil, or_false] at hstop
    rcases hstop with rfl | rfl | rfl | rfl | rfl <;> decide
  obtain ⟨hequal, hslash, hpoint, hdigit, hpart⟩ := hends
  by_cases hopen : c = '/'
  · subst hopen
    rw [first_slash, first_slash]
    simp only [head?_append_stop hslash]
    by_cases hcut : rest.head? = some '/'
    · obtain rfl | hmem := hcomment rfl hcut
      · rw [takeWhile_append_stop (by decide)]
      · rw [takeWhile_append_of_mem (by decide) hmem]
    · rw [if_neg hcut, if_neg hcut]
  · unfold first
    simp only [head?_append_stop hequal, numberFrom_append_stop c hpoint hdigit,
      wordFrom_append_stop c hpart, hopen, ↓reduceIte]
    by_cases hc : c = '"'
    · simp only [hc, stringFrom_append (hquote hc)]
    · simp only [hc, ↓reduceIte]

/-- What a text begins with is decided before its first blank, unless it is a string or a comment. -/
theorem first_append_blank {c : Char} (hstop : stop ∈ blanks) (hquote : c = '"' → '"' ∈ rest)
    (hcomment : c = '/' → rest.head? = some '/' → stop = '\n') :
    first c (rest ++ stop :: tail) = first c rest :=
  first_append_stop (List.mem_cons_of_mem _ hstop) hquote fun hc hhead => .inl (hcomment hc hhead)

/-- What a text begins with is decided before its first line ends, unless it is a string. -/
theorem first_append_newline {c : Char} (h : c = '"' → '"' ∈ rest) :
    first c (rest ++ '\n' :: tail) = first c rest :=
  first_append_blank (by decide) h fun _ _ => rfl

/-- The first element has the first character and perhaps some of those after it. -/
theorem exists_text_first (c : Char) (rest : List Char) :
    ∃ w more, (first c rest).text = c :: w ∧ rest = w ++ more := by
  obtain ⟨hlexeme, more, hmore⟩ | ⟨rfl, hfirst⟩ | ⟨-, hfirst⟩ := first_cases c rest
  · obtain ⟨d, w, hw⟩ := List.exists_cons_of_ne_nil hlexeme.text_ne_nil
    rw [hw] at hmore
    cases hmore
    exact ⟨w, more, hw, rfl⟩
  · exact ⟨rest, [], by rw [hfirst, text], (List.append_nil rest).symm⟩
  · exact ⟨[], rest, by rw [hfirst, text], rfl⟩

theorem length_text_first_le (c : Char) (rest : List Char) :
    (first c rest).text.length ≤ (c :: rest).length := by
  obtain ⟨w, more, htext, hrest⟩ := exists_text_first c rest
  rw [htext, hrest]
  simp

/-- Comments end before the line feed and no other element goes over it, except for strings, of
which none is open here. -/
theorem split_append_newline (source tail : List Char)
    (h : ∀ w, Element.unterminated w ∉ split source) :
    split (source ++ '\n' :: tail) = split source ++ .skipped ['\n'] :: split tail := by
  fun_induction split source with
  | case1 => rw [List.nil_append, split_cons, first_newline]; rfl
  | case2 c rest element ih =>
    -- A string is closed before the cut, or it would be an unterminated element.
    have hquote : c = '"' → '"' ∈ rest := by
      rintro rfl
      by_contra hnot
      refine h ('"' :: rest) ?_
      rw [← stringFrom_of_not_mem hnot, ← first_quote]
      exact List.mem_cons_self
    have hfirst : first c (rest ++ '\n' :: tail) = first c rest := first_append_newline hquote
    have ih := ih fun w hw => h w (List.mem_cons_of_mem _ hw)
    rw [List.cons_append, split_cons, hfirst, ← List.cons_append,
      List.drop_append_of_le_length (length_text_first_le c rest), ih]
    rfl

end Element

/-! ## Scans -/

/-- A token some lines further down. -/
def Token.down (lines : Nat) (t : Token) : Token := { t with line := t.line + lines }

def Diagnostic.down (lines : Nat) (d : Diagnostic) : Diagnostic := { d with line := d.line + lines }

def LexicalFault.down (lines : Nat) : LexicalFault → LexicalFault
  | unexpectedCharacter c line => unexpectedCharacter c (line + lines)
  | unterminatedString line => unterminatedString (line + lines)

namespace Scan

def down (lines : Nat) (scan : Scan) : Scan where
  tokens := scan.tokens.map (Token.down lines)
  faults := scan.faults.map (LexicalFault.down lines)

/-- One scan after another, whose end mark is left out. -/
def append (scan next : Scan) : Scan where
  tokens := scan.tokens.dropLast ++ next.tokens
  faults := scan.faults ++ next.faults

theorem diagnostics_down (lines : Nat) (scan : Scan) :
    (scan.down lines).diagnostics = scan.diagnostics.map (Diagnostic.down lines) := by
  simp only [diagnostics, down, List.map_map]
  apply List.map_congr_left
  intro fault _
  cases fault <;> simp [LexicalFault.down, LexicalFault.diagnostic, Diagnostic.down]

theorem diagnostics_append (scan next : Scan) :
    (scan.append next).diagnostics = scan.diagnostics ++ next.diagnostics :=
  List.map_append

theorem tokens_ofElements_ne_nil (line : Nat) (elements : List Element) :
    (ofElements line elements).tokens ≠ [] := by
  have hlength := congrArg List.length (tokens_ofElements line elements)
  intro hnil
  rw [hnil] at hlength
  simp at hlength

/-- Lines are only ever added to, so starting further down moves all of them. -/
theorem ofElements_down (line lines : Nat) (elements : List Element) :
    ofElements (line + lines) elements = (ofElements line elements).down lines := by
  induction elements generalizing line with
  | nil => rfl
  | cons element elements ih =>
    have ih := ih (line + element.text.count '\n')
    have hline := Nat.add_right_comm line lines (element.text.count '\n')
    cases element with
    | token kind literal w =>
      simp only [ofElements, hline, ih, down, List.map_cons, Token.down, Int.natCast_add]
    | skipped w => simp only [ofElements, hline, ih]
    | unexpected c | unterminated w =>
      simp only [ofElements, hline, ih, down, List.map_cons, LexicalFault.down]

/-- The second elements start on the line that the first ones end on. -/
theorem ofElements_append (line : Nat) (xs ys : List Element) :
    ofElements line (xs ++ ys) =
      (ofElements line xs).append
        (ofElements (line + (xs.map Element.text).flatten.count '\n') ys) := by
  induction xs generalizing line with
  | nil => rfl
  | cons element xs ih =>
    have ih := ih (line + element.text.count '\n')
    rw [Nat.add_assoc, ← List.count_append] at ih
    cases element with
    | token kind literal w =>
      simp only [List.cons_append, ofElements, ih, append, List.map_cons, List.flatten_cons]
      rw [List.dropLast_cons_of_ne_nil (tokens_ofElements_ne_nil _ _), List.cons_append]
    | skipped w => simp only [List.cons_append, ofElements, ih, List.map_cons, List.flatten_cons]
    | unexpected c | unterminated w =>
      simp only [List.cons_append, ofElements, ih, append, List.map_cons, List.flatten_cons]

/-- A text that no open string ends is scanned on its own, and the lines after it on theirs. -/
theorem ofText_append_newline (a b : String)
    (h : ∀ w, Element.unterminated w ∉ Element.split a.toList) :
    ofText (a ++ "\n" ++ b) = (ofText a).append ((ofText b).down (a.toList.count '\n' + 1)) := by
  have hsource : (a ++ "\n" ++ b).toList = a.toList ++ '\n' :: b.toList := by simp
  have hlines : 1 + a.toList.count '\n' + ['\n'].count '\n' = 1 + (a.toList.count '\n' + 1) := rfl
  unfold ofText
  rw [hsource, Element.split_append_newline _ _ h, ofElements_append,
    (Element.splits_split a.toList).flatten_text, ← ofElements_down, ← hlines]
  rfl

/-- A scan complains of an open string exactly where there is one. -/
theorem exists_unterminated_iff (line : Nat) {elements : List Element} :
    (∃ w, Element.unterminated w ∈ elements) ↔
      ∃ d ∈ (ofElements line elements).diagnostics, d.message = "Unterminated string." := by
  have hcomplaints := diagnostics_ofElements line elements
  constructor
  · rintro ⟨w, hw⟩
    have hmem : (Diagnostic.Kind.scan, "Unterminated string.", none) ∈
        (elements.filterMap Element.complaint?).map fun c => (Diagnostic.Kind.scan, c) :=
      List.mem_map_of_mem (List.mem_filterMap.2 ⟨_, hw, rfl⟩)
    rw [← hcomplaints] at hmem
    obtain ⟨d, hd, heq⟩ := List.mem_map.1 hmem
    exact ⟨d, hd, congrArg (·.2.1) heq⟩
  · rintro ⟨d, hd, hmessage⟩
    have hmem := List.mem_map_of_mem (f := fun d => (d.kind, d.message, d.lexeme)) hd
    rw [hcomplaints] at hmem
    obtain ⟨complaint, hcomplaint, heq⟩ := List.mem_map.1 hmem
    obtain ⟨element, helement, hfault⟩ := List.mem_filterMap.1 hcomplaint
    have hcomplains : complaint.1 = "Unterminated string." :=
      (congrArg (·.2.1) heq).trans hmessage
    cases element with
    | unterminated w => exact ⟨w, helement⟩
    | unexpected c =>
      cases hfault
      have hsame : "Unexpected character." = "Unterminated string." := hcomplains
      exact absurd hsame (by decide)
    | token kind literal w => cases hfault
    | skipped w => cases hfault

/-- An open string is a fault, so a scan without faults has none. -/
theorem unterminated_not_mem {line : Nat} {elements : List Element}
    (h : (ofElements line elements).faults = []) (w : List Char) :
    Element.unterminated w ∉ elements := by
  intro hw
  obtain ⟨d, hd, -⟩ := (exists_unterminated_iff line).1 ⟨w, hw⟩
  rw [diagnostics, h] at hd
  cases hd

end Scan

/-! ## What is read -/

namespace Token

variable {ts us : List Token} {mark : Token}

theorem body_append (h : ∀ t ∈ ts, t.kind ≠ .eof) : body (ts ++ us) = ts ++ body us :=
  List.takeWhile_append_of_pos fun t ht => bne_iff_ne.2 (h t ht)

theorem endMark_append (h : ∀ t ∈ ts, t.kind ≠ .eof) (hmark : mark.kind = .eof) :
    endMark (ts ++ mark :: us) = mark := by
  have hnone : ts.find? (·.kind == .eof) = none := by
    rw [List.find?_eq_none]
    intro t ht
    simpa using h t ht
  unfold endMark
  rw [List.find?_append, hnone, Option.none_or, List.find?_cons_of_pos (by simp [hmark])]
  rfl

theorem body_concat (h : ∀ t ∈ ts, t.kind ≠ .eof) (hmark : mark.kind = .eof) :
    body (ts ++ [mark]) = ts := by
  rw [body_append h, body, List.takeWhile_cons_of_neg (by simp [hmark]), List.append_nil]

end Token

/-- Of a text in two pieces, the tokens of the first are read and then those of the second, which
also has the end mark. -/
theorem Scan.body_ofText_append_newline {a b : String} (h : (ofText a).faults = []) :
    Token.body (ofText (a ++ "\n" ++ b)).tokens =
      Token.body (ofText a).tokens ++
        (Token.body (ofText b).tokens).map (Token.down (a.toList.count '\n' + 1)) ∧
    Token.endMark (ofText (a ++ "\n" ++ b)).tokens =
      (Token.endMark (ofText b).tokens).down (a.toList.count '\n' + 1) := by
  obtain ⟨ts, mark, hts, hmark, hne⟩ := exists_tokens_eq a
  obtain ⟨us, last, hus, hlast, hne'⟩ := exists_tokens_eq b
  have hmoved : ∀ t ∈ us.map (Token.down (a.toList.count '\n' + 1)), t.kind ≠ .eof := by
    intro t ht
    obtain ⟨u, hu, rfl⟩ := List.mem_map.1 ht
    exact hne' u hu
  have hall : ∀ t ∈ ts ++ us.map (Token.down (a.toList.count '\n' + 1)), t.kind ≠ .eof := by
    intro t ht
    exact (List.mem_append.1 ht).elim (hne t) (hmoved t)
  have hend : (last.down (a.toList.count '\n' + 1)).kind = .eof := hlast
  rw [ofText_append_newline a b (unterminated_not_mem h)]
  simp only [append, down, hts, hus, List.dropLast_concat, List.map_append, List.map_cons,
    List.map_nil, ← List.append_assoc]
  rw [Token.body_concat hne hmark, Token.body_concat hne' hlast, Token.body_concat hall hend,
    Token.endMark_append hall hend, Token.endMark_append hne' hlast]
  exact ⟨rfl, rfl⟩

end Scriptlet
