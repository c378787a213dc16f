import Scriptlet.Proofs.Token.LongestMatch

/-!
# Lines by counting

Scanning carries a line from element to element. Here the lines are found again without it: every
element gets the offset at which it starts in the text, and its line is one more than the line feeds
before an offset of the text. For a token that is the offset after its last character, for an
unexpected character the one before it, and for an open string and the end mark the end of the text.
`Scan.ofText_lines` says that scanning reports just these lines, in an order in which they never
decrease.
-/

namespace Scriptlet

/-- The line reached after so many characters of a text. -/
def Text.lineAfter (source : List Char) (offset : Nat) : Nat := 1 + (source.take offset).count '\n'

namespace Element

/-- An element with the number of characters before it. -/
structure Placed where
  start : Nat
  element : Element

/-- Elements with their offsets, one after the other from `start` on. -/
def place : (start : Nat) → List Element → List Placed
  | _, [] => []
  | start, element :: elements => ⟨start, element⟩ :: place (start + element.text.length) elements

namespace Placed

/-- The line that an element of a text is on, counted in the text. -/
def line (source : List Char) (p : Placed) : Nat :=
  match p.element with
  | .unexpected _ => Text.lineAfter source p.start
  | .unterminated _ => Text.lineAfter source source.length
  | .token _ _ text | .skipped text => Text.lineAfter source (p.start + text.length)

def token? (source : List Char) (p : Placed) : Option Token :=
  p.element.token?.map fun (kind, lexeme, literal) =>
    { kind, lexeme, literal, line := p.line source }

/-- What is wrong with an element, on its counted line. -/
def diagnostic? (source : List Char) (p : Placed) : Option Diagnostic :=
  p.element.complaint?.map fun (message, lexeme) =>
    { kind := .scan, message, lexeme, line := p.line source }

end Placed

variable {source : List Char} {element : Element} {elements : List Element}

theorem Placed.line_of_token? {p : Placed} {t : Token} (h : p.token? source = some t) :
    t.line = p.line source := by
  obtain ⟨-, -, rfl⟩ := Option.map_eq_some_iff.1 h
  rfl

theorem Placed.line_of_diagnostic? {p : Placed} {d : Diagnostic}
    (h : p.diagnostic? source = some d) : d.line = p.line source := by
  obtain ⟨-, -, rfl⟩ := Option.map_eq_some_iff.1 h
  rfl

/-- What is picked from placed elements keeps the order of their lines. -/
theorem pairwise_filterMap_line {α : Type} {f : Placed → Option α} {line : α → Int}
    {placed : List Placed} (hline : ∀ p a, f p = some a → line a = p.line source)
    (hsorted : (placed.map (Placed.line source)).Pairwise (· ≤ ·)) :
    ((placed.filterMap f).map line).Pairwise (· ≤ ·) := by
  rw [List.pairwise_map] at hsorted ⊢
  refine hsorted.filterMap f ?_
  intro p q hpq a ha b hb
  rw [hline p a ha, hline q b hb]
  exact Int.ofNat_le.2 hpq

/-! ## One element -/

/-- The first element of a text stands at its start. An unexpected character is no line feed, and
nothing follows an open string. -/
theorem Splits.head (h : Splits source (element :: elements)) :
    ∃ rest, source = element.text ++ rest ∧ Splits rest elements ∧
      (∀ c, element = .unexpected c → c ≠ '\n') ∧ ∀ w, element = .unterminated w → rest = [] := by
  cases h with
  | @lexeme _ rest _ hlongest hrest =>
    refine ⟨rest, rfl, hrest, ?_, ?_⟩
    · rintro c rfl
      cases hlongest.1
    · rintro w rfl
      cases hlongest.1
  | @unterminated rest _ =>
    refine ⟨[], by simp [text], .nil, ?_, fun _ _ => rfl⟩
    intro c hc
    cases hc
  | @unexpected c rest _ _ hhopeless hrest =>
    refine ⟨rest, rfl, hrest, ?_, ?_⟩
    · rintro d hd rfl
      cases hd
      exact hhopeless _ .newline ⟨rest, rfl⟩
    · intro w hw
      cases hw

theorem lineAfter_append (before rest : List Char) :
    Text.lineAfter (before ++ rest) before.length = 1 + before.count '\n' := by
  rw [Text.lineAfter, List.take_left]

/-- The counted line of an element is the one that its last character ends. -/
theorem Splits.line_head (h : Splits source (element :: elements)) (before : List Char) :
    Placed.line (before ++ source) ⟨before.length, element⟩ =
      1 + (before ++ element.text).count '\n' := by
  obtain ⟨rest, rfl, -, hunexpected, hunterminated⟩ := h.head
  have hstop : Text.lineAfter (before ++ (element.text ++ rest))
      (before.length + element.text.length) = 1 + (before ++ element.text).count '\n' := by
    rw [← List.append_assoc, ← List.length_append, lineAfter_append]
  cases element with
  | token kind literal w => exact hstop
  | skipped w => exact hstop
  | unexpected c =>
    have hc : c ≠ '\n' := hunexpected c rfl
    have hcount : (before ++ [c]).count '\n' = before.count '\n' := by simp [hc]
    rw [text, hcount]
    exact lineAfter_append before _
  | unterminated w =>
    obtain rfl := hunterminated w rfl
    rw [List.append_nil]
    exact (congrArg (Text.lineAfter _) List.length_append).trans (by simpa using hstop)

/-! ## All elements -/

/-- Every placed element is read at its offset. -/
theorem Splits.isPrefix_drop (h : Splits source elements) (before : List Char) :
    ∀ p ∈ place before.length elements, p.element.text <+: (before ++ source).drop p.start := by
  induction elements generalizing before source with
  | nil => exact List.forall_mem_nil _
  | cons element elements ih =>
    obtain ⟨rest, rfl, hrest, -, -⟩ := h.head
    refine List.forall_mem_cons.2 ⟨?_, ?_⟩
    · rw [List.drop_left]
      exact List.prefix_append ..
    · have hlater := ih hrest (before ++ element.text)
      rwa [List.length_append, List.append_assoc] at hlater

/-- Lines do not decrease from one element to the next, and stay between those where the elements
start and where they end. -/
theorem Splits.pairwise_line (h : Splits source elements) (before : List Char) :
    ((place before.length elements).map (Placed.line (before ++ source))).Pairwise (· ≤ ·) ∧
    ∀ p ∈ place before.length elements, 1 + before.count '\n' ≤ p.line (before ++ source) ∧
      p.line (before ++ source) ≤ 1 + (before ++ source).count '\n' := by
  induction elements generalizing before source with
  | nil => exact ⟨.nil, List.forall_mem_nil _⟩
  | cons element elements ih =>
    have hline := h.line_head before
    obtain ⟨rest, rfl, hrest, -, -⟩ := h.head
    obtain ⟨hsorted, hbounds⟩ := ih hrest (before ++ element.text)
    rw [List.length_append, List.append_assoc] at hsorted hbounds
    simp only [List.count_append] at hline hbounds ⊢
    refine ⟨List.pairwise_cons.2 ⟨?_, hsorted⟩, List.forall_mem_cons.2 ⟨by omega, ?_⟩⟩
    · intro line hmem
      obtain ⟨p, hp, rfl⟩ := List.mem_map.1 hmem
      exact hline.trans_le (hbounds p hp).1
    · intro p hp
      have := hbounds p hp
      omega

end Element

namespace Scan

open Element

/-- Elements are scanned on the lines that are counted in the text. -/
theorem ofElements_place {source : List Char} {elements : List Element}
    (h : Splits source elements) (before : List Char) :
    (ofElements (1 + before.count '\n') elements).tokens =
        (place before.length elements).filterMap (Placed.token? (before ++ source)) ++
          [Token.endAt (Text.lineAfter (before ++ source) (before ++ source).length)] ∧
      (ofElements (1 + before.count '\n') elements).diagnostics =
        (place before.length elements).filterMap (Placed.diagnostic? (before ++ source)) := by
  -- The line carried along is always the one reached after `before`, so only `before` grows.
  induction elements generalizing before source with
  | nil =>
    cases h
    rw [Text.lineAfter, List.take_length, List.append_nil]
    exact ⟨rfl, rfl⟩
  | cons element elements ih =>
    have hline := h.line_head before
    obtain ⟨rest, rfl, hrest, -, -⟩ := h.head
    obtain ⟨htokens, hdiagnostics⟩ := ih hrest (before ++ element.text)
    have hnext : 1 + before.count '\n' + element.text.count '\n' =
        1 + (before ++ element.text).count '\n' := by
      rw [List.count_append, Nat.add_assoc]
    rw [List.length_append, List.append_assoc] at htokens hdiagnostics
    rw [← hnext] at hline htokens hdiagnostics
    cases element with
    | token kind literal w =>
      refine ⟨?_, hdiagnostics⟩
      simp only [ofElements, place, List.filterMap_cons, Placed.token?, token?, Option.map_some,
        hline, htokens, List.cons_append]
    | skipped w => exact ⟨htokens, hdiagnostics⟩
    | unexpected c | unterminated w =>
      refine ⟨htokens, ?_⟩
      simp only [diagnostics] at hdiagnostics
      simp only [ofElements, diagnostics, List.map_cons, LexicalFault.diagnostic, place,
        List.filterMap_cons, Placed.diagnostic?, complaint?, Option.map_some, hline, hdiagnostics]

/-- Lines are exact. A text splits into elements in one way, and scanning gives each token and each
fault the line that is counted in the text at its offset, the end mark that of the end of the text.
Along the text these lines never decrease. -/
theorem ofText_lines (source : String) :
    ∃ elements, (∀ others, Splits source.toList others ↔ others = elements) ∧
      (∀ p ∈ place 0 elements, p.element.text <+: source.toList.drop p.start) ∧
      (ofText source).tokens = (place 0 elements).filterMap (Placed.token? source.toList) ++
        [Token.endAt (Text.lineAfter source.toList source.toList.length)] ∧
      (ofText source).diagnostics =
        (place 0 elements).filterMap (Placed.diagnostic? source.toList) ∧
      ((place 0 elements).map (Placed.line source.toList)).Pairwise (· ≤ ·) ∧
      ((ofText source).tokens.map (·.line)).Pairwise (· ≤ ·) ∧
      ((ofText source).diagnostics.map (·.line)).Pairwise (· ≤ ·) := by
  have hsplits := splits_split source.toList
  obtain ⟨htokens, hdiagnostics⟩ := ofElements_place hsplits []
  obtain ⟨hsorted, hbounds⟩ := hsplits.pairwise_line []
  have htokens : (ofText source).tokens = _ := htokens
  have hdiagnostics : (ofText source).diagnostics = _ := hdiagnostics
  refine ⟨split source.toList, fun others => ⟨fun h => h.eq_split, fun h => h ▸ hsplits⟩,
    hsplits.isPrefix_drop [], htokens, hdiagnostics, hsorted, ?_, ?_⟩
  · rw [htokens, List.map_append, List.pairwise_append]
    refine ⟨pairwise_filterMap_line (fun _ _ => Placed.line_of_token?) hsorted,
      List.pairwise_singleton .., ?_⟩
    -- The end mark comes after every token, and no line is beyond the last.
    intro line hline last hlast
    obtain ⟨t, ht, rfl⟩ := List.mem_map.1 hline
    obtain ⟨p, hp, htoken⟩ := List.mem_filterMap.1 ht
    rw [List.mem_singleton.1 hlast, Placed.line_of_token? htoken]
    refine Int.ofNat_le.2 ((hbounds p hp).2.trans_eq ?_)
    rw [Text.lineAfter, List.take_length]
  · rw [hdiagnostics]
    exact pairwise_filterMap_line (fun _ _ => Placed.line_of_diagnostic?) hsorted

/-- A string over two lines counts for its second, also for what follows it. -/
example : (ofText "a\n\"b\nc\" @\n").tokens.map (·.line) = [1, 3, 4] ∧
    (ofText "a\n\"b\nc\" @\n").diagnostics.map (·.line) = [3] := by
  decide +kernel

end Scan

end Scriptlet
