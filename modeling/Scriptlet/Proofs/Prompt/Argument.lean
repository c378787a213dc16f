import Scriptlet.Prompt.MetaCommand
import Scriptlet.Proofs.Token.Blanks
import Scriptlet.Proofs.Token.Tabs

/-!
# The text that a meta command is given

What is typed after the word of a command reaches the command as it was typed, but for its tabs. They
are written as spaces before the line is taken apart, and how many depends on the columns that the
word takes up. Since no text is scanned differently for that, but for the tabs in its strings, the
command shows the tokens of what was typed (`MetaCommand.ofLine?_argument`).
-/

namespace Scriptlet

namespace Text

/-- Text without tabs and line ends only moves the columns of what follows. -/
theorem expandTabs_append (width : Nat) {start : List Char}
    (h : ∀ c ∈ start, c ≠ '\t' ∧ c ≠ '\n' ∧ c ≠ '\r') (column : Nat) (rest : List Char) :
    expandTabs width column (start ++ rest) =
      start ++ expandTabs width (column + start.length) rest := by
  induction start generalizing column with
  | nil => rfl
  | cons c start ih =>
    obtain ⟨⟨htab, hfeed, hreturn⟩, hstart⟩ := List.forall_mem_cons.1 h
    rw [List.cons_append, expandTabs, if_neg htab, if_neg (not_or.2 ⟨hfeed, hreturn⟩),
      ih hstart, List.length_cons, Nat.add_assoc, Nat.add_comm 1]
    rfl

/-- A text without blanks at its ends has no tabs there. -/
theorem Untabbed.trimmed {v w : List Char} (h : Untabbed v w) (hv : Trimmed v) : Trimmed w := by
  have hblank : isBlank '\t' = true := by decide
  rintro c (hhead | hlast)
  · cases h with
    | nil => cases hhead
    | keep _ _ => exact hv c (.inl hhead)
    | tab _ _ _ => exact absurd (hv '\t' (.inl rfl)) (by rw [hblank]; exact Bool.noConfusion)
  · obtain rfl | ⟨x, d, rfl⟩ := List.eq_nil_or_concat' v
    · cases h
      cases hlast
    · have hd : isBlank d = false := hv d (.inr List.getLast?_concat)
      obtain ⟨y, z, rfl, -, hz⟩ := h.of_append
      cases hz with
      | keep _ hnil =>
        cases hnil
        rw [List.getLast?_concat] at hlast
        cases hlast
        exact hd
      | tab _ _ _ => exact absurd hd (by rw [hblank]; exact Bool.noConfusion)

end Text

namespace MetaCommand

variable {name : Name} {source : List Char}

/-- A command that can be typed is found by its word, before a space. -/
theorem find?_word (hname : name ∈ Name.known) (rest : List Char) :
    find? ((name.word.toList ++ ' ' :: rest).dropWhile isGap) = some (name, ' ' :: rest) := by
  simp only [Name.known, List.mem_cons, List.not_mem_nil, or_false] at hname
  rcases hname with rfl | rfl | rfl | rfl <;> rfl

/-- The typed text of a command, up to and with the space after its word. -/
def opening (name : Name) : List Char := ':' :: (name.word.toList ++ [' '])

theorem parse?_opening_append (hname : name ∈ Name.known) (hline : '\n' ∉ source)
    (hsource : Text.Trimmed source) :
    parse? (opening name ++ source) =
      some ⟨name, String.ofList (Text.expandTabs 8 (opening name).length source)⟩ := by
  have hplain : ∀ c ∈ opening name, c ≠ '\t' ∧ c ≠ '\n' ∧ c ≠ '\r' := by
    have hall : (opening name).all (fun c => c != '\t' && c != '\n' && c != '\r') = true := by
      cases name <;> rfl
    simpa [and_assoc] using hall
  have huntabbed := Text.untabbed_expandTabs (opening name).length source
  have hexpanded := Text.expandTabs_append 8 hplain 0 source
  rw [Nat.zero_add] at hexpanded
  generalize Text.expandTabs 8 (opening name).length source = argument at huntabbed hexpanded ⊢
  have hall : ∀ c ∈ ' ' :: argument, (c != '\n') = true := by
    intro c hc
    rw [bne_iff_ne]
    rintro rfl
    rcases List.mem_cons.1 hc with hspace | hmem
    · cases hspace
    · exact hline ((huntabbed.mem_iff (by decide) (by decide)).1 hmem)
  have hdrop : (opening name ++ argument).drop 1 = name.word.toList ++ ' ' :: argument := by
    simp [opening]
  have hstrip : Text.strip (' ' :: argument) = argument := by
    have hspace : ∀ c ∈ [' '], Text.isBlank c = true := List.forall_mem_singleton.2 rfl
    have hstripped := Text.strip_eq_of_trimmed hspace (huntabbed.trimmed hsource)
      (List.forall_mem_nil _)
    rwa [List.append_nil] at hstripped
  unfold parse?
  dsimp only
  rw [hexpanded, hdrop, find?_word hname]
  change (if ((' ' :: argument).dropWhile (· != '\n')).all isGap = true then
    some (⟨name, String.ofList (Text.strip ((' ' :: argument).takeWhile (· != '\n')))⟩ : MetaCommand)
    else none) = _
  rw [List.dropWhile_eq_nil_iff.2 hall, List.takeWhile_eq_self_iff.2 hall, hstrip]
  rfl

/-- Stripping takes nothing off a typed command but the space after its word, if that is all. -/
theorem strip_opening_append (hname : name ∈ Name.known) (hsource : Text.Trimmed source) :
    Text.strip (opening name ++ source) =
      if source = [] then ':' :: name.word.toList else opening name ++ source := by
  split
  · next hnone =>
    subst hnone
    simp only [Name.known, List.mem_cons, List.not_mem_nil, or_false] at hname
    rcases hname with rfl | rfl | rfl | rfl <;> rfl
  · next hsome =>
    have htrimmed : Text.Trimmed (opening name ++ source) := by
      rintro c (hhead | hlast)
      · cases hhead
        decide
      · rw [List.getLast?_append_of_ne_nil _ hsome] at hlast
        exact hsource c (.inr hlast)
    have hstripped := Text.strip_eq_of_trimmed (List.forall_mem_nil _) htrimmed
      (List.forall_mem_nil _)
    rwa [List.nil_append, List.append_nil] at hstripped

/-- A command is given the text that was typed after its word, with spaces for its tabs. -/
theorem ofLine?_opening_append (hname : name ∈ Name.known) (hline : '\n' ∉ source)
    (hsource : Text.Trimmed source) :
    ofLine? (String.ofList (opening name ++ source)) =
      some ⟨name, String.ofList (Text.expandTabs 8 (opening name).length source)⟩ := by
  unfold ofLine?
  dsimp only
  rw [String.toList_ofList, strip_opening_append hname hsource]
  split
  · next hnone =>
    subst hnone
    simp only [Name.known, List.mem_cons, List.not_mem_nil, or_false] at hname
    rcases hname with rfl | rfl | rfl | rfl <;> rfl
  · rw [parse?_opening_append hname hline hsource]
    rfl

/-- A command sees the text that was typed, up to tabs inside strings. For a text on one line without
blanks at its ends, after the word of any command, the command's argument is scanned as the text
itself is: with the same faults and the same tokens, but that a string with tabs has one to eight
spaces for each of them. -/
theorem ofLine?_argument (source : String) (name : Name) (hname : name ∈ Name.known)
    (hline : '\n' ∉ source.toList) (hsource : Text.Trimmed source.toList) :
    ∃ argument, ofLine? (":" ++ name.word ++ " " ++ source) = some ⟨name, argument⟩ ∧
      (Scan.ofText argument).diagnostics = (Scan.ofText source).diagnostics ∧
      List.Forall₂ Token.TabsAside (Scan.ofText source).tokens (Scan.ofText argument).tokens := by
  have htyped : ":" ++ name.word ++ " " ++ source = String.ofList (opening name ++ source.toList) := by
    apply String.toList_injective
    simp [opening]
  refine ⟨_, htyped ▸ ofLine?_opening_append hname hline hsource, ?_⟩
  have huntabbed : Text.Untabbed source.toList
      (String.ofList (Text.expandTabs 8 (opening name).length source.toList)).toList := by
    rw [String.toList_ofList]
    exact Text.untabbed_expandTabs _ _
  obtain ⟨hfaults, htokens⟩ := Scan.tabsAside_ofText huntabbed
  exact ⟨congrArg (List.map LexicalFault.diagnostic) hfaults, htokens⟩

/-- Tabs in a string, between tokens, before a character that starts nothing and in a comment. -/
theorem ofLine?_argument_tabs :
    let source := "print\t\"a\tb\";\t@ // \t\""
    (Name.ast ∈ Name.known ∧ '\n' ∉ source.toList ∧ Text.Trimmed source.toList) ∧
    ofLine? (":ast " ++ source) = some ⟨.ast, "print      \"a      b\";     @ //    \""⟩ ∧
    ∃ argument, ofLine? (":" ++ Name.ast.word ++ " " ++ source) = some ⟨.ast, argument⟩ ∧
      (Scan.ofText argument).diagnostics = (Scan.ofText source).diagnostics ∧
      List.Forall₂ Token.TabsAside (Scan.ofText source).tokens
        (Scan.ofText argument).tokens := by
  intro source
  have hname : Name.ast ∈ Name.known := by decide
  have hline : '\n' ∉ source.toList := by decide +kernel
  have hhead : source.toList.head? = some 'p' := by decide +kernel
  have hlast : source.toList.getLast? = some '"' := by decide +kernel
  have hsource : Text.Trimmed source.toList := by
    rintro c (hc | hc)
    · rw [hhead] at hc
      cases hc
      decide
    · rw [hlast] at hc
      cases hc
      decide
  exact ⟨⟨hname, hline, hsource⟩, by decide +kernel,
    ofLine?_argument source .ast hname hline hsource⟩

end MetaCommand

end Scriptlet
