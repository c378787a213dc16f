import Scriptlet.Proofs.Grammar.Faults

/-!
# The first token that cannot be right

A syntax fault stands at the first token that no program could have there. The tokens before it are the
start of a sentence of the relaxed grammar, since what was taken before the fault can be completed. With
the token itself they are not: a rule looks no further than that token, so any sentence that starts like
this would fail in the same way, while every sentence can be read to its end.

Targets are looked at late, so a fault for a target is not of this kind. It stands at the equals sign
between the two sides of an assignment.
-/

namespace Scriptlet

/-- Tokens up to the first end mark, with the mark that stands in for it if there is none. -/
def Token.cut (tokens : List Token) : List Token := Token.body tokens ++ [Token.endMark tokens]

theorem Token.kind_endMark (tokens : List Token) : (Token.endMark tokens).kind = .eof := by
  unfold endMark
  cases hfind : tokens.find? (·.kind == .eof) with
  | none => rfl
  | some mark => simpa using List.find?_some hfind

/-- What stands after the first tokens of a list that ends in a mark. -/
theorem Token.next_of_cut (used t : List Token) (mark : Token) :
    (used ++ t ++ [mark])[used.length]? = some (t.head?.getD mark) ∧
      (used ++ t ++ [mark]).take used.length = used ∧
      (used ++ t ++ [mark]).take (used.length + 1) = used ++ [t.head?.getD mark] := by
  have hnext : (t ++ [mark]).head? = some (t.head?.getD mark) := by
    cases t <;> rfl
  rw [List.append_assoc]
  refine ⟨?_, List.take_left, ?_⟩
  · rw [List.getElem?_append_right (Nat.le_refl _), Nat.sub_self, ← List.head?_eq_getElem?, hnext]
  · rw [List.take_length_add_append, List.take_one, hnext]
    rfl

namespace SyntaxFault

/-- Causes are told apart by their messages here, since diagnostics keep the message only. -/
theorem Cause.eq_assignmentTarget {cause : Cause}
    (h : cause.message = "Invalid assignment target.") : cause = .assignmentTarget := by
  revert h
  cases cause <;> decide

end SyntaxFault

namespace Grammar

open Rule

/-- After a fault at a token, no declarations of the relaxed grammar start with the tokens before it
and go on with that token. -/
theorem not_relaxedAll_of_error {levels : Nat} {used t other : List Token} {fault : SyntaxFault}
    (h : program levels (used ++ t) = .error fault t) (hroom : fault.cause ≠ .shallowerNesting)
    (htarget : fault.cause ≠ .assignmentTarget) (hhead : other.head? = t.head?) :
    ¬RelaxedAll (used ++ other) := by
  intro hrelaxed
  -- Reading stops at the same token, whatever comes after it.
  have hsame : program levels (used ++ other) = .error fault other := by
    obtain ⟨used', hused, hsame⟩ := local_program levels (used ++ t)
    rw [h] at hused hsame
    obtain rfl : used = used' := List.append_cancel_right hused
    exact hsame other hhead
  -- More levels would not help.
  obtain ⟨n, hpasses⟩ := hrelaxed.passes_program
  have hread := hpasses (max levels n) (Nat.le_max_right ..)
  obtain hout | hmore := program_eq_or_exhausted (Nat.le_max_left levels n) (used ++ other)
  · rw [hsame] at hout
    exact hroom hout
  · unfold Passes at hread
    rw [hmore, hsame] at hread
    rcases hread with ⟨body, hbody⟩ | hmistargeted
    · cases hbody
    · exact htarget hmistargeted

/-- A sentence that starts with the tokens before a fault does not go on with the token at fault. -/
theorem not_relaxed_of_error {levels : Nat} {used t : List Token} {mark : Token}
    {fault : SyntaxFault} (h : program levels (used ++ t) = .error fault t)
    (hroom : fault.cause ≠ .shallowerNesting) (htarget : fault.cause ≠ .assignmentTarget)
    (ht : Unended t) (hmark : mark.kind = .eof) {sentence : List Token} (hs : Relaxed sentence) :
    ¬used ++ [t.head?.getD mark] <+: sentence := by
  rintro ⟨rest, hrest⟩
  obtain ⟨body, end', rfl, hend, hbody⟩ := hs
  have hfails {other : List Token} (hhead : other.head? = t.head?) : body ≠ used ++ other := by
    rintro rfl
    exact not_relaxedAll_of_error h hroom htarget hhead hbody
  cases t with
  | nil =>
    -- The end mark is at fault: the sentence ends there as well, since it has no other end mark.
    rw [List.head?_nil, Option.getD_none] at hrest
    obtain rfl | ⟨more, last, rfl⟩ := List.eq_nil_or_concat rest
    · rw [List.append_nil] at hrest
      have hsplit := List.append_inj_left' hrest rfl
      exact hfails List.head?_nil (by rw [← hsplit, List.append_nil])
    · rw [List.concat_eq_append, ← List.append_assoc] at hrest
      have hsplit := List.append_inj_left' hrest rfl
      have hmem : mark ∈ body := by rw [← hsplit]; simp
      exact hbody.unended mark hmem hmark
  | cons token t =>
    rw [List.head?_cons, Option.getD_some] at hrest
    obtain ⟨htoken, -⟩ := unended_cons.1 ht
    obtain rfl | ⟨more, last, rfl⟩ := List.eq_nil_or_concat rest
    · rw [List.append_nil] at hrest
      have hlast := List.append_inj_right' hrest rfl
      cases hlast
      exact htoken hend
    · rw [List.concat_eq_append, ← List.append_assoc] at hrest
      have hsplit := List.append_inj_left' hrest rfl
      have hbody' : body = used ++ token :: more := by rw [← hsplit]; simp
      exact hfails List.head?_cons hbody'

/-- A syntax fault other than for a target stands at the first token that cannot be right: the tokens
before it start a sentence of the relaxed grammar, and with it they start none. A fault for a target
stands at the equals sign of an assignment, after an equality other than a lone name, which starts
where an assignment may stand, and before a whole assignment. -/
theorem ofTokens_first_fault {tokens : List Token} {d : Diagnostic}
    (h : Program.ofTokens tokens = .error d) (hroom : d.message ≠ Diagnostic.nestedTooDeeply) :
    (d.message ≠ "Invalid assignment target." →
      ∃ i token, (Token.cut tokens)[i]? = some token ∧ d = .atToken .parse token d.message ∧
        (∃ sentence, Relaxed sentence ∧ (Token.cut tokens).take i <+: sentence) ∧
        ∀ sentence, Relaxed sentence → ¬(Token.cut tokens).take (i + 1) <+: sentence) ∧
      (d.message = "Invalid assignment target." →
        ∃ before left equals right rest,
          Token.body tokens = before ++ left ++ equals :: right ++ rest ∧
          d = .atToken .parse equals d.message ∧ Leads before ∧
          Untargeted left equals right rest) := by
  unfold Program.ofTokens read at h
  cases hread : program Nesting.reading (Token.body tokens) with
  | ok body t => simp [hread] at h
  | error fault t =>
    simp only [hread, Except.error.injEq] at h
    subst h
    have hmark := Token.kind_endMark tokens
    have hcut : Token.cut tokens = Token.body tokens ++ [Token.endMark tokens] := rfl
    have hunended : Unended (Token.body tokens) := fun t ht => Token.kind_ne_eof_of_mem_body ht
    obtain ⟨used, hused, hblames⟩ := blaming_program Nesting.reading hread
    rw [hused] at hread hcut hunended ⊢
    generalize Token.endMark tokens = mark at *
    cases hblames with
    | exhausted => exact absurd rfl hroom
    | @token cause hcause hmore =>
      refine ⟨fun _ => ?_, fun hmessage => ?_⟩
      · have hdeeper : cause ≠ .shallowerNesting := by
          rintro rfl
          exact hroom rfl
        obtain ⟨hnext, hbefore, hwith⟩ := Token.next_of_cut used t mark
        rw [hcut]
        refine ⟨used.length, t.head?.getD mark, hnext, rfl, ?_, ?_⟩
        · obtain ⟨more, hmore⟩ := hmore
          refine ⟨used ++ more ++ [mark], ⟨_, mark, rfl, hmark, hmore⟩, ?_⟩
          rw [hbefore, List.append_assoc]
          exact List.prefix_append ..
        · intro sentence hsentence
          rw [hwith]
          exact not_relaxed_of_error hread hdeeper hcause (unended_append.1 hunended).2 hmark
            hsentence
      · exact absurd (SyntaxFault.Cause.eq_assignmentTarget hmessage) hcause
    | @target before left right equals hsplit hlead htarget =>
      refine ⟨fun hmessage => absurd rfl hmessage, fun _ => ?_⟩
      exact ⟨before, left, equals, right, t, by rw [hsplit], rfl, hlead, htarget⟩

/-- An operand that is missing before a semicolon, and a group as the target of an assignment. -/
theorem ofTokens_first_fault_group :
    let missing : List Token := [⟨.printWord, "print", none, 1⟩, ⟨.identifier, "a", none, 1⟩,
      ⟨.plus, "+", none, 1⟩, ⟨.semicolon, ";", none, 2⟩, ⟨.eof, "", none, 2⟩]
    let grouped : List Token := [⟨.identifier, "a", none, 1⟩, ⟨.equal, "=", none, 1⟩,
      ⟨.leftParen, "(", none, 1⟩, ⟨.identifier, "b", none, 1⟩, ⟨.rightParen, ")", none, 1⟩,
      ⟨.equal, "=", none, 2⟩, ⟨.nilWord, "nil", none, 2⟩, ⟨.semicolon, ";", none, 2⟩]
    let operand : Diagnostic := .atToken .parse ⟨.semicolon, ";", none, 2⟩ "Expect expression."
    let target : Diagnostic :=
      .atToken .parse ⟨.equal, "=", none, 2⟩ "Invalid assignment target."
    (Program.ofTokens missing = .error operand ∧
      ∃ i token, (Token.cut missing)[i]? = some token ∧
        operand = .atToken .parse token operand.message ∧
        (∃ sentence, Relaxed sentence ∧ (Token.cut missing).take i <+: sentence) ∧
        ∀ sentence, Relaxed sentence → ¬(Token.cut missing).take (i + 1) <+: sentence) ∧
      Program.ofTokens grouped = .error target ∧
      ∃ before left equals right rest,
        Token.body grouped = before ++ left ++ equals :: right ++ rest ∧
        target = .atToken .parse equals target.message ∧ Leads before ∧
        Untargeted left equals right rest := by
  intro missing grouped operand target
  have hmissing : Program.ofTokens missing = .error operand := by rfl
  have hgrouped : Program.ofTokens grouped = .error target := by rfl
  refine ⟨⟨hmissing, ?_⟩, hgrouped, ?_⟩
  · exact (ofTokens_first_fault hmissing (by decide)).1 (by decide)
  · exact (ofTokens_first_fault hgrouped (by decide)).2 rfl

end Grammar

end Scriptlet
