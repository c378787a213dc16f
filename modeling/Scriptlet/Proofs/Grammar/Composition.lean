import Scriptlet.Proofs.Grammar.Completeness

/-!
# Reading tokens in two pieces

Where the first tokens make up a program on their own, reading goes on after them as if it started
there. Levels are the only thing that could tell the difference, so this is shown with enough of them
and carried over to any number that suffices.
-/

namespace Scriptlet

namespace Grammar

open Rule

variable {f : Token → Token} {ts us vs : List Token} {body : Program}

theorem Derives.reads_append (h : Derives ts body) :
    ∃ n, ∀ m, n ≤ m → ∀ rest, program m (ts ++ rest) = ((body ++ ·) <$> program m) rest := by
  obtain ⟨n, h⟩ := DerivesAll.reads h
  refine ⟨n + 1, fun m hm rest => ?_⟩
  obtain ⟨m, rfl⟩ : ∃ k, m = k + 1 := ⟨m - 1, by omega⟩
  exact h m (by omega) .eof (by simp) rest

/-- What is read after a program, under other labels, is what is read without it. -/
theorem program_append (hf : Unread f) (hbody : Derives ts body)
    (hrest : ¬Exhausted (program Nesting.reading us))
    (hwhole : ¬Exhausted (program Nesting.reading (ts ++ us.map f))) :
    program Nesting.reading (ts ++ us.map f) =
      relabel f (fun rest => body ++ Program.mapTokens f rest) (program Nesting.reading us) := by
  -- The first tokens derive their program, which says how they are read with some number of levels
  -- but not with the given one. Both readings are moved up to a number that suffices for all.
  obtain ⟨n, hn⟩ := hbody.reads_append
  have hmore := Nat.le_max_left Nesting.reading n
  have hsame := (program_eq_or_exhausted hmore (ts ++ us.map f)).resolve_left hwhole
  have hmoved := (refines_program hf hmore us).resolve_left hrest
  rw [← hsame, hn _ (Nat.le_max_right ..), map_apply, hmoved]
  cases program Nesting.reading us with
  | ok rest t => rfl
  | error fault t => rfl

end Grammar

namespace Program

open Grammar Rule

variable {f : Token → Token} {ts us vs : List Token} {body : Program}

/-- Want of levels is the one fault with its message. -/
theorem not_exhausted_of_ofTokens
    (h : ∀ d, ofTokens ts = .error d → d.message ≠ Diagnostic.nestedTooDeeply) :
    ¬Exhausted (program Nesting.reading (Token.body ts)) := by
  intro hout
  obtain ⟨d, hd, -, hmessage⟩ := ofTokens_of_exhausted hout
  exact h d hd hmessage

/-- A program before other tokens is read before what they make up, and does not change what is
wrong with them. -/
theorem ofTokens_append (hf : Unread f)
    (hbody : Token.body vs = Token.body ts ++ (Token.body us).map f)
    (hmark : Token.endMark vs = f (Token.endMark us)) (hread : ofTokens ts = .ok body)
    (hrest : ∀ d, ofTokens us = .error d → d.message ≠ Diagnostic.nestedTooDeeply)
    (hwhole : ∀ d, ofTokens vs = .error d → d.message ≠ Diagnostic.nestedTooDeeply) :
    (∃ rest, ofTokens us = .ok rest ∧ ofTokens vs = .ok (body ++ mapTokens f rest)) ∨
      ∃ site message, ofTokens us = .error (.atToken .parse site message) ∧
        ofTokens vs = .error (.atToken .parse (f site) message) := by
  have hsame := program_append hf (derives_of_ofTokens hread) (not_exhausted_of_ofTokens hrest)
    (hbody ▸ not_exhausted_of_ofTokens hwhole)
  rw [← hbody] at hsame
  unfold ofTokens Grammar.read
  rw [hsame]
  cases program Nesting.reading (Token.body us) with
  | ok rest t => exact .inl ⟨rest, rfl, rfl⟩
  | error fault t =>
    refine .inr ⟨fault.site.getD (Token.endMark us), fault.cause.message, rfl, ?_⟩
    simp only [relabel, SyntaxFault.diagnostic, hmark]
    cases fault.site <;> rfl

end Program

end Scriptlet
