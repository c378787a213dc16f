import Scriptlet.Program.Reading
import Scriptlet.Proofs.Grammar.Rules
import Scriptlet.Proofs.Program.Tokens

/-!
# Rules point at the tokens they read

A rule that reads part of some tokens leaves a later part of them. The tokens that it keeps in a
tree and the token that it blames for a fault are among them. As a postcondition of rules this
passes through sequences and loops; the only fault that does not stand at the next token is the one
at an equals sign taken before.
-/

namespace Scriptlet

namespace Rule

variable {α β : Type} {base : List Token}

/-- Reading within the tokens `base`, a rule stays within them, gives back what `Good` allows, and
blames one of them if it fails. -/
def Within (base : List Token) (r : Rule α) (Good : α → Prop) : Prop :=
  ∀ s, s <:+ base → match r s with
    | .ok a t => t <:+ s ∧ Good a
    | .error fault t => t <:+ s ∧ ∀ site ∈ fault.site, site ∈ base

theorem Within.of_eq_ok {r : Rule α} {Good : α → Prop} (h : Within base r Good)
    {s t : List Token} {a : α} (hs : s <:+ base) (hr : r s = .ok a t) : t <:+ s ∧ Good a := by
  have := h s hs
  rwa [hr] at this

theorem Within.of_eq_error {r : Rule α} {Good : α → Prop} (h : Within base r Good)
    {s t : List Token} {fault : SyntaxFault} (hs : s <:+ base) (hr : r s = .error fault t) :
    t <:+ s ∧ ∀ site ∈ fault.site, site ∈ base := by
  have := h s hs
  rwa [hr] at this

theorem within_pure {Good : α → Prop} {a : α} (h : Good a) : Within base (pure a) Good :=
  fun s _ => ⟨List.suffix_refl s, h⟩

/-- The token that a failing rule blames is the next one, if there is one. -/
theorem within_fail {Good : α → Prop} (cause : SyntaxFault.Cause) :
    Within base (fail cause) Good := by
  intro s hs
  refine ⟨List.suffix_refl s, fun site hsite => ?_⟩
  exact hs.subset (List.mem_of_mem_head? hsite)

theorem within_throw {Good : α → Prop} {cause : SyntaxFault.Cause} {site : Token}
    (h : site ∈ base) : Within base (throw ⟨cause, some site⟩) Good := by
  intro s _
  refine ⟨List.suffix_refl s, fun site' hsite => ?_⟩
  cases hsite
  exact h

/-- The second rule reads a later part of what the first one read, so both stay within the same
tokens. -/
theorem Within.bind {r : Rule α} {next : α → Rule β} {Good : α → Prop} {Good' : β → Prop}
    (hr : Within base r Good) (hnext : ∀ a, Good a → Within base (next a) Good') :
    Within base (r >>= next) Good' := by
  intro s hs
  rw [bind_apply]
  cases hrs : r s with
  | error fault t => exact hr.of_eq_error hs hrs
  | ok a t =>
    obtain ⟨ht, ha⟩ := hr.of_eq_ok hs hrs
    have hnext' := hnext a ha t (ht.trans hs)
    simp only
    cases hat : next a t with
    | ok b u =>
      rw [hat] at hnext'
      exact ⟨hnext'.1.trans ht, hnext'.2⟩
    | error fault u =>
      rw [hat] at hnext'
      exact ⟨hnext'.1.trans ht, hnext'.2⟩

theorem within_get : Within base get (· <:+ base) := fun s hs => ⟨List.suffix_refl s, hs⟩

theorem within_next? : Within base next? fun _ => True := fun s _ => ⟨List.suffix_refl s, trivial⟩

theorem within_accept? (kinds : List Token.Kind) :
    Within base (accept? kinds) fun found => ∀ t ∈ found, t ∈ base := by
  intro s hs
  obtain ⟨t, u, rfl, -, he⟩ | ⟨-, he⟩ := accept?_cases kinds s
  · rw [he]
    refine ⟨List.suffix_cons t u, fun t' ht' => ?_⟩
    cases ht'
    exact hs.subset List.mem_cons_self
  · rw [he]
    exact ⟨List.suffix_refl s, by simp⟩

theorem within_expect (kind : Token.Kind) (cause : SyntaxFault.Cause) :
    Within base (expect kind cause) (· ∈ base) := by
  refine (within_accept? [kind]).bind fun found hfound => ?_
  cases found with
  | none => exact within_fail cause
  | some t => exact within_pure (hfound t rfl)

/-- Operators are kept in the tree with their operands. -/
theorem within_chainBounded {operators : List Token.Kind} {operand : Rule Expr}
    (hoperand : Within base operand (·.tokens ⊆ base)) (bound : Nat) {left : Expr}
    (hleft : left.tokens ⊆ base) :
    Within base (chainBounded operators operand bound left) (·.tokens ⊆ base) := by
  induction bound generalizing left with
  | zero => exact within_pure hleft
  | succ bound ih =>
    refine (within_accept? operators).bind fun found hfound => ?_
    cases found with
    | none => exact within_pure hleft
    | some operator =>
      refine hoperand.bind fun right hright => ih ?_
      exact List.append_subset.2 ⟨hleft, List.cons_subset.2 ⟨hfound operator rfl, hright⟩⟩

theorem within_chain {operators : List Token.Kind} {operand : Rule Expr}
    (hoperand : Within base operand (·.tokens ⊆ base)) :
    Within base (chain operators operand) (·.tokens ⊆ base) :=
  hoperand.bind fun _ hleft => within_get.bind fun tokens _ =>
    within_chainBounded hoperand tokens.length hleft

/-- The phrases are read one after the other, each within what the one before it left. -/
theorem within_manyBounded {stop : Token.Kind} {phrase : Rule Stmt}
    (hphrase : Within base phrase (·.tokens ⊆ base)) (bound : Nat) :
    Within base (manyBounded stop phrase bound) (Program.tokens · ⊆ base) := by
  induction bound with
  | zero => exact within_pure (List.nil_subset _)
  | succ bound ih =>
    refine within_next?.bind fun kind _ => ?_
    cases kind with
    | none => exact within_pure (List.nil_subset _)
    | some kind =>
      simp only
      split
      · exact within_pure (List.nil_subset _)
      · exact hphrase.bind fun first hfirst => ih.bind fun rest hrest =>
          within_pure (List.append_subset.2 ⟨hfirst, hrest⟩)

theorem within_many {stop : Token.Kind} {phrase : Rule Stmt}
    (hphrase : Within base phrase (·.tokens ⊆ base)) :
    Within base (many stop phrase) (Program.tokens · ⊆ base) :=
  within_get.bind fun tokens _ => within_manyBounded hphrase tokens.length

end Rule

namespace Grammar

open Rule

variable {base : List Token}

theorem within_exhausted {α : Type} {Good : α → Prop} :
    Within base (exhausted : Rule α) Good :=
  within_fail .shallowerNesting

section Levels

variable {levels : Nat}

/-- The equals sign was taken, and is among the tokens although it is no longer ahead when it is
blamed. -/
theorem within_assignment (hequality : Within base (Grammar.equality levels) (·.tokens ⊆ base))
    (hassignment : Within base (Grammar.assignment levels) (·.tokens ⊆ base)) :
    Within base (Grammar.assignment (levels + 1)) (·.tokens ⊆ base) := by
  refine hequality.bind fun left hleft => (within_accept? [.equal]).bind fun found hfound => ?_
  cases found with
  | none => exact within_pure hleft
  | some equals =>
    refine hassignment.bind fun value hvalue => ?_
    cases left with
    | read name => exact within_pure (List.cons_subset.2 ⟨hleft List.mem_cons_self, hvalue⟩)
    | _ => exact within_throw (hfound equals rfl)

theorem within_unary (hunary : Within base (Grammar.unary levels) (·.tokens ⊆ base))
    (hprimary : Within base (Grammar.primary levels) (·.tokens ⊆ base)) :
    Within base (Grammar.unary (levels + 1)) (·.tokens ⊆ base) := by
  refine (within_accept? unaryOperators).bind fun found hfound => ?_
  cases found with
  | none => exact hprimary
  | some operator =>
    exact hunary.bind fun right hright =>
      within_pure (List.cons_subset.2 ⟨hfound operator rfl, hright⟩)

theorem within_primary (hexpression : Within base (Grammar.expression levels) (·.tokens ⊆ base)) :
    Within base (Grammar.primary (levels + 1)) (·.tokens ⊆ base) := by
  refine (within_accept? primaryStarts).bind fun found hfound => ?_
  cases found with
  | none => exact within_fail .expression
  | some token =>
    simp only
    cases token.kind
    case identifier =>
      exact within_pure (List.cons_subset.2 ⟨hfound token rfl, List.nil_subset _⟩)
    case leftParen =>
      exact hexpression.bind fun inner hinner =>
        (within_expect .rightParen .parenthesisAfterExpression).bind fun _ _ => within_pure hinner
    all_goals exact within_pure (List.nil_subset _)

end Levels

/-- All rules for expressions at once, by induction on the levels. -/
theorem ExprSymbol.within (symbol : ExprSymbol) (levels : Nat) :
    Within base (symbol.rule levels) (·.tokens ⊆ base) := by
  induction levels using Nat.strongRecOn generalizing symbol with
  | ind levels ih =>
    cases levels with
    | zero =>
      rw [symbol.rule_zero]
      exact within_exhausted
    | succ levels =>
      have ih' := fun symbol => ih levels (by omega) symbol
      cases symbol with
      | expression => exact ih' .assignment
      | assignment => exact within_assignment (ih' (.chain .equality)) (ih' .assignment)
      | unary => exact within_unary (ih' .unary) (ih' .primary)
      | primary => exact within_primary (ih' .expression)
      | chain c =>
        cases levels with
        | zero =>
          change Within base (c.rule 1) _
          rw [c.rule_one]
          exact within_exhausted
        | succ levels =>
          change Within base (c.rule (levels + 2)) _
          rw [c.rule_add_two]
          exact within_chain (ih levels (by omega) c.operand)

section Statements

variable (levels : Nat)

theorem within_expressionStatement :
    Within base (expressionStatement levels) (·.tokens ⊆ base) := by
  cases levels with
  | zero => exact within_exhausted
  | succ levels =>
    exact (ExprSymbol.expression.within levels).bind fun value hvalue =>
      (within_expect .semicolon .semicolonAfterExpression).bind fun _ _ => within_pure hvalue

theorem within_printStatement : Within base (printStatement levels) (·.tokens ⊆ base) := by
  cases levels with
  | zero => exact within_exhausted
  | succ levels =>
    exact (ExprSymbol.expression.within levels).bind fun value hvalue =>
      (within_expect .semicolon .semicolonAfterValue).bind fun _ _ => within_pure hvalue

theorem within_varDeclaration : Within base (varDeclaration levels) (·.tokens ⊆ base) := by
  cases levels with
  | zero => exact within_exhausted
  | succ levels =>
    refine (within_expect .identifier .variableName).bind fun name hname =>
      (within_accept? [.equal]).bind fun found _ => ?_
    cases found with
    | none =>
      exact (within_expect .semicolon .semicolonAfterDeclaration).bind fun _ _ =>
        within_pure (List.cons_subset.2 ⟨hname, List.nil_subset _⟩)
    | some equals =>
      exact (ExprSymbol.expression.within levels).bind fun initial hinitial =>
        (within_expect .semicolon .semicolonAfterDeclaration).bind fun _ _ =>
          within_pure (List.cons_subset.2 ⟨hname, hinitial⟩)

/-- Declarations, statements and blocks open one another, and are proved together. -/
theorem within_statements :
    Within base (declaration levels) (·.tokens ⊆ base) ∧
      Within base (statement levels) (·.tokens ⊆ base) ∧
      Within base (block levels) (Program.tokens · ⊆ base) := by
  induction levels with
  | zero => exact ⟨within_exhausted, within_exhausted, within_exhausted⟩
  | succ levels ih =>
    obtain ⟨hdeclaration, hstatement, hblock⟩ := ih
    refine ⟨?_, ?_, ?_⟩
    · refine (within_accept? [.varWord]).bind fun found _ => ?_
      cases found with
      | none => exact hstatement
      | some word => exact within_varDeclaration levels
    · refine (within_accept? [.printWord, .leftBrace]).bind fun found _ => ?_
      cases found with
      | none => exact within_expressionStatement levels
      | some token =>
        simp only
        split
        · exact within_printStatement levels
        · exact hblock.bind fun body hbody => within_pure hbody
    · exact (within_many hdeclaration).bind fun body hbody =>
        (within_expect .rightBrace .braceAfterBlock).bind fun _ _ => within_pure hbody

theorem within_program : Within base (program levels) (Program.tokens · ⊆ base) := by
  cases levels with
  | zero => exact within_exhausted
  | succ levels => exact within_many (within_statements levels).1

end Statements

end Grammar

/-! ## Reading tokens -/

/-- Every token in a program's tree is one that was read, label and all. -/
theorem Program.tokens_subset_of_ofTokens {tokens : List Token} {body : Program}
    (h : Program.ofTokens tokens = .ok body) : Program.tokens body ⊆ tokens := by
  unfold Program.ofTokens Grammar.read at h
  cases hread : Grammar.program Nesting.reading (Token.body tokens) with
  | error fault t => simp [hread] at h
  | ok found t =>
    simp only [hread, Except.ok.injEq] at h
    subst h
    have hwithin := (Grammar.within_program Nesting.reading).of_eq_ok (List.suffix_refl _) hread
    exact List.Subset.trans hwithin.2 (List.takeWhile_subset _)

/-- A syntax fault stands at one of the tokens, or at the mark that ends them. -/
theorem Program.eq_atToken_of_ofTokens {tokens : List Token} {d : Diagnostic}
    (h : Program.ofTokens tokens = .error d) :
    ∃ site message, (site ∈ tokens ∨ site = Token.endMark tokens) ∧
      d = .atToken .parse site message := by
  unfold Program.ofTokens Grammar.read at h
  cases hread : Grammar.program Nesting.reading (Token.body tokens) with
  | ok found t => simp [hread] at h
  | error fault t =>
    simp only [hread, Except.error.injEq] at h
    have hwithin := (Grammar.within_program Nesting.reading).of_eq_error (List.suffix_refl _) hread
    refine ⟨fault.site.getD (Token.endMark tokens), fault.cause.message, ?_, h.symm⟩
    cases hsite : fault.site with
    | none => exact .inr rfl
    | some site => exact .inl (List.takeWhile_subset _ (hwithin.2 site hsite))

end Scriptlet
