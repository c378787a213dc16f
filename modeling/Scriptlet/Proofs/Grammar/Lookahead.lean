import Scriptlet.Proofs.Grammar.Completeness

/-!
# One token ahead

A rule looks at the tokens that it takes and at the first token that it leaves, and at nothing after
that. So its answer stays the same, also if it is a failure, for any other tokens that start with the
ones it took and the one it looked at (`Rule.Local`).

It looks at the token it leaves for a reason: no expression ends before a token that would continue it.
-/

namespace Scriptlet

namespace Rule

variable {α β : Type}

/-- What is left of the tokens after an answer. -/
def left : EStateM.Result SyntaxFault (List Token) α → List Token
  | .ok _ t => t
  | .error _ t => t

def leaving (t : List Token) :
    EStateM.Result SyntaxFault (List Token) α → EStateM.Result SyntaxFault (List Token) α
  | .ok a _ => .ok a t
  | .error fault _ => .error fault t

/-- A rule takes tokens off the front, and its answer depends on those and on the next token only. -/
def Local (r : Rule α) : Prop :=
  ∀ s, ∃ used, s = used ++ left (r s) ∧
    ∀ t, t.head? = (left (r s)).head? → r (used ++ t) = leaving t (r s)

/-! ## Rules out of rules -/

/-- Rules that take nothing are local if they look at the next token only. -/
theorem local_of_head {r : Rule α} (h : ∀ s, left (r s) = s)
    (hhead : ∀ s t, t.head? = s.head? → r t = leaving t (r s)) : Local r := by
  intro s
  refine ⟨[], ?_, ?_⟩
  · rw [h, List.nil_append]
  · intro t ht
    rw [h] at ht
    exact hhead s t ht

theorem local_pure (a : α) : Local (pure a : Rule α) :=
  local_of_head (fun _ => rfl) fun _ _ _ => rfl

theorem local_throw (fault : SyntaxFault) : Local (throw fault : Rule α) :=
  local_of_head (fun _ => rfl) fun _ _ _ => rfl

theorem local_fail (cause : SyntaxFault.Cause) : Local (fail cause : Rule α) := by
  refine local_of_head (fun _ => rfl) ?_
  intro s t ht
  rw [fail_apply, fail_apply, ht]
  rfl

theorem local_next? : Local next? := by
  refine local_of_head (fun _ => rfl) ?_
  intro s t ht
  rw [next?_apply, next?_apply, ht]
  rfl

/-- Whether a token is taken depends on its kind, and then the rest is left unseen. -/
theorem local_accept? (kinds : List Token.Kind) : Local (accept? kinds) := by
  intro s
  obtain ⟨token, u, rfl, hkind, he⟩ | ⟨hstops, he⟩ := accept?_cases kinds s
  · rw [he]
    exact ⟨[token], rfl, fun t _ => accept?_of_mem hkind⟩
  · rw [he]
    refine ⟨[], rfl, ?_⟩
    intro t ht
    have hstops' : Stops kinds t := by
      unfold Stops
      rw [show t.head? = s.head? from ht]
      exact hstops
    exact accept?_of_stops hstops'

/-- The token that the first rule looked at is the first one that the second rule sees, so two rules
in sequence look no further than the second one does. -/
theorem Local.bind {r : Rule α} {next : α → Rule β} (hr : Local r)
    (hnext : ∀ a, Local (next a)) : Local (r >>= next) := by
  intro s
  obtain ⟨used, hs, hsame⟩ := hr s
  rw [bind_apply]
  cases hrs : r s with
  | error fault t =>
    rw [hrs] at hs hsame
    refine ⟨used, hs, ?_⟩
    intro t' ht'
    rw [bind_apply, hsame t' ht']
    rfl
  | ok a t =>
    rw [hrs] at hs hsame
    obtain ⟨more, ht, hsame'⟩ := hnext a t
    refine ⟨used ++ more, ?_, ?_⟩
    · rw [List.append_assoc, ← ht]
      exact hs
    · intro t' ht'
      -- The first rule looks at the first token that the second one takes or looks at.
      have hhead : (more ++ t').head? = t.head? := by
        rw [congrArg List.head? ht, List.head?_append, List.head?_append, ht']
      rw [List.append_assoc, bind_of_ok (hsame (more ++ t') hhead)]
      exact hsame' t' ht'

theorem local_expect (kind : Token.Kind) (cause : SyntaxFault.Cause) :
    Local (expect kind cause) := by
  refine (local_accept? [kind]).bind fun found => ?_
  cases found with
  | none => exact local_fail cause
  | some token => exact local_pure token

/-- A loop that is bounded by the number of tokens ahead does not look at that number. -/
theorem local_bounded {loop : Nat → Rule α} (hlocal : ∀ bound, Local (loop bound))
    (hcongr : ∀ {m n : Nat} {s : List Token}, s.length ≤ m → s.length ≤ n →
      loop m s = loop n s) :
    Local (get >>= fun tokens => loop tokens.length) := by
  intro s
  obtain ⟨used, hs, -⟩ := hlocal s.length s
  refine ⟨used, hs, ?_⟩
  intro t ht
  -- Both token lists fit into the greater of the two bounds.
  have hbound {u : List Token} (hu : u.length ≤ max s.length (used ++ t).length) :
      loop u.length u = loop (max s.length (used ++ t).length) u :=
    hcongr (Nat.le_refl _) hu
  obtain ⟨used', hs', hsame⟩ := hlocal (max s.length (used ++ t).length) s
  change t.head? = (left (loop s.length s)).head? at ht
  change loop (used ++ t).length (used ++ t) = leaving t (loop s.length s)
  rw [hbound (Nat.le_max_left ..)] at ht hs ⊢
  rw [hbound (Nat.le_max_right ..)]
  obtain rfl : used' = used := List.append_cancel_right (hs'.symm.trans hs)
  exact hsame t ht

theorem local_chainBounded {operators : List Token.Kind} {operand : Rule Expr}
    (hoperand : Local operand) (bound : Nat) (left : Expr) :
    Local (chainBounded operators operand bound left) := by
  induction bound generalizing left with
  | zero => exact local_pure left
  | succ bound ih =>
    refine (local_accept? operators).bind fun found => ?_
    cases found with
    | none => exact local_pure left
    | some operator => exact hoperand.bind fun right => ih _

theorem local_chain {operators : List Token.Kind} {operand : Rule Expr}
    {Made : List Token → Expr → Prop} (hlocal : Local operand) (hsound : Sound operand Made) :
    Local (chain operators operand) :=
  hlocal.bind fun left => local_bounded (fun bound => local_chainBounded hlocal bound left)
    (chainBounded_congr hsound)

/-- The loop looks at the next token before every phrase, and leaves it where the phrases end. -/
theorem local_manyBounded {phrase : Rule α} (hphrase : Local phrase) (stop : Token.Kind)
    (bound : Nat) : Local (manyBounded stop phrase bound) := by
  induction bound with
  | zero => exact local_pure []
  | succ bound ih =>
    refine local_next?.bind fun kind => ?_
    cases kind with
    | none => exact local_pure []
    | some kind =>
      simp only
      split
      · exact local_pure []
      · exact hphrase.bind fun first => ih.bind fun rest => local_pure (first :: rest)

theorem local_many {phrase : Rule α} {Made : List Token → α → Prop} (stop : Token.Kind)
    (hlocal : Local phrase) (hsound : Sound phrase Made)
    (hpos : ∀ {us : List Token} {a : α}, Made us a → 0 < us.length) :
    Local (many stop phrase) :=
  local_bounded (local_manyBounded hlocal stop) (manyBounded_congr hsound hpos)

end Rule

namespace Grammar

open Rule

/-! ## The rules of the grammar -/

theorem local_exhausted {α : Type} : Local (exhausted : Rule α) := local_fail .shallowerNesting

section Levels

variable {levels : Nat}

theorem local_assignment (hequality : Local (Grammar.equality levels))
    (hassignment : Local (Grammar.assignment levels)) : Local (Grammar.assignment (levels + 1)) := by
  refine hequality.bind fun left => (local_accept? [.equal]).bind fun found => ?_
  cases found with
  | none => exact local_pure left
  | some equals =>
    refine hassignment.bind fun value => ?_
    cases left with
    | read name => exact local_pure _
    | _ => exact local_throw _

theorem local_unary (hunary : Local (Grammar.unary levels))
    (hprimary : Local (Grammar.primary levels)) : Local (Grammar.unary (levels + 1)) := by
  refine (local_accept? unaryOperators).bind fun found => ?_
  cases found with
  | none => exact hprimary
  | some operator => exact hunary.bind fun right => local_pure _

theorem local_primary (hexpression : Local (Grammar.expression levels)) :
    Local (Grammar.primary (levels + 1)) := by
  refine (local_accept? primaryStarts).bind fun found => ?_
  cases found with
  | none => exact local_fail .expression
  | some token =>
    simp only
    cases token.kind
    case leftParen =>
      exact hexpression.bind fun inner => (local_expect _ _).bind fun _ => local_pure _
    all_goals exact local_pure _

end Levels

theorem ExprSymbol.localRule (symbol : ExprSymbol) (levels : Nat) : Local (symbol.rule levels) := by
  induction levels using Nat.strongRecOn generalizing symbol with
  | ind levels ih =>
    cases levels with
    | zero =>
      rw [symbol.rule_zero]
      exact local_exhausted
    | succ levels =>
      have ih' := fun symbol => ih levels (by omega) symbol
      cases symbol with
      | expression => exact ih' .assignment
      | assignment => exact local_assignment (ih' (.chain .equality)) (ih' .assignment)
      | unary => exact local_unary (ih' .unary) (ih' .primary)
      | primary => exact local_primary (ih' .expression)
      | chain c =>
        cases levels with
        | zero =>
          change Local (c.rule 1)
          rw [c.rule_one]
          exact local_exhausted
        | succ levels =>
          change Local (c.rule (levels + 2))
          rw [c.rule_add_two]
          exact local_chain (ih levels (by omega) c.operand) (c.operand.sound levels)

section Statements

variable (levels : Nat)

theorem local_expressionStatement : Local (expressionStatement levels) := by
  cases levels with
  | zero => exact local_exhausted
  | succ levels =>
    exact (ExprSymbol.expression.localRule levels).bind fun value =>
      (local_expect _ _).bind fun _ => local_pure _

theorem local_printStatement : Local (printStatement levels) := by
  cases levels with
  | zero => exact local_exhausted
  | succ levels =>
    exact (ExprSymbol.expression.localRule levels).bind fun value =>
      (local_expect _ _).bind fun _ => local_pure _

theorem local_varDeclaration : Local (varDeclaration levels) := by
  cases levels with
  | zero => exact local_exhausted
  | succ levels =>
    refine (local_expect _ _).bind fun name => (local_accept? [.equal]).bind fun found => ?_
    cases found with
    | none => exact (local_expect _ _).bind fun _ => local_pure _
    | some equals =>
      exact (ExprSymbol.expression.localRule levels).bind fun initial =>
        (local_expect _ _).bind fun _ => local_pure _

theorem local_statements :
    Local (declaration levels) ∧ Local (statement levels) ∧ Local (block levels) := by
  induction levels with
  | zero => exact ⟨local_exhausted, local_exhausted, local_exhausted⟩
  | succ levels ih =>
    obtain ⟨hdeclaration, hstatement, hblock⟩ := ih
    refine ⟨?_, ?_, ?_⟩
    · refine (local_accept? [.varWord]).bind fun found => ?_
      cases found with
      | none => exact hstatement
      | some word => exact local_varDeclaration levels
    · refine (local_accept? [.printWord, .leftBrace]).bind fun found => ?_
      cases found with
      | none => exact local_expressionStatement levels
      | some token =>
        simp only
        split
        · exact local_printStatement levels
        · exact hblock.bind fun body => local_pure _
    · exact (local_many .rightBrace hdeclaration (sound_statements levels).1
        DerivesStmt.length_pos).bind fun body => (local_expect _ _).bind fun _ => local_pure body

/-- A program is read to its end, and a fault in it depends on nothing after the token that is
looked at. -/
theorem local_program : Local (program levels) := by
  cases levels with
  | zero => exact local_exhausted
  | succ levels =>
    exact local_many .eof (local_statements levels).1 (sound_statements levels).1
      DerivesStmt.length_pos

end Statements

end Grammar

/-! ## What expressions end before -/

namespace Rule

variable {α : Type}

theorem stops_append {kinds more : List Token.Kind} {s : List Token} (h : Stops kinds s)
    (hmore : Stops more s) : Stops (kinds ++ more) s := by
  intro t ht hkind
  rcases List.mem_append.1 hkind with hkind | hkind
  · exact h t ht hkind
  · exact hmore t ht hkind

/-- A rule that succeeds has none of these kinds of token before it. -/
def Halts (r : Rule α) (kinds : List Token.Kind) : Prop :=
  ∀ ⦃s t : List Token⦄ ⦃a : α⦄, r s = .ok a t → Stops kinds t

theorem halts_exhausted {kinds : List Token.Kind} : Halts (Grammar.exhausted : Rule α) kinds := by
  intro s t a h
  cases h

/-- The loop ends before a token that is none of its operators, and the last operand ended before
one that does not continue it. -/
theorem stops_chainBounded {operators kinds : List Token.Kind} {operand : Rule Expr}
    {Made : List Token → Expr → Prop} (hsound : Sound operand Made) (hoperand : Halts operand kinds)
    {bound : Nat} {left e : Expr} {s t : List Token} (hbound : s.length ≤ bound)
    (hleft : Stops kinds s) (h : chainBounded operators operand bound left s = .ok e t) :
    Stops (operators ++ kinds) t := by
  induction bound generalizing left s with
  | zero =>
    obtain rfl : s = [] := List.length_eq_zero_iff.1 (by omega)
    cases h
    exact stops_nil _
  | succ bound ih =>
    simp only [chainBounded] at h
    rw [bind_eq_ok] at h
    obtain ⟨found, u, hfound, h⟩ := h
    cases found with
    | none =>
      obtain ⟨rfl, hstops⟩ := accept?_eq_none hfound
      cases h
      exact stops_append hstops hleft
    | some operator =>
      obtain ⟨rfl, -⟩ := accept?_eq_some hfound
      rw [bind_eq_ok] at h
      obtain ⟨right, v, hright, h⟩ := h
      have hlength : v.length ≤ bound := by
        obtain ⟨vs, rfl, -⟩ := hsound hright
        simp only [List.length_cons, List.length_append] at hbound
        omega
      exact ih hlength (hoperand hright) h

theorem halts_chain {operators kinds : List Token.Kind} {operand : Rule Expr}
    {Made : List Token → Expr → Prop} (hsound : Sound operand Made)
    (hoperand : Halts operand kinds) : Halts (chain operators operand) (operators ++ kinds) := by
  intro s t e h
  unfold chain at h
  rw [bind_eq_ok] at h
  obtain ⟨left, u, hleft, h⟩ := h
  exact stops_chainBounded hsound hoperand (Nat.le_refl _) (hoperand hleft) h

end Rule

namespace Grammar

open Rule

/-- After the value of an assignment or after an equality without an equals sign. -/
theorem halts_assignment {levels : Nat}
    (hequality : Halts (Grammar.equality levels) (ExprSymbol.chain .equality).extenders)
    (hassignment : Halts (Grammar.assignment levels) ExprSymbol.assignment.extenders) :
    Halts (Grammar.assignment (levels + 1)) ExprSymbol.assignment.extenders := by
  intro s t e h
  simp only [Grammar.assignment] at h
  rw [bind_eq_ok] at h
  obtain ⟨left, u, hleft, h⟩ := h
  rw [bind_eq_ok] at h
  obtain ⟨found, v, hfound, h⟩ := h
  cases found with
  | none =>
    obtain ⟨rfl, hstops⟩ := accept?_eq_none hfound
    cases h
    exact stops_append hstops (hequality hleft)
  | some equals =>
    rw [bind_eq_ok] at h
    obtain ⟨value, w, hvalue, h⟩ := h
    have hw := hassignment hvalue
    cases left with
    | read name =>
      cases h
      exact hw
    | _ => cases h

/-- An expression does not end before a token that would continue it. -/
theorem ExprSymbol.halts (symbol : ExprSymbol) (levels : Nat) :
    Halts (symbol.rule levels) symbol.extenders := by
  induction levels using Nat.strongRecOn generalizing symbol with
  | ind levels ih =>
    cases levels with
    | zero =>
      rw [symbol.rule_zero]
      exact halts_exhausted
    | succ levels =>
      have ih' := fun symbol => ih levels (by omega) symbol
      cases symbol with
      | expression =>
        intro s t e h
        exact ih' .assignment h
      | assignment => exact halts_assignment (ih' (.chain .equality)) (ih' .assignment)
      | unary => exact fun _ t _ _ _ _ => List.not_mem_nil
      | primary => exact fun _ t _ _ _ _ => List.not_mem_nil
      | chain c =>
        cases levels with
        | zero =>
          change Halts (c.rule 1) _
          rw [c.rule_one]
          exact halts_exhausted
        | succ levels =>
          change Halts (c.rule (levels + 2)) c.extenders
          rw [c.rule_add_two, c.extenders_eq]
          exact halts_chain (c.operand.sound levels) (ih levels (by omega) c.operand)

end Grammar

end Scriptlet
