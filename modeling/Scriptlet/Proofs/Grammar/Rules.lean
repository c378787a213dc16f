import Scriptlet.Program.Grammar
import Scriptlet.Proofs.Grammar.Derivation

/-!
# Laws of rules

How rules act on the tokens ahead, for proofs that never look at the state monad again: when a
sequence of rules succeeds, what `accept?` and `expect` take, and which rule reads which symbol.
-/

namespace Scriptlet

namespace Rule

variable {α β : Type}

/-! ## Sequences of rules -/

theorem bind_apply (r : Rule α) (next : α → Rule β) (s : List Token) :
    (r >>= next) s = match r s with
      | .ok a t => next a t
      | .error fault t => .error fault t := by
  change EStateM.bind r next s = _
  unfold EStateM.bind
  cases r s <;> rfl

/-- A sequence succeeds where its first rule succeeds and its second goes on from there. -/
theorem bind_eq_ok {r : Rule α} {next : α → Rule β} {s u : List Token} {b : β} :
    (r >>= next) s = .ok b u ↔ ∃ a t, r s = .ok a t ∧ next a t = .ok b u := by
  rw [bind_apply]
  cases r s with
  | ok a t =>
    constructor
    · intro h
      exact ⟨a, t, rfl, h⟩
    · rintro ⟨a', t', he, h⟩
      cases he
      exact h
  | error fault t => simp

/-- A sequence fails where its first rule fails, or its second one does from where the first ended. -/
theorem bind_eq_error {r : Rule α} {next : α → Rule β} {s u : List Token} {fault : SyntaxFault} :
    (r >>= next) s = .error fault u ↔
      r s = .error fault u ∨ ∃ a t, r s = .ok a t ∧ next a t = .error fault u := by
  rw [bind_apply]
  cases r s with
  | ok a t =>
    constructor
    · intro h
      exact .inr ⟨a, t, rfl, h⟩
    · rintro (he | ⟨a', t', he, h⟩)
      · cases he
      · cases he
        exact h
  | error fault t => simp

theorem bind_of_ok {r : Rule α} {next : α → Rule β} {s t : List Token} {a : α}
    (h : r s = .ok a t) : (r >>= next) s = next a t := by
  rw [bind_apply, h]

@[simp]
theorem pure_apply (a : α) (s : List Token) : (pure a : Rule α) s = .ok a s := rfl

@[simp]
theorem fail_apply (cause : SyntaxFault.Cause) (s : List Token) :
    (fail cause : Rule α) s = .error ⟨cause, s.head?⟩ s := rfl

@[simp]
theorem throw_apply (fault : SyntaxFault) (s : List Token) :
    (throw fault : Rule α) s = .error fault s := rfl

@[simp]
theorem get_apply (s : List Token) : (get : Rule (List Token)) s = .ok s s := rfl

@[simp]
theorem next?_apply (s : List Token) : next? s = .ok (s.head?.map (·.kind)) s := rfl

/-! ## Taking one token -/

/-- The next token, if there is one, is of none of these kinds. -/
def Stops (kinds : List Token.Kind) (s : List Token) : Prop := ∀ t ∈ s.head?, t.kind ∉ kinds

@[simp]
theorem stops_nil (kinds : List Token.Kind) : Stops kinds [] := by
  intro t h
  cases h

@[simp]
theorem stops_cons {kinds : List Token.Kind} {t : Token} {s : List Token} :
    Stops kinds (t :: s) ↔ t.kind ∉ kinds := by
  simp [Stops]

theorem Stops.mono {kinds more : List Token.Kind} {s : List Token} (h : Stops more s)
    (hsub : kinds ⊆ more) : Stops kinds s :=
  fun t ht hk => h t ht (hsub hk)

theorem accept?_of_mem {kinds : List Token.Kind} {t : Token} {s : List Token}
    (h : t.kind ∈ kinds) : accept? kinds (t :: s) = .ok (some t) s := by
  simp [accept?, h]

theorem accept?_of_stops {kinds : List Token.Kind} {s : List Token} (h : Stops kinds s) :
    accept? kinds s = .ok none s := by
  cases s with
  | nil => rfl
  | cons t s => simp [accept?, stops_cons.1 h]

/-- A token is taken off the front if its kind is asked for, and otherwise nothing is. -/
theorem accept?_cases (kinds : List Token.Kind) (s : List Token) :
    (∃ t u, s = t :: u ∧ t.kind ∈ kinds ∧ accept? kinds s = .ok (some t) u) ∨
      (Stops kinds s ∧ accept? kinds s = .ok none s) := by
  cases s with
  | nil => exact .inr ⟨stops_nil kinds, rfl⟩
  | cons t u =>
    by_cases h : t.kind ∈ kinds
    · exact .inl ⟨t, u, rfl, h, accept?_of_mem h⟩
    · exact .inr ⟨stops_cons.2 h, accept?_of_stops (stops_cons.2 h)⟩

theorem accept?_eq_some {kinds : List Token.Kind} {s u : List Token} {t : Token}
    (h : accept? kinds s = .ok (some t) u) : s = t :: u ∧ t.kind ∈ kinds := by
  obtain ⟨t', u', rfl, hk, he⟩ | ⟨-, he⟩ := accept?_cases kinds s
  · rw [he] at h
    cases h
    exact ⟨rfl, hk⟩
  · rw [he] at h
    cases h

theorem accept?_eq_none {kinds : List Token.Kind} {s u : List Token}
    (h : accept? kinds s = .ok none u) : u = s ∧ Stops kinds s := by
  obtain ⟨t', u', rfl, -, he⟩ | ⟨hs, he⟩ := accept?_cases kinds s
  · rw [he] at h
    cases h
  · rw [he] at h
    cases h
    exact ⟨rfl, hs⟩

/-- Taking a token or none never fails. -/
theorem accept?_ne_error {kinds : List Token.Kind} {s u : List Token} {fault : SyntaxFault} :
    accept? kinds s ≠ .error fault u := by
  intro h
  obtain ⟨t', u', rfl, -, he⟩ | ⟨-, he⟩ := accept?_cases kinds s
  · rw [he] at h
    cases h
  · rw [he] at h
    cases h

theorem expect_of_kind {kind : Token.Kind} {cause : SyntaxFault.Cause} {t : Token}
    {s : List Token} (h : t.kind = kind) : expect kind cause (t :: s) = .ok t s := by
  unfold expect
  rw [bind_of_ok (accept?_of_mem (by simp [h]))]
  rfl

/-- A token is expected in vain at any other token and at the end. -/
theorem expect_cases (kind : Token.Kind) (cause : SyntaxFault.Cause) (s : List Token) :
    (∃ t u, s = t :: u ∧ t.kind = kind ∧ expect kind cause s = .ok t u) ∨
      expect kind cause s = .error ⟨cause, s.head?⟩ s := by
  obtain ⟨t, u, rfl, hk, -⟩ | ⟨-, he⟩ := accept?_cases [kind] s
  · exact .inl ⟨t, u, rfl, List.mem_singleton.1 hk, expect_of_kind (List.mem_singleton.1 hk)⟩
  · refine .inr ?_
    unfold expect
    rw [bind_of_ok he]
    rfl

theorem expect_eq_ok {kind : Token.Kind} {cause : SyntaxFault.Cause} {s u : List Token} {t : Token}
    (h : expect kind cause s = .ok t u) : s = t :: u ∧ t.kind = kind := by
  obtain ⟨t', u', rfl, hk, he⟩ | he := expect_cases kind cause s
  · rw [he] at h
    cases h
    exact ⟨rfl, hk⟩
  · rw [he] at h
    cases h

/-- A rule that expects a token blames the one that is there instead, and takes nothing. -/
theorem expect_eq_error {kind : Token.Kind} {cause : SyntaxFault.Cause} {s u : List Token}
    {fault : SyntaxFault} (h : expect kind cause s = .error fault u) :
    fault = ⟨cause, s.head?⟩ ∧ u = s := by
  obtain ⟨t', u', rfl, -, he⟩ | he := expect_cases kind cause s
  · rw [he] at h
    cases h
  · rw [he] at h
    cases h
    exact ⟨rfl, rfl⟩

end Rule

namespace Grammar

/-! ## The rule of each symbol -/

def Chain.rule : Chain → (levels : Nat) → Rule Expr
  | .equality => Grammar.equality
  | .comparison => Grammar.comparison
  | .term => Grammar.term
  | .factor => Grammar.factor

/-- The rule that reads the expressions of a symbol. -/
def ExprSymbol.rule : ExprSymbol → (levels : Nat) → Rule Expr
  | .expression => Grammar.expression
  | .assignment => Grammar.assignment
  | .chain rule => rule.rule
  | .unary => Grammar.unary
  | .primary => Grammar.primary

/-- Without levels nothing is read. -/
theorem ExprSymbol.rule_zero (symbol : ExprSymbol) : symbol.rule 0 = exhausted := by
  cases symbol with
  | chain rule => cases rule <;> rfl
  | _ => rfl

/-- A chain opens two levels before its first operand is read. -/
theorem Chain.rule_one (c : Chain) : c.rule 1 = exhausted := by
  cases c <;> rfl

/-- The four chains are read alike. -/
theorem Chain.rule_add_two (c : Chain) (levels : Nat) :
    c.rule (levels + 2) = Rule.chain c.operators (c.operand.rule levels) := by
  cases c <;> rfl

end Grammar

end Scriptlet
