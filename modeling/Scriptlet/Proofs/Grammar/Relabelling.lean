import Scriptlet.Proofs.Grammar.Rules
import Scriptlet.Proofs.Program.Tokens

/-!
# More levels, other labels

Rules look at the kinds of tokens and copy literals; they never look at a lexeme or a line. So
tokens that keep kind and literal are read alike under other labels. Rules also do not look at how
many levels are left until there are none. Both facts are one relation: a rule *refines* another if
it runs out of levels or else the other gives the same answer, relabelled. The relation passes
through sequences, chains and repetitions, and so from the rules with fewer levels to the rules with
more.
-/

namespace Scriptlet

namespace Rule

variable {α β γ δ : Type}

/-- A rule ended for want of levels. -/
def Exhausted : EStateM.Result SyntaxFault (List Token) α → Prop
  | .ok _ _ => False
  | .error fault _ => fault.cause = .shallowerNesting

/-- An answer with its tokens and its result changed. -/
def relabel (f : Token → Token) (g : α → β) :
    EStateM.Result SyntaxFault (List Token) α → EStateM.Result SyntaxFault (List Token) β
  | .ok a t => .ok (g a) (t.map f)
  | .error fault t => .error ⟨fault.cause, fault.site.map f⟩ (t.map f)

/-- Where the first rule does not run out of levels, the second gives the same answer under other
labels. -/
def Refines (f : Token → Token) (g : α → β) (r : Rule α) (r' : Rule β) : Prop :=
  ∀ s, Exhausted (r s) ∨ r' (s.map f) = relabel f g (r s)

/-- Labels that rules do not look at. -/
structure Unread (f : Token → Token) : Prop where
  kind : ∀ t, (f t).kind = t.kind
  literal : ∀ t, (f t).literal = t.literal

theorem Unread.id : Unread id := ⟨fun _ => rfl, fun _ => rfl⟩

section

variable {f : Token → Token} {g : α → β} {h : γ → δ}

/-- Being out of levels says nothing of what more levels would give. -/
theorem refines_exhausted (r' : Rule β) : Refines f g Grammar.exhausted r' :=
  fun _ => .inl rfl

theorem refines_pure {a : α} {b : β} (hab : b = g a) : Refines f g (pure a) (pure b) := by
  intro s
  subst hab
  exact .inr rfl

theorem refines_fail (cause : SyntaxFault.Cause) : Refines f g (fail cause) (fail cause) := by
  intro s
  right
  simp [relabel, List.head?_map]

/-- The blame is on a token of the tree, and moves with its label. -/
theorem refines_throw (cause : SyntaxFault.Cause) (site : Token) :
    Refines f g (throw ⟨cause, some site⟩) (throw ⟨cause, some (f site)⟩) :=
  fun _ => .inr rfl

/-- Sequences refine sequences. -/
theorem Refines.bind {r : Rule α} {r' : Rule β} {next : α → Rule γ} {next' : β → Rule δ}
    (hr : Refines f g r r') (hnext : ∀ a, Refines f h (next a) (next' (g a))) :
    Refines f h (r >>= next) (r' >>= next') := by
  intro s
  simp only [bind_apply]
  obtain hr | hr := hr s
  · left
    cases hs : r s with
    | ok a t => rw [hs] at hr; exact hr.elim
    | error fault t => rw [hs] at hr; exact hr
  · rw [hr]
    cases hs : r s with
    | ok a t => exact hnext a t
    | error fault t => exact .inr rfl

/-- Under the same labels, a rule that does not run out of levels is answered alike. -/
theorem Refines.eq_or_exhausted {g : α → α} {r r' : Rule α} (h : Refines id g r r')
    (hg : ∀ a, g a = a) (s : List Token) : Exhausted (r s) ∨ r' s = r s := by
  obtain h | h := h s
  · exact .inl h
  · right
    rw [List.map_id] at h
    rw [h]
    cases r s with
    | ok a u => simp [relabel, hg]
    | error fault u => simp [relabel]

theorem refines_get : Refines f (List.map f) get get := fun _ => .inr rfl

variable (hf : Unread f)
include hf

theorem refines_next? : Refines f id next? next? := by
  intro s
  right
  cases s with
  | nil => rfl
  | cons t s => simp [relabel, hf.kind]

/-- Tokens are chosen by kind, which labels leave alone. -/
theorem refines_accept? (kinds : List Token.Kind) :
    Refines f (Option.map f) (accept? kinds) (accept? kinds) := by
  intro s
  right
  obtain ⟨t, u, rfl, hk, he⟩ | ⟨hs, he⟩ := accept?_cases kinds s
  · rw [he, List.map_cons, accept?_of_mem (by rw [hf.kind]; exact hk)]
    rfl
  · rw [he, accept?_of_stops]
    · rfl
    · intro t ht
      rw [List.head?_map] at ht
      obtain ⟨u, hu, rfl⟩ := Option.map_eq_some_iff.1 ht
      rw [hf.kind]
      exact hs u hu

theorem refines_expect (kind : Token.Kind) (cause : SyntaxFault.Cause) :
    Refines f f (expect kind cause) (expect kind cause) := by
  refine (refines_accept? hf [kind]).bind fun found => ?_
  cases found with
  | none => exact refines_fail cause
  | some t => exact refines_pure rfl

variable {operand operand' : Rule Expr}

/-- The operators end up in the tree, with their new labels. -/
theorem refines_chainBounded (operators : List Token.Kind)
    (hoperand : Refines f (Expr.mapTokens f) operand operand') (bound : Nat) (left : Expr) :
    Refines f (Expr.mapTokens f) (chainBounded operators operand bound left)
      (chainBounded operators operand' bound (left.mapTokens f)) := by
  induction bound generalizing left with
  | zero => exact refines_pure rfl
  | succ bound ih =>
    refine (refines_accept? hf operators).bind fun found => ?_
    cases found with
    | none => exact refines_pure rfl
    | some operator => exact hoperand.bind fun right => ih (.binary left operator right)

theorem refines_chain (operators : List Token.Kind)
    (hoperand : Refines f (Expr.mapTokens f) operand operand') :
    Refines f (Expr.mapTokens f) (chain operators operand) (chain operators operand') := by
  refine hoperand.bind fun left => refines_get.bind fun tokens => ?_
  rw [List.length_map]
  exact refines_chainBounded hf operators hoperand tokens.length left

theorem refines_manyBounded (stop : Token.Kind) {phrase : Rule α} {phrase' : Rule β}
    (hphrase : Refines f g phrase phrase') (bound : Nat) :
    Refines f (List.map g) (manyBounded stop phrase bound) (manyBounded stop phrase' bound) := by
  induction bound with
  | zero => exact refines_pure rfl
  | succ bound ih =>
    refine (refines_next? hf).bind fun kind => ?_
    cases kind with
    | none => exact refines_pure rfl
    | some kind =>
      simp only [id]
      split
      · exact refines_pure rfl
      · exact hphrase.bind fun first => ih.bind fun rest => refines_pure rfl

/-- Relabelling leaves the number of tokens, and with it the bound on the loop. -/
theorem refines_many (stop : Token.Kind) {phrase : Rule α} {phrase' : Rule β}
    (hphrase : Refines f g phrase phrase') :
    Refines f (List.map g) (many stop phrase) (many stop phrase') := by
  refine refines_get.bind fun tokens => ?_
  rw [List.length_map]
  exact refines_manyBounded hf stop hphrase tokens.length

end

end Rule

namespace Grammar

open Rule

variable {f : Token → Token} (hf : Unread f)
include hf

/-! ## Expressions -/

section Levels

variable {m n : Nat}

theorem refines_assignment
    (hequality : Refines f (Expr.mapTokens f) (Grammar.equality m) (Grammar.equality n))
    (hassignment : Refines f (Expr.mapTokens f) (Grammar.assignment m) (Grammar.assignment n)) :
    Refines f (Expr.mapTokens f) (Grammar.assignment (m + 1)) (Grammar.assignment (n + 1)) := by
  refine hequality.bind fun left => (refines_accept? hf [.equal]).bind fun found => ?_
  cases found with
  | none => exact refines_pure rfl
  | some equals =>
    refine hassignment.bind fun value => ?_
    cases left with
    | read name => exact refines_pure rfl
    | _ => exact refines_throw .assignmentTarget equals

theorem refines_unary
    (hunary : Refines f (Expr.mapTokens f) (Grammar.unary m) (Grammar.unary n))
    (hprimary : Refines f (Expr.mapTokens f) (Grammar.primary m) (Grammar.primary n)) :
    Refines f (Expr.mapTokens f) (Grammar.unary (m + 1)) (Grammar.unary (n + 1)) := by
  refine (refines_accept? hf unaryOperators).bind fun found => ?_
  cases found with
  | none => exact hprimary
  | some operator => exact hunary.bind fun right => refines_pure rfl

/-- Literals are copied from tokens, and labels leave them alone. -/
theorem refines_primary
    (hexpression : Refines f (Expr.mapTokens f) (Grammar.expression m) (Grammar.expression n)) :
    Refines f (Expr.mapTokens f) (Grammar.primary (m + 1)) (Grammar.primary (n + 1)) := by
  refine (refines_accept? hf primaryStarts).bind fun found => ?_
  cases found with
  | none => exact refines_fail .expression
  | some token =>
    simp only [Option.map_some, hf.kind, hf.literal]
    cases token.kind
    case leftParen =>
      exact hexpression.bind fun inner =>
        (refines_expect hf .rightParen .parenthesisAfterExpression).bind fun _ => refines_pure rfl
    all_goals exact refines_pure rfl

end Levels

/-- More levels and other labels do not change how an expression is read. -/
theorem ExprSymbol.refines (symbol : ExprSymbol) {m n : Nat} (hmn : m ≤ n) :
    Refines f (Expr.mapTokens f) (symbol.rule m) (symbol.rule n) := by
  induction m using Nat.strongRecOn generalizing symbol n with
  | ind m ih =>
    cases m with
    | zero =>
      rw [symbol.rule_zero]
      exact refines_exhausted _
    | succ m =>
      obtain ⟨n, rfl⟩ : ∃ k, n = k + 1 := ⟨n - 1, by omega⟩
      have hmn' : m ≤ n := by omega
      have ih' := fun symbol => ih m (by omega) symbol hmn'
      cases symbol with
      | expression => exact ih' .assignment
      | assignment => exact refines_assignment hf (ih' (.chain .equality)) (ih' .assignment)
      | unary => exact refines_unary hf (ih' .unary) (ih' .primary)
      | primary => exact refines_primary hf (ih' .expression)
      | chain c =>
        -- A chain opens two levels, so its operands are two levels down.
        cases m with
        | zero =>
          change Refines _ _ (c.rule 1) _
          rw [c.rule_one]
          exact refines_exhausted _
        | succ m =>
          obtain ⟨n, rfl⟩ : ∃ k, n = k + 1 := ⟨n - 1, by omega⟩
          change Refines _ _ (c.rule (m + 2)) (c.rule (n + 2))
          rw [c.rule_add_two, c.rule_add_two]
          exact refines_chain hf _ (ih m (by omega) c.operand (by omega))

/-! ## Statements -/

section Levels

variable {m n : Nat}

theorem refines_expressionStatement (hmn : m ≤ n) :
    Refines f (Stmt.mapTokens f) (expressionStatement m) (expressionStatement n) := by
  cases m with
  | zero => exact refines_exhausted _
  | succ m =>
    obtain ⟨n, rfl⟩ : ∃ k, n = k + 1 := ⟨n - 1, by omega⟩
    exact (ExprSymbol.expression.refines hf (Nat.le_of_succ_le_succ hmn)).bind fun value =>
      (refines_expect hf .semicolon .semicolonAfterExpression).bind fun _ => refines_pure rfl

theorem refines_printStatement (hmn : m ≤ n) :
    Refines f (Stmt.mapTokens f) (printStatement m) (printStatement n) := by
  cases m with
  | zero => exact refines_exhausted _
  | succ m =>
    obtain ⟨n, rfl⟩ : ∃ k, n = k + 1 := ⟨n - 1, by omega⟩
    exact (ExprSymbol.expression.refines hf (Nat.le_of_succ_le_succ hmn)).bind fun value =>
      (refines_expect hf .semicolon .semicolonAfterValue).bind fun _ => refines_pure rfl

theorem refines_varDeclaration (hmn : m ≤ n) :
    Refines f (Stmt.mapTokens f) (varDeclaration m) (varDeclaration n) := by
  cases m with
  | zero => exact refines_exhausted _
  | succ m =>
    obtain ⟨n, rfl⟩ : ∃ k, n = k + 1 := ⟨n - 1, by omega⟩
    refine (refines_expect hf .identifier .variableName).bind fun name =>
      (refines_accept? hf [.equal]).bind fun found => ?_
    have hsemicolon := refines_expect hf .semicolon .semicolonAfterDeclaration
    cases found with
    | none => exact hsemicolon.bind fun _ => refines_pure rfl
    | some equals =>
      exact (ExprSymbol.expression.refines hf (Nat.le_of_succ_le_succ hmn)).bind fun initial =>
        hsemicolon.bind fun _ => refines_pure rfl

theorem refines_declaration (hmn : m ≤ n)
    (hstatement : Refines f (Stmt.mapTokens f) (statement m) (statement n)) :
    Refines f (Stmt.mapTokens f) (declaration (m + 1)) (declaration (n + 1)) := by
  refine (refines_accept? hf [.varWord]).bind fun found => ?_
  cases found with
  | none => exact hstatement
  | some word => exact refines_varDeclaration hf hmn

theorem refines_statement (hmn : m ≤ n)
    (hblock : Refines f (Program.mapTokens f) (block m) (block n)) :
    Refines f (Stmt.mapTokens f) (statement (m + 1)) (statement (n + 1)) := by
  refine (refines_accept? hf [.printWord, .leftBrace]).bind fun found => ?_
  cases found with
  | none => exact refines_expressionStatement hf hmn
  | some token =>
    simp only [Option.map_some, hf.kind]
    split
    · exact refines_printStatement hf hmn
    · exact hblock.bind fun body => refines_pure rfl

theorem refines_block
    (hdeclaration : Refines f (Stmt.mapTokens f) (declaration m) (declaration n)) :
    Refines f (Program.mapTokens f) (block (m + 1)) (block (n + 1)) := by
  rw [show Program.mapTokens f = List.map (Stmt.mapTokens f) from
    funext (Program.mapTokens_eq_map f)]
  exact (refines_many hf .rightBrace hdeclaration).bind fun body =>
    (refines_expect hf .rightBrace .braceAfterBlock).bind fun _ => refines_pure rfl

end Levels

theorem refines_statements {m n : Nat} (hmn : m ≤ n) :
    Refines f (Stmt.mapTokens f) (declaration m) (declaration n) ∧
      Refines f (Stmt.mapTokens f) (statement m) (statement n) ∧
      Refines f (Program.mapTokens f) (block m) (block n) := by
  induction m generalizing n with
  | zero => exact ⟨refines_exhausted _, refines_exhausted _, refines_exhausted _⟩
  | succ m ih =>
    obtain ⟨n, rfl⟩ : ∃ k, n = k + 1 := ⟨n - 1, by omega⟩
    have hmn' : m ≤ n := by omega
    obtain ⟨hdeclaration, hstatement, hblock⟩ := ih hmn'
    exact ⟨refines_declaration hf hmn' hstatement, refines_statement hf hmn' hblock,
      refines_block hf hdeclaration⟩

/-- More levels and other labels do not change how a program is read. -/
theorem refines_program {m n : Nat} (hmn : m ≤ n) :
    Refines f (Program.mapTokens f) (program m) (program n) := by
  cases m with
  | zero => exact refines_exhausted _
  | succ m =>
    obtain ⟨n, rfl⟩ : ∃ k, n = k + 1 := ⟨n - 1, by omega⟩
    rw [show Program.mapTokens f = List.map (Stmt.mapTokens f) from
      funext (Program.mapTokens_eq_map f)]
    exact refines_many hf .eof (refines_statements hf (Nat.le_of_succ_le_succ hmn)).1

end Grammar

end Scriptlet
