import Scriptlet.Proofs.Grammar.Lookahead
import Scriptlet.Proofs.Grammar.Relaxed

/-!
# What a fault says of the tokens

A rule that fails has taken some tokens off the front. Either more tokens would make a phrase of the
relaxed grammar out of them, and it is the next token that is in the way; or they end in an assignment
to something that is not a name, and it is the equals sign that is blamed (`Grammar.Blames`). The third
way to fail is to run out of levels.

When one rule opens another, what the inner one took is completed first, and then what the outer one
took. That is one lemma for all rules (`Blames.after`).
-/

namespace Scriptlet

namespace Grammar

open Rule

/-! ## Where assignments stand -/

/-- The kinds of token that an assignment stands right after. -/
def assignmentLeads : List Token.Kind :=
  [.semicolon, .leftBrace, .rightBrace, .printWord, .equal, .leftParen]

/-- The last of some tokens is of one of these kinds. -/
def EndsIn (kinds : List Token.Kind) (ts : List Token) : Prop :=
  ∃ us t, ts = us ++ [t] ∧ t.kind ∈ kinds

/-- An assignment may stand right after these tokens: there are none, or the last of them leads one
in. -/
def Leads (ts : List Token) : Prop := ts = [] ∨ EndsIn assignmentLeads ts

theorem EndsIn.after {kinds : List Token.Kind} {ts : List Token} (us : List Token)
    (h : EndsIn kinds ts) : EndsIn kinds (us ++ ts) := by
  obtain ⟨vs, t, rfl, hkind⟩ := h
  exact ⟨us ++ vs, t, (List.append_assoc ..).symm, hkind⟩

/-- What may stand before an assignment within a phrase may stand before it within a longer one. -/
theorem Leads.after {us ts : List Token} (hus : EndsIn assignmentLeads us) (h : Leads ts) :
    EndsIn assignmentLeads (us ++ ts) := by
  rcases h with rfl | h
  · rw [List.append_nil]
    exact hus
  · exact h.after us

/-- A statement ends in a semicolon or a brace, and an assignment may follow either. -/
theorem DerivesStmt.endsIn_of_statement {ts : List Token} {s : Stmt}
    (h : DerivesStmt .statement ts s) : EndsIn assignmentLeads ts := by
  cases h with
  | exprStmt h =>
    cases h with
    | expression _ hkind => exact ⟨_, _, rfl, by rw [hkind]; decide⟩
  | printStmt h =>
    cases h with
    | print _ _ hkind => exact ⟨_, _, rfl, by rw [hkind]; decide⟩
  | block h =>
    cases h with
    | braces _ _ hkind => exact ⟨_, _, rfl, by rw [hkind]; decide⟩

/-- Declarations end in a semicolon or in a closing brace. -/
theorem DerivesStmt.endsIn {ts : List Token} {s : Stmt} (h : DerivesStmt .declaration ts s) :
    EndsIn assignmentLeads ts := by
  cases h with
  | varDecl h =>
    cases h with
    | @declare word name semicolon _ _ hkind =>
      exact ⟨[word, name], semicolon, rfl, by rw [hkind]; decide⟩
    | declareWith _ _ _ _ hkind => exact ⟨_, _, rfl, by rw [hkind]; decide⟩
  | statement h => exact h.endsIn_of_statement

/-- Tokens around an equals sign, and those after them: an equality other than a lone name, and a
whole assignment as its value. -/
structure Untargeted (left : List Token) (equals : Token) (right rest : List Token) : Prop where
  kind : equals.kind = .equal
  equality : ∃ e, DerivesExpr (.chain .equality) left e
  target : ∀ name, left = [name] → name.kind ≠ .identifier
  value : ∃ e, DerivesExpr .assignment right e
  whole : Stops ExprSymbol.assignment.extenders rest

/-- Tokens derive one expression at most. -/
theorem DerivesExpr.unique {symbol : ExprSymbol} {ts : List Token} {e e' : Expr}
    (h : DerivesExpr symbol ts e) (h' : DerivesExpr symbol ts e') : e = e' := by
  obtain ⟨n, h⟩ := h.reads
  obtain ⟨k, h'⟩ := h'.reads
  have hread := h (max n k) (by omega) [] (stops_nil _)
  rw [h' (max n k) (by omega) [] (stops_nil _)] at hread
  cases hread
  rfl

theorem derives_name {name : Token} (h : name.kind = .identifier) :
    DerivesExpr (.chain .equality) [name] (.read name) := by
  have hunary : DerivesExpr Chain.factor.operand [name] (.read name) := .primary (.name h)
  have hfactor : DerivesExpr Chain.term.operand [name] (.read name) := DerivesExpr.operand hunary
  have hterm : DerivesExpr Chain.comparison.operand [name] (.read name) :=
    DerivesExpr.operand hfactor
  have hcomparison : DerivesExpr Chain.equality.operand [name] (.read name) :=
    DerivesExpr.operand hterm
  exact .operand hcomparison

/-! ## Blame -/

/-- What a fault says of the tokens that were taken before it and of those that are left. -/
inductive Blames (Phrase Lead : List Token → Prop) (used rest : List Token) : SyntaxFault → Prop
  | exhausted {site : Option Token} : Blames Phrase Lead used rest ⟨.shallowerNesting, site⟩
  | token {cause : SyntaxFault.Cause} : cause ≠ .assignmentTarget →
      (∃ more, Phrase (used ++ more)) → Blames Phrase Lead used rest ⟨cause, rest.head?⟩
  | target {before left right : List Token} {equals : Token} :
      used = before ++ left ++ equals :: right → Lead before → Untargeted left equals right rest →
      Blames Phrase Lead used rest ⟨.assignmentTarget, some equals⟩

/-- The same blame after more tokens, if what completes a phrase completes the longer one as well. -/
theorem Blames.after {Phrase Lead Phrase' Lead' : List Token → Prop} {used rest : List Token}
    {fault : SyntaxFault} (before : List Token)
    (hphrase : ∀ ts, Phrase ts → ∃ more, Phrase' (before ++ ts ++ more))
    (hlead : ∀ ts, Lead ts → Lead' (before ++ ts)) (h : Blames Phrase Lead used rest fault) :
    Blames Phrase' Lead' (before ++ used) rest fault := by
  cases h with
  | exhausted => exact .exhausted
  | token hcause hmore =>
    obtain ⟨more, hmore⟩ := hmore
    obtain ⟨outer, houter⟩ := hphrase _ hmore
    refine .token hcause ⟨more ++ outer, ?_⟩
    simpa using houter
  | target hused hbefore htarget =>
    refine .target ?_ (hlead _ hbefore) htarget
    rw [hused]
    simp

/-- Whatever a rule fails for, the fault is to blame for it. -/
def Blaming {α : Type} (r : Rule α) (Phrase Lead : List Token → Prop) : Prop :=
  ∀ ⦃s t : List Token⦄ ⦃fault : SyntaxFault⦄, r s = .error fault t →
    ∃ used, s = used ++ t ∧ Blames Phrase Lead used t fault

theorem blaming_exhausted {α : Type} {Phrase Lead : List Token → Prop} :
    Blaming (exhausted : Rule α) Phrase Lead := by
  intro s t fault h
  cases h
  exact ⟨[], rfl, .exhausted⟩

/-- A token of a kind, to complete phrases with. -/
def filler (kind : Token.Kind) : Token := { kind, lexeme := "" }

/-! ## Expressions -/

/-- What may stand before an assignment that a rule for expressions fails for. Only the first two
rules start with one. -/
def ExprSymbol.Lead : ExprSymbol → List Token → Prop
  | .expression | .assignment => Leads
  | .chain _ | .unary | .primary => EndsIn assignmentLeads

theorem Chain.lead_operand (c : Chain) : c.operand.Lead = EndsIn assignmentLeads := by
  cases c <;> rfl

section Levels

variable {levels : Nat}

/-- The target is judged after the value has been read. By then both sides are complete, and the
equals sign between them is to blame. -/
theorem blaming_assignment
    (hequality : Blaming (Grammar.equality levels) (RelaxedExpr (.chain .equality))
      (EndsIn assignmentLeads))
    (hassignment : Blaming (Grammar.assignment levels) (RelaxedExpr .assignment) Leads) :
    Blaming (Grammar.assignment (levels + 1)) (RelaxedExpr .assignment) Leads := by
  intro s t fault h
  simp only [Grammar.assignment] at h
  rw [bind_eq_error] at h
  rcases h with h | ⟨left, u, hleft, h⟩
  · obtain ⟨used, rfl, hblames⟩ := hequality h
    refine ⟨used, rfl, hblames.after [] ?_ fun _ => .inr⟩
    intro ts hts
    exact ⟨[], by simpa using RelaxedExpr.equality hts⟩
  · obtain ⟨us, rfl, hus⟩ := ExprSymbol.sound (.chain .equality) levels hleft
    rw [bind_eq_error] at h
    rcases h with h | ⟨found, v, hfound, h⟩
    · exact absurd h accept?_ne_error
    cases found with
    | none => cases h
    | some equals =>
      obtain ⟨rfl, hmem⟩ := accept?_eq_some hfound
      have hkind : equals.kind = .equal := List.mem_singleton.1 hmem
      rw [bind_eq_error] at h
      rcases h with h | ⟨value, w, hvalue, h⟩
      · obtain ⟨used, rfl, hblames⟩ := hassignment h
        have hlead : EndsIn assignmentLeads (us ++ [equals]) :=
          ⟨us, equals, rfl, by rw [hkind]; decide⟩
        refine ⟨us ++ [equals] ++ used, by simp, hblames.after _ ?_ fun _ h => .inr (h.after hlead)⟩
        intro ts hts
        exact ⟨[], by simpa using RelaxedExpr.assign hus.relaxed hkind hts⟩
      · obtain ⟨vs, rfl, hvs⟩ := ExprSymbol.sound .assignment levels hvalue
        have hwhole := ExprSymbol.halts .assignment levels hvalue
        have hused : us ++ equals :: vs = [] ++ us ++ equals :: vs := rfl
        -- A lone name before the equals sign would have been read as a name.
        have hlone (name : Token) (hus' : us = [name]) (hname : name.kind = .identifier) :
            left = .read name := by
          subst hus'
          exact hus.unique (derives_name hname)
        cases left with
        | read name => cases h
        | literal _ | grouping _ | unary _ _ | binary _ _ _ | assign _ _ =>
          cases h
          refine ⟨us ++ equals :: vs, by simp, .target hused (.inl rfl) ?_⟩
          refine ⟨hkind, ⟨_, hus⟩, ?_, ⟨_, hvs⟩, hwhole⟩
          intro name hus' hname
          cases hlone name hus' hname

/-- What was read of the chain so far can be completed by an operand after its last operator. -/
theorem blaming_chainBounded {c : Chain}
    (hoperand : Blaming (c.operand.rule levels) (RelaxedExpr c.operand) (EndsIn assignmentLeads))
    (bound : Nat) {us : List Token} {left : Expr} (hleft : RelaxedExpr (.chain c) us) :
    Blaming (chainBounded c.operators (c.operand.rule levels) bound left)
      (fun ts => RelaxedExpr (.chain c) (us ++ ts)) (EndsIn assignmentLeads) := by
  induction bound generalizing us left with
  | zero =>
    intro s t fault h
    cases h
  | succ bound ih =>
    intro s t fault h
    simp only [chainBounded] at h
    rw [bind_eq_error] at h
    rcases h with h | ⟨found, u, hfound, h⟩
    · exact absurd h accept?_ne_error
    cases found with
    | none => cases h
    | some operator =>
      obtain ⟨rfl, hkind⟩ := accept?_eq_some hfound
      rw [bind_eq_error] at h
      rcases h with h | ⟨right, v, hright, h⟩
      · obtain ⟨used, rfl, hblames⟩ := hoperand h
        refine ⟨[operator] ++ used, rfl, hblames.after _ ?_ fun _ h => h.after _⟩
        intro ts hts
        exact ⟨[], by simpa using RelaxedExpr.join hleft hkind hts⟩
      · obtain ⟨vs, rfl, hvs⟩ := c.operand.sound levels hright
        obtain ⟨used, rfl, hblames⟩ := ih (.join hleft hkind hvs.relaxed) h
        refine ⟨operator :: vs ++ used, by simp, hblames.after _ ?_ fun _ h => h.after _⟩
        intro ts hts
        exact ⟨[], by simpa using hts⟩

theorem blaming_chain {c : Chain}
    (hoperand : Blaming (c.operand.rule levels) (RelaxedExpr c.operand) (EndsIn assignmentLeads)) :
    Blaming (chain c.operators (c.operand.rule levels)) (RelaxedExpr (.chain c))
      (EndsIn assignmentLeads) := by
  intro s t fault h
  unfold chain at h
  rw [bind_eq_error] at h
  rcases h with h | ⟨left, u, hleft, h⟩
  · obtain ⟨used, rfl, hblames⟩ := hoperand h
    refine ⟨used, rfl, hblames.after [] ?_ fun _ => id⟩
    intro ts hts
    exact ⟨[], by simpa using RelaxedExpr.operand hts⟩
  · obtain ⟨us, rfl, hus⟩ := c.operand.sound levels hleft
    obtain ⟨used, rfl, hblames⟩ := blaming_chainBounded hoperand u.length (.operand hus.relaxed) h
    refine ⟨us ++ used, by simp, hblames.after us ?_ fun _ h => h.after us⟩
    intro ts hts
    exact ⟨[], by simpa using hts⟩

/-- An operator alone is completed by an operand. -/
theorem blaming_unary
    (hunary : Blaming (Grammar.unary levels) (RelaxedExpr .unary) (EndsIn assignmentLeads))
    (hprimary : Blaming (Grammar.primary levels) (RelaxedExpr .primary) (EndsIn assignmentLeads)) :
    Blaming (Grammar.unary (levels + 1)) (RelaxedExpr .unary) (EndsIn assignmentLeads) := by
  intro s t fault h
  simp only [Grammar.unary] at h
  rw [bind_eq_error] at h
  rcases h with h | ⟨found, u, hfound, h⟩
  · exact absurd h accept?_ne_error
  cases found with
  | none =>
    obtain ⟨rfl, -⟩ := accept?_eq_none hfound
    obtain ⟨used, rfl, hblames⟩ := hprimary h
    refine ⟨used, rfl, hblames.after [] ?_ fun _ => id⟩
    intro ts hts
    exact ⟨[], by simpa using RelaxedExpr.primary hts⟩
  | some operator =>
    obtain ⟨rfl, hmem⟩ := accept?_eq_some hfound
    have hkind : operator.kind = .bang ∨ operator.kind = .minus := by
      simpa [unaryOperators] using hmem
    rw [bind_eq_error] at h
    rcases h with h | ⟨right, v, -, h⟩
    · obtain ⟨used, rfl, hblames⟩ := hunary h
      refine ⟨[operator] ++ used, rfl, hblames.after _ ?_ fun _ h => h.after _⟩
      intro ts hts
      exact ⟨[], by simpa using RelaxedExpr.unary hkind hts⟩
    · cases h

/-- An open parenthesis is completed by an expression and a closing one; where no operand starts,
there is nothing to complete. -/
theorem blaming_primary
    (hexpression : Blaming (Grammar.expression levels) (RelaxedExpr .expression) Leads) :
    Blaming (Grammar.primary (levels + 1)) (RelaxedExpr .primary) (EndsIn assignmentLeads) := by
  intro s t fault h
  simp only [Grammar.primary] at h
  rw [bind_eq_error] at h
  rcases h with h | ⟨found, u, hfound, h⟩
  · exact absurd h accept?_ne_error
  cases found with
  | none =>
    obtain ⟨rfl, -⟩ := accept?_eq_none hfound
    cases h
    refine ⟨[], rfl, .token (by decide) ⟨[filler .nilWord], ?_⟩⟩
    exact .token (by decide)
  | some token =>
    obtain ⟨rfl, -⟩ := accept?_eq_some hfound
    cases hkind : token.kind <;> simp only [hkind] at h
    case leftParen =>
      have hclose : (filler .rightParen).kind = .rightParen := rfl
      rw [bind_eq_error] at h
      rcases h with h | ⟨inner, v, hinner, h⟩
      · obtain ⟨used, rfl, hblames⟩ := hexpression h
        have hlead : EndsIn assignmentLeads [token] := ⟨[], token, rfl, by rw [hkind]; decide⟩
        refine ⟨[token] ++ used, rfl, hblames.after _ ?_ fun _ h => h.after hlead⟩
        intro ts hts
        exact ⟨[filler .rightParen], .group hkind hts hclose⟩
      · obtain ⟨us, rfl, hus⟩ := ExprSymbol.sound .expression levels hinner
        rw [bind_eq_error] at h
        rcases h with h | ⟨close, w, -, h⟩
        · obtain ⟨rfl, rfl⟩ := expect_eq_error h
          refine ⟨token :: us, rfl, .token (by decide) ⟨[filler .rightParen], ?_⟩⟩
          exact .group hkind hus.relaxed hclose
        · cases h
    all_goals cases h

end Levels

/-- What a rule for expressions fails for. -/
theorem ExprSymbol.blaming (symbol : ExprSymbol) (levels : Nat) :
    Blaming (symbol.rule levels) (RelaxedExpr symbol) symbol.Lead := by
  induction levels using Nat.strongRecOn generalizing symbol with
  | ind levels ih =>
    cases levels with
    | zero =>
      rw [symbol.rule_zero]
      exact blaming_exhausted
    | succ levels =>
      have ih' := fun symbol => ih levels (by omega) symbol
      cases symbol with
      | expression =>
        intro s t fault h
        obtain ⟨used, rfl, hblames⟩ := ih' .assignment h
        refine ⟨used, rfl, hblames.after [] ?_ fun _ => id⟩
        intro ts hts
        exact ⟨[], by simpa using RelaxedExpr.expression hts⟩
      | assignment => exact blaming_assignment (ih' (.chain .equality)) (ih' .assignment)
      | unary => exact blaming_unary (ih' .unary) (ih' .primary)
      | primary => exact blaming_primary (ih' .expression)
      | chain c =>
        cases levels with
        | zero =>
          change Blaming (c.rule 1) _ _
          rw [c.rule_one]
          exact blaming_exhausted
        | succ levels =>
          have hoperand := ih levels (by omega) c.operand
          rw [c.lead_operand] at hoperand
          change Blaming (c.rule (levels + 2)) _ _
          rw [c.rule_add_two]
          exact blaming_chain hoperand

/-! ## Statements -/

def EndedExpr (ts : List Token) : Prop :=
  ∃ us semicolon, ts = us ++ [semicolon] ∧ RelaxedExpr .expression us ∧ semicolon.kind = .semicolon

/-- Statements that end in an expression and a semicolon fail alike. -/
theorem blaming_ended {α : Type} {cause : SyntaxFault.Cause} (levels : Nat)
    (hcause : cause ≠ .assignmentTarget) (finish : Expr → α) :
    Blaming (do
      let value ← Grammar.expression levels
      let _ ← expect .semicolon cause
      pure (finish value)) EndedExpr Leads := by
  intro s t fault h
  rw [bind_eq_error] at h
  rcases h with h | ⟨value, u, hvalue, h⟩
  · obtain ⟨used, rfl, hblames⟩ := ExprSymbol.blaming .expression levels h
    refine ⟨used, rfl, hblames.after [] ?_ fun _ => id⟩
    intro ts hts
    exact ⟨[filler .semicolon], ts, filler .semicolon, rfl, hts, rfl⟩
  · obtain ⟨us, rfl, hus⟩ := ExprSymbol.sound .expression levels hvalue
    rw [bind_eq_error] at h
    rcases h with h | ⟨semicolon, v, -, h⟩
    · obtain ⟨rfl, rfl⟩ := expect_eq_error h
      exact ⟨us, rfl, .token hcause
        ⟨[filler .semicolon], us, filler .semicolon, rfl, hus.relaxed, rfl⟩⟩
    · cases h

theorem blaming_expressionStatement (levels : Nat) :
    Blaming (expressionStatement levels) (RelaxedStmt .exprStmt) Leads := by
  cases levels with
  | zero => exact blaming_exhausted
  | succ levels =>
    intro s t fault h
    obtain ⟨used, rfl, hblames⟩ := blaming_ended levels (by decide) Stmt.expression h
    refine ⟨used, rfl, hblames.after [] ?_ fun _ => id⟩
    rintro _ ⟨us, semicolon, rfl, hus, hsemicolon⟩
    exact ⟨[], by simpa using RelaxedStmt.expression hus hsemicolon⟩

theorem blaming_printStatement (levels : Nat) :
    Blaming (printStatement levels)
      (fun ts => ∀ word : Token, word.kind = .printWord → RelaxedStmt .printStmt (word :: ts))
      Leads := by
  cases levels with
  | zero => exact blaming_exhausted
  | succ levels =>
    intro s t fault h
    obtain ⟨used, rfl, hblames⟩ := blaming_ended levels (by decide) Stmt.print h
    refine ⟨used, rfl, hblames.after [] ?_ fun _ => id⟩
    rintro _ ⟨us, semicolon, rfl, hus, hsemicolon⟩
    refine ⟨[], ?_⟩
    intro word hword
    simpa using RelaxedStmt.print hword hus hsemicolon

/-- The name, the equals sign and the semicolon may each be what is missing. -/
theorem blaming_varDeclaration (levels : Nat) :
    Blaming (varDeclaration levels)
      (fun ts => ∀ word : Token, word.kind = .varWord → RelaxedStmt .varDecl (word :: ts))
      (EndsIn assignmentLeads) := by
  cases levels with
  | zero => exact blaming_exhausted
  | succ levels =>
    intro s t fault h
    simp only [varDeclaration] at h
    rw [bind_eq_error] at h
    rcases h with h | ⟨name, u, hname, h⟩
    · obtain ⟨rfl, rfl⟩ := expect_eq_error h
      refine ⟨[], rfl, .token (by decide) ⟨[filler .identifier, filler .semicolon], ?_⟩⟩
      intro word hword
      exact .declare hword rfl rfl
    obtain ⟨rfl, hidentifier⟩ := expect_eq_ok hname
    rw [bind_eq_error] at h
    rcases h with h | ⟨found, v, hfound, h⟩
    · exact absurd h accept?_ne_error
    cases found with
    | none =>
      obtain ⟨rfl, -⟩ := accept?_eq_none hfound
      dsimp only at h
      rw [bind_eq_error] at h
      rcases h with h | ⟨semicolon, w, -, h⟩
      · obtain ⟨rfl, rfl⟩ := expect_eq_error h
        refine ⟨[name], rfl, .token (by decide) ⟨[filler .semicolon], ?_⟩⟩
        intro word hword
        exact .declare hword hidentifier rfl
      · cases h
    | some equals =>
      obtain ⟨rfl, hmem⟩ := accept?_eq_some hfound
      have hkind : equals.kind = .equal := List.mem_singleton.1 hmem
      have hlead : EndsIn assignmentLeads [name, equals] :=
        ⟨[name], equals, rfl, by rw [hkind]; decide⟩
      obtain ⟨used, rfl, hblames⟩ := blaming_ended levels (by decide) _ h
      refine ⟨[name, equals] ++ used, rfl, hblames.after _ ?_ fun _ h => h.after hlead⟩
      rintro _ ⟨us, semicolon, rfl, hus, hsemicolon⟩
      refine ⟨[], ?_⟩
      intro word hword
      simpa using RelaxedStmt.declareWith hword hidentifier hkind hus hsemicolon

section Levels

variable {levels : Nat}

theorem blaming_declaration
    (hstatement : Blaming (statement levels) (RelaxedStmt .statement) Leads) :
    Blaming (declaration (levels + 1)) (RelaxedStmt .declaration) Leads := by
  intro s t fault h
  simp only [declaration] at h
  rw [bind_eq_error] at h
  rcases h with h | ⟨found, u, hfound, h⟩
  · exact absurd h accept?_ne_error
  cases found with
  | none =>
    obtain ⟨rfl, -⟩ := accept?_eq_none hfound
    obtain ⟨used, rfl, hblames⟩ := hstatement h
    refine ⟨used, rfl, hblames.after [] ?_ fun _ => id⟩
    intro ts hts
    exact ⟨[], by simpa using RelaxedStmt.statement hts⟩
  | some word =>
    obtain ⟨rfl, hword⟩ := accept?_eq_some hfound
    obtain ⟨used, rfl, hblames⟩ := blaming_varDeclaration levels h
    refine ⟨[word] ++ used, rfl, hblames.after _ ?_ fun _ h => .inr (h.after _)⟩
    intro ts hts
    exact ⟨[], by simpa using RelaxedStmt.varDecl (hts word (List.mem_singleton.1 hword))⟩

/-- Whichever rule is called, what it took after the first token is completed by it. -/
theorem blaming_statement
    (hblock : Blaming (block levels)
      (fun ts => ∀ left : Token, left.kind = .leftBrace → RelaxedStmt .block (left :: ts)) Leads) :
    Blaming (statement (levels + 1)) (RelaxedStmt .statement) Leads := by
  intro s t fault h
  simp only [statement] at h
  rw [bind_eq_error] at h
  rcases h with h | ⟨found, u, hfound, h⟩
  · exact absurd h accept?_ne_error
  cases found with
  | none =>
    obtain ⟨rfl, -⟩ := accept?_eq_none hfound
    obtain ⟨used, rfl, hblames⟩ := blaming_expressionStatement levels h
    refine ⟨used, rfl, hblames.after [] ?_ fun _ => id⟩
    intro ts hts
    exact ⟨[], by simpa using RelaxedStmt.exprStmt hts⟩
  | some token =>
    obtain ⟨rfl, hkind⟩ := accept?_eq_some hfound
    by_cases hprint : token.kind = .printWord
    · have hlead : EndsIn assignmentLeads [token] := ⟨[], token, rfl, by rw [hprint]; decide⟩
      simp only [hprint, ↓reduceIte] at h
      obtain ⟨used, rfl, hblames⟩ := blaming_printStatement levels h
      refine ⟨[token] ++ used, rfl, hblames.after _ ?_ fun _ h => .inr (h.after hlead)⟩
      intro ts hts
      exact ⟨[], by simpa using RelaxedStmt.printStmt (hts token hprint)⟩
    · have hbrace : token.kind = .leftBrace := by simpa [hprint] using hkind
      have hlead : EndsIn assignmentLeads [token] := ⟨[], token, rfl, by rw [hbrace]; decide⟩
      simp only [hprint, ↓reduceIte] at h
      rw [bind_eq_error] at h
      rcases h with h | ⟨body, v, -, h⟩
      · obtain ⟨used, rfl, hblames⟩ := hblock h
        refine ⟨[token] ++ used, rfl, hblames.after _ ?_ fun _ h => .inr (h.after hlead)⟩
        intro ts hts
        exact ⟨[], by simpa using RelaxedStmt.block (hts token hbrace)⟩
      · cases h

/-- The declarations before the one that fails are complete. -/
theorem blaming_manyBounded (stop : Token.Kind)
    (hdeclaration : Blaming (declaration levels) (RelaxedStmt .declaration) Leads) (bound : Nat) :
    Blaming (manyBounded stop (declaration levels) bound) RelaxedAll Leads := by
  induction bound with
  | zero =>
    intro s t fault h
    cases h
  | succ bound ih =>
    intro s t fault h
    simp only [manyBounded, bind_apply, next?_apply] at h
    cases hnext : s.head?.map (·.kind) with
    | none =>
      rw [hnext] at h
      cases h
    | some kind =>
      simp only [hnext] at h
      split at h
      · cases h
      rw [bind_eq_error] at h
      rcases h with h | ⟨first, u, hfirst, h⟩
      · obtain ⟨used, rfl, hblames⟩ := hdeclaration h
        refine ⟨used, rfl, hblames.after [] ?_ fun _ => id⟩
        intro ts hts
        exact ⟨[], by simpa using RelaxedAll.cons hts .nil⟩
      · obtain ⟨us, rfl, hus⟩ := (sound_statements levels).1 hfirst
        rw [bind_eq_error] at h
        rcases h with h | ⟨rest, v, -, h⟩
        · obtain ⟨used, rfl, hblames⟩ := ih h
          refine ⟨us ++ used, by simp, hblames.after us ?_ fun _ h => .inr (h.after hus.endsIn)⟩
          intro ts hts
          exact ⟨[], by simpa using RelaxedAll.cons hus.relaxed hts⟩
        · cases h

/-- A block that is cut short is completed by its closing brace. -/
theorem blaming_block
    (hdeclaration : Blaming (declaration levels) (RelaxedStmt .declaration) Leads) :
    Blaming (block (levels + 1))
      (fun ts => ∀ left : Token, left.kind = .leftBrace → RelaxedStmt .block (left :: ts))
      Leads := by
  intro s t fault h
  simp only [block] at h
  rw [bind_eq_error] at h
  rcases h with h | ⟨body, u, hbody, h⟩
  · obtain ⟨used, rfl, hblames⟩ := blaming_manyBounded .rightBrace hdeclaration s.length h
    refine ⟨used, rfl, hblames.after [] ?_ fun _ => id⟩
    intro ts hts
    exact ⟨[filler .rightBrace], fun left hleft => .braces hleft hts rfl⟩
  · obtain ⟨us, rfl, hus, -⟩ := sound_manyBounded (sound_statements levels).1
      DerivesStmt.length_pos DerivesAll.nil DerivesAll.cons s.length (Nat.le_refl _) hbody
    rw [bind_eq_error] at h
    rcases h with h | ⟨close, v, -, h⟩
    · obtain ⟨rfl, rfl⟩ := expect_eq_error h
      refine ⟨us, rfl, .token (by decide) ⟨[filler .rightBrace], ?_⟩⟩
      intro left hleft
      exact .braces hleft hus.relaxed rfl
    · cases h

end Levels

/-- What the rules for statements fail for. -/
theorem blaming_statements (levels : Nat) :
    Blaming (declaration levels) (RelaxedStmt .declaration) Leads ∧
      Blaming (statement levels) (RelaxedStmt .statement) Leads ∧
      Blaming (block levels)
        (fun ts => ∀ left : Token, left.kind = .leftBrace → RelaxedStmt .block (left :: ts))
        Leads := by
  induction levels with
  | zero => exact ⟨blaming_exhausted, blaming_exhausted, blaming_exhausted⟩
  | succ levels ih =>
    obtain ⟨hdeclaration, hstatement, hblock⟩ := ih
    exact ⟨blaming_declaration hstatement, blaming_statement hblock, blaming_block hdeclaration⟩

/-- What reading a program fails for. -/
theorem blaming_program (levels : Nat) : Blaming (program levels) RelaxedAll Leads := by
  cases levels with
  | zero => exact blaming_exhausted
  | succ levels =>
    intro s t fault h
    exact blaming_manyBounded .eof (blaming_statements levels).1 s.length h

end Grammar

end Scriptlet
