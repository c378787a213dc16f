import Scriptlet.Proofs.Grammar.Rules

/-!
# What is read is derived

A rule that succeeds leaves the tokens after a phrase, and the tokens it took derive what it gives
back. The proof goes by the number of levels, all rules at once, since every rule opens the others
with fewer levels.
-/

namespace Scriptlet

namespace Rule

variable {α : Type}

/-- Whatever a rule reads is made up of the tokens that it takes. -/
def Sound (r : Rule α) (Made : List Token → α → Prop) : Prop :=
  ∀ ⦃s t : List Token⦄ ⦃a : α⦄, r s = .ok a t → ∃ used, s = used ++ t ∧ Made used a

/-- Adding operands one by one keeps whatever adding one operand keeps. -/
theorem sound_chainBounded {operators : List Token.Kind} {operand : Rule Expr}
    {Operand Joined : List Token → Expr → Prop} (hoperand : Sound operand Operand)
    (hjoin : ∀ {us vs : List Token} {operator : Token} {left right : Expr}, Joined us left →
      operator.kind ∈ operators → Operand vs right →
      Joined (us ++ operator :: vs) (.binary left operator right))
    (bound : Nat) {us : List Token} {left : Expr} (hleft : Joined us left) :
    Sound (chainBounded operators operand bound left) fun used e => Joined (us ++ used) e := by
  induction bound generalizing us left with
  | zero =>
    intro s t e h
    cases h
    exact ⟨[], rfl, by simpa using hleft⟩
  | succ bound ih =>
    intro s t e h
    simp only [chainBounded] at h
    rw [bind_eq_ok] at h
    obtain ⟨found, u, hfound, h⟩ := h
    cases found with
    | none =>
      obtain ⟨rfl, -⟩ := accept?_eq_none hfound
      cases h
      exact ⟨[], rfl, by simpa using hleft⟩
    | some operator =>
      obtain ⟨rfl, hkind⟩ := accept?_eq_some hfound
      rw [bind_eq_ok] at h
      obtain ⟨right, v, hright, h⟩ := h
      obtain ⟨vs, rfl, hvs⟩ := hoperand hright
      obtain ⟨rest, rfl, hrest⟩ := ih (hjoin hleft hkind hvs) h
      exact ⟨operator :: vs ++ rest, by simp, by simpa using hrest⟩

/-- A chain starts with a single operand. -/
theorem sound_chain {operators : List Token.Kind} {operand : Rule Expr}
    {Operand Joined : List Token → Expr → Prop} (hoperand : Sound operand Operand)
    (hsingle : ∀ {us : List Token} {e : Expr}, Operand us e → Joined us e)
    (hjoin : ∀ {us vs : List Token} {operator : Token} {left right : Expr}, Joined us left →
      operator.kind ∈ operators → Operand vs right →
      Joined (us ++ operator :: vs) (.binary left operator right)) :
    Sound (chain operators operand) Joined := by
  intro s t e h
  unfold chain at h
  rw [bind_eq_ok] at h
  obtain ⟨left, u, hleft, h⟩ := h
  obtain ⟨us, rfl, hus⟩ := hoperand hleft
  obtain ⟨rest, rfl, hrest⟩ := sound_chainBounded hoperand hjoin u.length (hsingle hus) h
  exact ⟨us ++ rest, by simp, hrest⟩

/-- Reading until a stop takes what each phrase takes. A phrase takes a token at least, so the bound
is met only where the tokens end. -/
theorem sound_manyBounded {stop : Token.Kind} {phrase : Rule α} {Made : List Token → α → Prop}
    {All : List Token → List α → Prop} (hphrase : Sound phrase Made)
    (hpos : ∀ {us : List Token} {a : α}, Made us a → 0 < us.length) (hnil : All [] [])
    (hcons : ∀ {us vs : List Token} {a : α} {as : List α}, Made us a → All vs as →
      All (us ++ vs) (a :: as))
    (bound : Nat) {s t : List Token} {as : List α} (hbound : s.length ≤ bound)
    (h : manyBounded stop phrase bound s = .ok as t) :
    ∃ used, s = used ++ t ∧ All used as ∧ ∀ token ∈ t.head?, token.kind = stop := by
  induction bound generalizing s as with
  | zero =>
    obtain rfl : s = [] := List.length_eq_zero_iff.1 (by omega)
    cases h
    exact ⟨[], rfl, hnil, by simp⟩
  | succ bound ih =>
    simp only [manyBounded, bind_apply, next?_apply] at h
    cases s with
    | nil =>
      cases h
      exact ⟨[], rfl, hnil, by simp⟩
    | cons token rest =>
      by_cases hstop : token.kind = stop
      · simp only [List.head?_cons, Option.map_some, hstop, ↓reduceIte] at h
        cases h
        exact ⟨[], rfl, hnil, by simp [hstop]⟩
      · simp only [List.head?_cons, Option.map_some, hstop, ↓reduceIte] at h
        rw [bind_eq_ok] at h
        obtain ⟨a, u, hfirst, h⟩ := h
        obtain ⟨us, hus, hmade⟩ := hphrase hfirst
        have hlength : u.length ≤ bound := by
          have := hpos hmade
          have := congrArg List.length hus
          simp only [List.length_append] at this
          omega
        rw [bind_eq_ok] at h
        obtain ⟨as, v, hrest, h⟩ := h
        cases h
        obtain ⟨vs, rfl, hall, hend⟩ := ih hlength hrest
        exact ⟨us ++ vs, by rw [hus, List.append_assoc], hcons hmade hall, hend⟩

end Rule

namespace Grammar

open Rule

/-! ## Expressions -/

/-- A lone name is the only phrase that reads as a name. -/
theorem DerivesExpr.eq_singleton_of_read {symbol : ExprSymbol} {ts : List Token} {e : Expr}
    (h : DerivesExpr symbol ts e) {name : Token} (he : e = .read name) :
    ts = [name] ∧ name.kind = .identifier := by
  induction h with
  | expression _ ih => exact ih he
  | equality _ ih => exact ih he
  | operand _ ih => exact ih he
  | primary _ ih => exact ih he
  | name hk =>
    cases he
    exact ⟨rfl, hk⟩
  | _ => cases he

theorem sound_exhausted {α : Type} {Made : List Token → α → Prop} :
    Sound (exhausted : Rule α) Made := by
  intro s t a h
  cases h

section Levels

variable {levels : Nat}

/-- The left side has been read as an equality, and is a name alone if it is accepted as a
target. -/
theorem sound_assignment
    (hequality : Sound (Grammar.equality levels) (DerivesExpr (.chain .equality)))
    (hassignment : Sound (Grammar.assignment levels) (DerivesExpr .assignment)) :
    Sound (Grammar.assignment (levels + 1)) (DerivesExpr .assignment) := by
  intro s t e h
  simp only [Grammar.assignment] at h
  rw [bind_eq_ok] at h
  obtain ⟨left, u, hleft, h⟩ := h
  obtain ⟨us, rfl, hus⟩ := hequality hleft
  rw [bind_eq_ok] at h
  obtain ⟨found, v, hfound, h⟩ := h
  cases found with
  | none =>
    obtain ⟨rfl, -⟩ := accept?_eq_none hfound
    cases h
    exact ⟨us, rfl, .equality hus⟩
  | some equals =>
    obtain ⟨rfl, hkind⟩ := accept?_eq_some hfound
    rw [bind_eq_ok] at h
    obtain ⟨value, w, hvalue, h⟩ := h
    obtain ⟨vs, rfl, hvs⟩ := hassignment hvalue
    cases left with
    | read name =>
      cases h
      -- The target was read as an equality, and only a lone name gives a name.
      obtain ⟨rfl, hname⟩ := hus.eq_singleton_of_read rfl
      exact ⟨name :: equals :: vs, by simp, .assign hname (List.mem_singleton.1 hkind) hvs⟩
    | _ => cases h

theorem sound_unary (hunary : Sound (Grammar.unary levels) (DerivesExpr .unary))
    (hprimary : Sound (Grammar.primary levels) (DerivesExpr .primary)) :
    Sound (Grammar.unary (levels + 1)) (DerivesExpr .unary) := by
  intro s t e h
  simp only [Grammar.unary] at h
  rw [bind_eq_ok] at h
  obtain ⟨found, u, hfound, h⟩ := h
  cases found with
  | none =>
    obtain ⟨rfl, -⟩ := accept?_eq_none hfound
    obtain ⟨us, rfl, hus⟩ := hprimary h
    exact ⟨us, rfl, .primary hus⟩
  | some operator =>
    obtain ⟨rfl, hkind⟩ := accept?_eq_some hfound
    rw [bind_eq_ok] at h
    obtain ⟨right, v, hright, h⟩ := h
    cases h
    obtain ⟨us, rfl, hus⟩ := hunary hright
    exact ⟨operator :: us, rfl, .unary (by simpa [unaryOperators] using hkind) hus⟩

/-- One case for each alternative, which the first token tells apart. -/
theorem sound_primary (hexpression : Sound (Grammar.expression levels) (DerivesExpr .expression)) :
    Sound (Grammar.primary (levels + 1)) (DerivesExpr .primary) := by
  intro s t e h
  simp only [Grammar.primary] at h
  rw [bind_eq_ok] at h
  obtain ⟨found, u, hfound, h⟩ := h
  cases found with
  | none => cases h
  | some token =>
    obtain ⟨rfl, hstart⟩ := accept?_eq_some hfound
    cases hkind : token.kind <;> simp only [hkind] at h hstart
    case falseWord =>
      cases h
      exact ⟨[token], rfl, .falseWord hkind⟩
    case trueWord =>
      cases h
      exact ⟨[token], rfl, .trueWord hkind⟩
    case nilWord =>
      cases h
      exact ⟨[token], rfl, .nilWord hkind⟩
    case number =>
      cases h
      exact ⟨[token], rfl, .datum (.inl hkind)⟩
    case string =>
      cases h
      exact ⟨[token], rfl, .datum (.inr hkind)⟩
    case identifier =>
      cases h
      exact ⟨[token], rfl, .name hkind⟩
    case leftParen =>
      rw [bind_eq_ok] at h
      obtain ⟨inner, v, hinner, h⟩ := h
      obtain ⟨us, rfl, hus⟩ := hexpression hinner
      rw [bind_eq_ok] at h
      obtain ⟨close, w, hclose, h⟩ := h
      obtain ⟨rfl, hright⟩ := expect_eq_ok hclose
      cases h
      exact ⟨token :: us ++ [close], by simp, .group hkind hus hright⟩
    all_goals exact absurd hstart (by decide)

end Levels

/-- What a rule reads as an expression is derived from its symbol. -/
theorem ExprSymbol.sound (symbol : ExprSymbol) (levels : Nat) :
    Sound (symbol.rule levels) (DerivesExpr symbol) := by
  induction levels using Nat.strongRecOn generalizing symbol with
  | ind levels ih =>
    cases levels with
    | zero =>
      rw [symbol.rule_zero]
      exact sound_exhausted
    | succ levels =>
      cases symbol with
      | expression =>
        intro s t e h
        obtain ⟨us, rfl, hus⟩ := ih levels (by omega) .assignment h
        exact ⟨us, rfl, .expression hus⟩
      | assignment =>
        exact sound_assignment (ih levels (by omega) (.chain .equality))
          (ih levels (by omega) .assignment)
      | chain c =>
        cases levels with
        | zero =>
          change Sound (c.rule 1) _
          rw [c.rule_one]
          exact sound_exhausted
        | succ levels =>
          change Sound (c.rule (levels + 2)) _
          rw [c.rule_add_two]
          exact sound_chain (ih levels (by omega) c.operand) .operand .join
      | unary =>
        exact sound_unary (ih levels (by omega) .unary) (ih levels (by omega) .primary)
      | primary => exact sound_primary (ih levels (by omega) .expression)

/-! ## Statements -/

/-- No statement is made of no tokens. Loops over statements take at least one token a turn for this
reason. -/
theorem DerivesStmt.length_pos : ∀ {symbol : StmtSymbol} {ts : List Token} {s : Stmt},
    DerivesStmt symbol ts s → 0 < ts.length
  | _, _, _, .varDecl h => h.length_pos
  | _, _, _, .statement h => h.length_pos
  | _, _, _, .exprStmt h => h.length_pos
  | _, _, _, .printStmt h => h.length_pos
  | _, _, _, .block h => h.length_pos
  | _, _, _, .declare _ _ _ => by simp
  | _, _, _, .declareWith _ _ _ _ _ => by simp
  | _, _, _, .expression _ _ => by simp
  | _, _, _, .print _ _ _ => by simp
  | _, _, _, .braces _ _ _ => by simp

theorem sound_expressionStatement (levels : Nat) :
    Sound (expressionStatement levels) (DerivesStmt .exprStmt) := by
  cases levels with
  | zero => exact sound_exhausted
  | succ levels =>
    intro s t statement h
    simp only [expressionStatement] at h
    rw [bind_eq_ok] at h
    obtain ⟨value, u, hvalue, h⟩ := h
    obtain ⟨us, rfl, hus⟩ := ExprSymbol.expression.sound levels hvalue
    rw [bind_eq_ok] at h
    obtain ⟨semicolon, v, hsemicolon, h⟩ := h
    obtain ⟨rfl, hkind⟩ := expect_eq_ok hsemicolon
    cases h
    exact ⟨us ++ [semicolon], by simp, .expression hus hkind⟩

/-- What follows `print` makes a statement with it. -/
theorem sound_printStatement (levels : Nat) :
    Sound (printStatement levels) fun used statement => ∀ word : Token,
      word.kind = .printWord → DerivesStmt .printStmt (word :: used) statement := by
  cases levels with
  | zero => exact sound_exhausted
  | succ levels =>
    intro s t statement h
    simp only [printStatement] at h
    rw [bind_eq_ok] at h
    obtain ⟨value, u, hvalue, h⟩ := h
    obtain ⟨us, rfl, hus⟩ := ExprSymbol.expression.sound levels hvalue
    rw [bind_eq_ok] at h
    obtain ⟨semicolon, v, hsemicolon, h⟩ := h
    obtain ⟨rfl, hkind⟩ := expect_eq_ok hsemicolon
    cases h
    exact ⟨us ++ [semicolon], by simp, fun word hword => .print hword hus hkind⟩

/-- What follows `var` makes a declaration with it. -/
theorem sound_varDeclaration (levels : Nat) :
    Sound (varDeclaration levels) fun used statement => ∀ word : Token,
      word.kind = .varWord → DerivesStmt .varDecl (word :: used) statement := by
  cases levels with
  | zero => exact sound_exhausted
  | succ levels =>
    intro s t statement h
    simp only [varDeclaration] at h
    rw [bind_eq_ok] at h
    obtain ⟨name, u, hname, h⟩ := h
    obtain ⟨rfl, hidentifier⟩ := expect_eq_ok hname
    rw [bind_eq_ok] at h
    obtain ⟨found, v, hfound, h⟩ := h
    cases found with
    | none =>
      obtain ⟨rfl, -⟩ := accept?_eq_none hfound
      dsimp only at h
      rw [bind_eq_ok] at h
      obtain ⟨semicolon, w, hsemicolon, h⟩ := h
      obtain ⟨rfl, hkind⟩ := expect_eq_ok hsemicolon
      cases h
      exact ⟨[name, semicolon], rfl, fun word hword => .declare hword hidentifier hkind⟩
    | some equals =>
      obtain ⟨rfl, hequal⟩ := accept?_eq_some hfound
      dsimp only at h
      rw [bind_eq_ok] at h
      obtain ⟨initial, w, hinitial, h⟩ := h
      obtain ⟨us, rfl, hus⟩ := ExprSymbol.expression.sound levels hinitial
      rw [bind_eq_ok] at h
      obtain ⟨semicolon, x, hsemicolon, h⟩ := h
      obtain ⟨rfl, hkind⟩ := expect_eq_ok hsemicolon
      cases h
      exact ⟨name :: equals :: us ++ [semicolon], by simp, fun word hword =>
        .declareWith hword hidentifier (List.mem_singleton.1 hequal) hus hkind⟩

section Levels

variable {levels : Nat}

/-- The word for a declaration has been taken by then, and is put back in front. -/
theorem sound_declaration (hstatement : Sound (statement levels) (DerivesStmt .statement)) :
    Sound (declaration (levels + 1)) (DerivesStmt .declaration) := by
  intro s t st h
  simp only [declaration] at h
  rw [bind_eq_ok] at h
  obtain ⟨found, u, hfound, h⟩ := h
  cases found with
  | none =>
    obtain ⟨rfl, -⟩ := accept?_eq_none hfound
    obtain ⟨us, rfl, hus⟩ := hstatement h
    exact ⟨us, rfl, .statement hus⟩
  | some word =>
    obtain ⟨rfl, hword⟩ := accept?_eq_some hfound
    obtain ⟨us, rfl, hus⟩ := sound_varDeclaration levels h
    exact ⟨word :: us, rfl, .varDecl (hus word (List.mem_singleton.1 hword))⟩

theorem sound_statement (hblock : Sound (block levels) fun used body => ∀ left : Token,
      left.kind = .leftBrace → DerivesStmt .block (left :: used) (.block body)) :
    Sound (statement (levels + 1)) (DerivesStmt .statement) := by
  intro s t st h
  simp only [statement] at h
  rw [bind_eq_ok] at h
  obtain ⟨found, u, hfound, h⟩ := h
  cases found with
  | none =>
    obtain ⟨rfl, -⟩ := accept?_eq_none hfound
    obtain ⟨us, rfl, hus⟩ := sound_expressionStatement levels h
    exact ⟨us, rfl, .exprStmt hus⟩
  | some token =>
    obtain ⟨rfl, hkind⟩ := accept?_eq_some hfound
    by_cases hprint : token.kind = .printWord
    · simp only [hprint, ↓reduceIte] at h
      obtain ⟨us, rfl, hus⟩ := sound_printStatement levels h
      exact ⟨token :: us, rfl, .printStmt (hus token hprint)⟩
    · have hbrace : token.kind = .leftBrace := by simpa [hprint] using hkind
      simp only [hprint, ↓reduceIte] at h
      rw [bind_eq_ok] at h
      obtain ⟨body, v, hbody, h⟩ := h
      cases h
      obtain ⟨us, rfl, hus⟩ := hblock hbody
      exact ⟨token :: us, rfl, .block (hus token hbrace)⟩

/-- What follows an opening brace makes a block with it. -/
theorem sound_block (hdeclaration : Sound (declaration levels) (DerivesStmt .declaration)) :
    Sound (block (levels + 1)) fun used body => ∀ left : Token,
      left.kind = .leftBrace → DerivesStmt .block (left :: used) (.block body) := by
  intro s t body h
  simp only [block] at h
  rw [bind_eq_ok] at h
  obtain ⟨all, u, hall, h⟩ := h
  obtain ⟨us, rfl, hus, -⟩ := sound_manyBounded hdeclaration DerivesStmt.length_pos
    DerivesAll.nil DerivesAll.cons s.length (Nat.le_refl _) hall
  rw [bind_eq_ok] at h
  obtain ⟨close, v, hclose, h⟩ := h
  obtain ⟨rfl, hright⟩ := expect_eq_ok hclose
  cases h
  exact ⟨us ++ [close], by simp, fun left hleft => .braces hleft hus hright⟩

end Levels

/-- What the rules for statements read is derived. -/
theorem sound_statements (levels : Nat) :
    Sound (declaration levels) (DerivesStmt .declaration) ∧
      Sound (statement levels) (DerivesStmt .statement) ∧
      Sound (block levels) fun used body => ∀ left : Token,
        left.kind = .leftBrace → DerivesStmt .block (left :: used) (.block body) := by
  induction levels with
  | zero => exact ⟨sound_exhausted, sound_exhausted, sound_exhausted⟩
  | succ levels ih =>
    obtain ⟨hdeclaration, hstatement, hblock⟩ := ih
    exact ⟨sound_declaration hstatement, sound_statement hblock, sound_block hdeclaration⟩

/-- Tokens without an end mark that are read as a program derive it. -/
theorem derives_of_program {levels : Nat} {s t : List Token} {body : Program}
    (hs : ∀ token ∈ s, token.kind ≠ .eof) (h : program levels s = .ok body t) :
    Derives s body := by
  cases levels with
  | zero => cases h
  | succ levels =>
    obtain ⟨us, rfl, hus, hend⟩ := sound_manyBounded (sound_statements levels).1
      DerivesStmt.length_pos DerivesAll.nil DerivesAll.cons s.length (Nat.le_refl _) h
    cases t with
    | nil => simpa [Derives] using hus
    | cons token t => exact absurd (hend token rfl) (hs token (by simp))

end Grammar

end Scriptlet
