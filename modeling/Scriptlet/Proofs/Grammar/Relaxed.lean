import Scriptlet.Proofs.Grammar.Completeness

/-!
# The grammar with any target

Reading an assignment does not look at its target until its value has been read, so up to there any
equality may stand before the equals sign. The relaxed grammar allows that:

    assignment → equality ( "=" assignment )?

All other alternatives are those of the grammar. Only token lists matter here, so a derivation says
nothing of trees.

A phrase of the relaxed grammar is read to its end with levels enough, unless reading it fails for a
target (`Rule.Passes`).
-/

namespace Scriptlet

namespace Grammar

/-- The kinds of token that are operands of their own. -/
def operandKinds : List Token.Kind :=
  [.number, .string, .identifier, .trueWord, .falseWord, .nilWord]

/-- Tokens make up an expression of a symbol in the relaxed grammar. -/
inductive RelaxedExpr : ExprSymbol → List Token → Prop
  | expression {ts : List Token} :
      RelaxedExpr .assignment ts → RelaxedExpr .expression ts
  | assign {ts us : List Token} {equals : Token} :
      RelaxedExpr (.chain .equality) ts → equals.kind = .equal → RelaxedExpr .assignment us →
      RelaxedExpr .assignment (ts ++ equals :: us)
  | equality {ts : List Token} :
      RelaxedExpr (.chain .equality) ts → RelaxedExpr .assignment ts
  | operand {rule : Chain} {ts : List Token} :
      RelaxedExpr rule.operand ts → RelaxedExpr (.chain rule) ts
  | join {rule : Chain} {ts us : List Token} {operator : Token} :
      RelaxedExpr (.chain rule) ts → operator.kind ∈ rule.operators →
      RelaxedExpr rule.operand us → RelaxedExpr (.chain rule) (ts ++ operator :: us)
  | unary {operator : Token} {ts : List Token} :
      operator.kind = .bang ∨ operator.kind = .minus → RelaxedExpr .unary ts →
      RelaxedExpr .unary (operator :: ts)
  | primary {ts : List Token} :
      RelaxedExpr .primary ts → RelaxedExpr .unary ts
  | token {token : Token} :
      token.kind ∈ operandKinds → RelaxedExpr .primary [token]
  | group {left right : Token} {ts : List Token} :
      left.kind = .leftParen → RelaxedExpr .expression ts → right.kind = .rightParen →
      RelaxedExpr .primary (left :: ts ++ [right])

mutual

/-- Tokens make up a statement of a symbol in the relaxed grammar. -/
inductive RelaxedStmt : StmtSymbol → List Token → Prop
  | varDecl {ts : List Token} :
      RelaxedStmt .varDecl ts → RelaxedStmt .declaration ts
  | statement {ts : List Token} :
      RelaxedStmt .statement ts → RelaxedStmt .declaration ts
  | declare {word name semicolon : Token} :
      word.kind = .varWord → name.kind = .identifier → semicolon.kind = .semicolon →
      RelaxedStmt .varDecl [word, name, semicolon]
  | declareWith {word name equals semicolon : Token} {ts : List Token} :
      word.kind = .varWord → name.kind = .identifier → equals.kind = .equal →
      RelaxedExpr .expression ts → semicolon.kind = .semicolon →
      RelaxedStmt .varDecl (word :: name :: equals :: ts ++ [semicolon])
  | exprStmt {ts : List Token} :
      RelaxedStmt .exprStmt ts → RelaxedStmt .statement ts
  | printStmt {ts : List Token} :
      RelaxedStmt .printStmt ts → RelaxedStmt .statement ts
  | block {ts : List Token} :
      RelaxedStmt .block ts → RelaxedStmt .statement ts
  | expression {ts : List Token} {semicolon : Token} :
      RelaxedExpr .expression ts → semicolon.kind = .semicolon →
      RelaxedStmt .exprStmt (ts ++ [semicolon])
  | print {word semicolon : Token} {ts : List Token} :
      word.kind = .printWord → RelaxedExpr .expression ts → semicolon.kind = .semicolon →
      RelaxedStmt .printStmt (word :: ts ++ [semicolon])
  | braces {left right : Token} {ts : List Token} :
      left.kind = .leftBrace → RelaxedAll ts → right.kind = .rightBrace →
      RelaxedStmt .block (left :: ts ++ [right])

/-- Tokens make up declarations in the relaxed grammar, one after the other. -/
inductive RelaxedAll : List Token → Prop
  | nil : RelaxedAll []
  | cons {ts us : List Token} :
      RelaxedStmt .declaration ts → RelaxedAll us → RelaxedAll (ts ++ us)

end

/-- Tokens are declarations of the relaxed grammar and the mark that ends them. -/
def Relaxed (ts : List Token) : Prop :=
  ∃ body mark, ts = body ++ [mark] ∧ mark.kind = .eof ∧ RelaxedAll body

/-! ## What is derived is relaxed -/

/-- What is unary is an equality, by way of every chain. -/
theorem RelaxedExpr.equality_of_unary {ts : List Token} (h : RelaxedExpr .unary ts) :
    RelaxedExpr (.chain .equality) ts := by
  have hfactor : RelaxedExpr Chain.term.operand ts := RelaxedExpr.operand h
  have hterm : RelaxedExpr Chain.comparison.operand ts := RelaxedExpr.operand hfactor
  have hcomparison : RelaxedExpr Chain.equality.operand ts := RelaxedExpr.operand hterm
  exact .operand hcomparison

/-- An assignment to a name is one to an equality. -/
theorem DerivesExpr.relaxed {symbol : ExprSymbol} {ts : List Token} {e : Expr}
    (h : DerivesExpr symbol ts e) : RelaxedExpr symbol ts := by
  induction h with
  | expression _ ih => exact .expression ih
  | @assign name equals ts _ hname hequals _ ih =>
    have htoken : RelaxedExpr .primary [name] := .token (by rw [hname]; decide)
    exact .assign htoken.primary.equality_of_unary hequals ih
  | equality _ ih => exact .equality ih
  | operand _ ih => exact .operand ih
  | join _ hkind _ ihleft ihright => exact .join ihleft hkind ihright
  | unary hkind _ ih => exact .unary hkind ih
  | primary _ ih => exact .primary ih
  | datum hkind => exact .token (by rcases hkind with hkind | hkind <;> rw [hkind] <;> decide)
  | name hkind | trueWord hkind | falseWord hkind | nilWord hkind =>
    exact .token (by rw [hkind]; decide)
  | group hleft _ hright ih => exact .group hleft ih hright

mutual

theorem DerivesStmt.relaxed : ∀ {symbol : StmtSymbol} {ts : List Token} {s : Stmt},
    DerivesStmt symbol ts s → RelaxedStmt symbol ts
  | _, _, _, .varDecl h => .varDecl h.relaxed
  | _, _, _, .statement h => .statement h.relaxed
  | _, _, _, .exprStmt h => .exprStmt h.relaxed
  | _, _, _, .printStmt h => .printStmt h.relaxed
  | _, _, _, .block h => .block h.relaxed
  | _, _, _, .declare hword hname hsemicolon => .declare hword hname hsemicolon
  | _, _, _, .declareWith hword hname hequals h hsemicolon =>
    .declareWith hword hname hequals h.relaxed hsemicolon
  | _, _, _, .expression h hsemicolon => .expression h.relaxed hsemicolon
  | _, _, _, .print hword h hsemicolon => .print hword h.relaxed hsemicolon
  | _, _, _, .braces hleft h hright => .braces hleft h.relaxed hright

theorem DerivesAll.relaxed : ∀ {ts : List Token} {body : List Stmt},
    DerivesAll ts body → RelaxedAll ts
  | _, _, .nil => .nil
  | _, _, .cons h hrest => .cons h.relaxed hrest.relaxed

end

/-! ## First tokens, and no end marks -/

theorem RelaxedExpr.startsIn_of_primary {ts : List Token} (h : RelaxedExpr .primary ts) :
    StartsIn primaryStarts ts := by
  have hoperands : operandKinds ⊆ primaryStarts := by decide
  cases h with
  | token hkind => exact ⟨_, [], rfl, hoperands hkind⟩
  | group hkind _ _ => exact ⟨_, _, rfl, by rw [hkind]; decide⟩

/-- Relaxing targets does not change what an expression can start with. -/
theorem RelaxedExpr.startsIn {symbol : ExprSymbol} {ts : List Token} (h : RelaxedExpr symbol ts) :
    StartsIn expressionStarts ts := by
  have hprimary : primaryStarts ⊆ expressionStarts := by decide
  induction h with
  | expression _ ih => exact ih
  | assign _ _ _ ih _ => exact ih.append _
  | equality _ ih => exact ih
  | operand _ ih => exact ih
  | join _ _ _ ih _ => exact ih.append _
  | unary hkind _ _ =>
    exact ⟨_, _, rfl, by rcases hkind with hkind | hkind <;> rw [hkind] <;> decide⟩
  | primary _ ih => exact ih
  | token hkind => exact (RelaxedExpr.token hkind).startsIn_of_primary.mono hprimary
  | group hleft h hright _ =>
    exact (RelaxedExpr.group hleft h hright).startsIn_of_primary.mono hprimary

theorem RelaxedStmt.startsIn_of_statement {ts : List Token} (h : RelaxedStmt .statement ts) :
    StartsIn StmtSymbol.statement.starts ts := by
  cases h with
  | exprStmt h =>
    cases h with
    | expression h _ => exact (h.startsIn.append _).mono (by simp [StmtSymbol.starts])
  | printStmt h =>
    cases h with
    | print hkind _ _ => exact ⟨_, _, rfl, by rw [hkind]; decide⟩
  | block h =>
    cases h with
    | braces hkind _ _ => exact ⟨_, _, rfl, by rw [hkind]; decide⟩

theorem RelaxedStmt.startsIn {ts : List Token} (h : RelaxedStmt .declaration ts) :
    StartsIn StmtSymbol.declaration.starts ts := by
  cases h with
  | varDecl h =>
    cases h with
    | declare hkind _ _ => exact ⟨_, _, rfl, by rw [hkind]; decide⟩
    | declareWith hkind _ _ _ _ => exact ⟨_, _, rfl, by rw [hkind]; decide⟩
  | statement h => exact h.startsIn_of_statement.mono (List.subset_cons_self ..)

/-- There is no end mark among some tokens. -/
def Unended (ts : List Token) : Prop := ∀ t ∈ ts, t.kind ≠ .eof

@[simp]
theorem unended_nil : Unended [] := List.forall_mem_nil _

@[simp]
theorem unended_cons {t : Token} {ts : List Token} :
    Unended (t :: ts) ↔ t.kind ≠ .eof ∧ Unended ts :=
  List.forall_mem_cons

@[simp]
theorem unended_append {ts us : List Token} : Unended (ts ++ us) ↔ Unended ts ∧ Unended us :=
  List.forall_mem_append

theorem RelaxedExpr.unended {symbol : ExprSymbol} {ts : List Token} (h : RelaxedExpr symbol ts) :
    Unended ts := by
  induction h with
  | expression _ ih => exact ih
  | assign _ hkind _ ihleft ihright => simp [ihleft, hkind, ihright]
  | equality _ ih => exact ih
  | operand _ ih => exact ih
  | @join rule _ _ operator _ hkind _ ihleft ihright =>
    have hoperator : operator.kind ≠ .eof := by
      intro heof
      rw [heof] at hkind
      revert hkind
      cases rule <;> decide
    simp [ihleft, hoperator, ihright]
  | unary hkind _ ih => rcases hkind with hkind | hkind <;> simp [hkind, ih]
  | primary _ ih => exact ih
  | @token token hkind =>
    have hoperand : token.kind ≠ .eof := by
      intro heof
      rw [heof] at hkind
      revert hkind
      decide
    simp [hoperand]
  | group hleft _ hright ih => simp [hleft, ih, hright]

mutual

theorem RelaxedStmt.unended : ∀ {symbol : StmtSymbol} {ts : List Token},
    RelaxedStmt symbol ts → Unended ts
  | _, _, .varDecl h => h.unended
  | _, _, .statement h => h.unended
  | _, _, .exprStmt h => h.unended
  | _, _, .printStmt h => h.unended
  | _, _, .block h => h.unended
  | _, _, .declare hword hname hsemicolon => by simp [hword, hname, hsemicolon]
  | _, _, .declareWith hword hname hequals h hsemicolon => by
    simp [hword, hname, hequals, h.unended, hsemicolon]
  | _, _, .expression h hsemicolon => by simp [h.unended, hsemicolon]
  | _, _, .print hword h hsemicolon => by simp [hword, h.unended, hsemicolon]
  | _, _, .braces hleft h hright => by simp [hleft, h.unended, hright]

theorem RelaxedAll.unended : ∀ {ts : List Token}, RelaxedAll ts → Unended ts
  | _, .nil => unended_nil
  | _, .cons h hrest => unended_append.2 ⟨h.unended, hrest.unended⟩

end

end Grammar

/-! ## Getting past a phrase -/

namespace Rule

variable {α β : Type}

/-- A rule failed because of what stands before an equals sign. -/
def Mistargeted : EStateM.Result SyntaxFault (List Token) α → Prop
  | .ok _ _ => False
  | .error fault _ => fault.cause = .assignmentTarget

/-- A rule gets from some tokens to others, unless it fails for a target on the way. -/
def Passes (r : Rule α) (s t : List Token) : Prop :=
  (∃ a, r s = .ok a t) ∨ Mistargeted (r s)

theorem mistargeted_bind {r : Rule α} {s : List Token} (next : α → Rule β)
    (h : Mistargeted (r s)) : Mistargeted ((r >>= next) s) := by
  rw [bind_apply]
  cases hrs : r s with
  | ok a t =>
    rw [hrs] at h
    exact h.elim
  | error fault t =>
    rw [hrs] at h
    exact h

theorem passes_pure (a : α) (s : List Token) : Passes (pure a) s s := .inl ⟨a, rfl⟩

theorem passes_expect {kind : Token.Kind} (cause : SyntaxFault.Cause) {t : Token}
    (s : List Token) (h : t.kind = kind) : Passes (expect kind cause) (t :: s) s :=
  .inl ⟨t, expect_of_kind h⟩

/-- After a rule that is known to succeed there is one case left. -/
theorem passes_bind_of_ok {r : Rule α} {next : α → Rule β} {s t u : List Token} {a : α}
    (h : r s = .ok a t) (hnext : Passes (next a) t u) : Passes (r >>= next) s u := by
  unfold Passes
  rw [bind_of_ok h]
  exact hnext

/-- A sequence passes if its parts do, or it fails for the first target that is wrong. -/
theorem Passes.bind {r : Rule α} {next : α → Rule β} {s t u : List Token} (h : Passes r s t)
    (hnext : ∀ a, Passes (next a) t u) : Passes (r >>= next) s u := by
  rcases h with ⟨a, ha⟩ | h
  · exact passes_bind_of_ok ha (hnext a)
  · exact .inr (mistargeted_bind next h)

end Rule

namespace Grammar

open Rule

/-- With levels enough, tokens are passed as an expression before anything that does not continue
it. -/
def PassesExpr (symbol : ExprSymbol) (ts : List Token) : Prop :=
  ∃ n, ∀ m, n ≤ m → ∀ rest, Stops symbol.extenders rest →
    Passes (symbol.rule m) (ts ++ rest) rest

/-- With levels enough, tokens are passed as the left end of a chain before anything that does not
continue an operand. -/
def PassesChain (c : Chain) (ts : List Token) : Prop :=
  ∃ n, ∀ m, n ≤ m → ∀ rest, Stops c.operand.extenders rest →
    (∃ e, chain c.operators (c.operand.rule m) (ts ++ rest) =
        chainBounded c.operators (c.operand.rule m) rest.length e rest) ∨
      Mistargeted (chain c.operators (c.operand.rule m) (ts ++ rest))

theorem PassesChain.passes {c : Chain} {ts : List Token} (h : PassesChain c ts) :
    PassesExpr (.chain c) ts := by
  obtain ⟨n, h⟩ := h
  refine ⟨n + 2, ?_⟩
  intro m hm rest hrest
  obtain ⟨m, rfl⟩ : ∃ k, m = k + 2 := ⟨m - 2, by omega⟩
  have hoperators : c.operators ⊆ c.extenders := by
    rw [c.extenders_eq]
    exact List.subset_append_left ..
  have hoperand : c.operand.extenders ⊆ c.extenders := by
    rw [c.extenders_eq]
    exact List.subset_append_right ..
  change Passes (c.rule (m + 2)) (ts ++ rest) rest
  rw [c.rule_add_two]
  rcases h m (by omega) rest (hrest.mono hoperand) with ⟨e, he⟩ | h
  · refine .inl ⟨e, ?_⟩
    rw [he]
    exact chainBounded_of_stops (hrest.mono hoperators) _
  · exact .inr h

theorem PassesExpr.passesChain {c : Chain} {ts : List Token} (h : PassesExpr c.operand ts) :
    PassesChain c ts := by
  obtain ⟨n, h⟩ := h
  refine ⟨n, ?_⟩
  intro m hm rest hrest
  rcases h m hm rest hrest with ⟨e, he⟩ | h
  · refine .inl ⟨e, ?_⟩
    unfold chain
    rw [bind_of_ok he]
    rfl
  · exact .inr (mistargeted_bind _ h)

/-- The operator continues no operand, so the left side ends before it. -/
theorem PassesChain.join {c : Chain} {ts us : List Token} {operator : Token}
    (hleft : PassesChain c ts) (hkind : operator.kind ∈ c.operators)
    (hright : PassesExpr c.operand us) : PassesChain c (ts ++ operator :: us) := by
  obtain ⟨n, hleft⟩ := hleft
  obtain ⟨k, hright⟩ := hright
  refine ⟨max n k, ?_⟩
  intro m hm rest hrest
  have hnext : Stops c.operand.extenders (operator :: (us ++ rest)) :=
    stops_cons.2 (Chain.not_mem_operand_extenders hkind)
  rw [List.append_assoc, List.cons_append]
  rcases hleft m (by omega) _ hnext with ⟨left, hleft⟩ | hleft
  · rw [hleft]
    rcases hright m (by omega) rest hrest with ⟨right, hright⟩ | hright
    · exact .inl ⟨_, chainBounded_cons (c.operand.sound m) hkind hright⟩
    · right
      rw [List.length_cons, chainBounded, bind_of_ok (accept?_of_mem hkind)]
      exact mistargeted_bind _ hright
  · exact .inr hleft

theorem PassesExpr.expression {ts : List Token} (h : PassesExpr .assignment ts) :
    PassesExpr .expression ts := by
  obtain ⟨n, h⟩ := h
  refine ⟨n + 1, ?_⟩
  intro m hm rest hrest
  obtain ⟨m, rfl⟩ : ∃ k, m = k + 1 := ⟨m - 1, by omega⟩
  exact h m (by omega) rest hrest

/-- Without an equals sign no target is looked at. -/
theorem PassesExpr.equality {ts : List Token} (h : PassesExpr (.chain .equality) ts) :
    PassesExpr .assignment ts := by
  obtain ⟨n, h⟩ := h
  refine ⟨n + 1, ?_⟩
  intro m hm rest hrest
  obtain ⟨m, rfl⟩ : ∃ k, m = k + 1 := ⟨m - 1, by omega⟩
  have hequal : Stops [.equal] rest := hrest.mono (by decide)
  change Passes (Grammar.assignment (m + 1)) (ts ++ rest) rest
  rw [Grammar.assignment]
  refine (h m (by omega) rest (hrest.mono (List.subset_cons_self ..))).bind fun left => ?_
  exact passes_bind_of_ok (accept?_of_stops hequal) (passes_pure left rest)

/-- An assignment is read to the end of its value before its target counts. -/
theorem PassesExpr.assign {ts us : List Token} {equals : Token}
    (hleft : PassesExpr (.chain .equality) ts) (hequals : equals.kind = .equal)
    (hright : PassesExpr .assignment us) : PassesExpr .assignment (ts ++ equals :: us) := by
  obtain ⟨n, hleft⟩ := hleft
  obtain ⟨k, hright⟩ := hright
  refine ⟨max n k + 1, ?_⟩
  intro m hm rest hrest
  obtain ⟨m, rfl⟩ : ∃ k, m = k + 1 := ⟨m - 1, by omega⟩
  have hstops : Stops (ExprSymbol.chain .equality).extenders (equals :: (us ++ rest)) := by
    rw [stops_cons, hequals]
    decide
  rw [List.append_assoc, List.cons_append]
  change Passes (Grammar.assignment (m + 1)) (ts ++ equals :: (us ++ rest)) rest
  rw [Grammar.assignment]
  refine (hleft m (by omega) _ hstops).bind fun left => ?_
  refine passes_bind_of_ok (accept?_of_mem (by simp [hequals])) ?_
  refine (hright m (by omega) rest hrest).bind fun value => ?_
  cases left with
  | read name => exact passes_pure _ rest
  | _ => exact .inr rfl

theorem PassesExpr.unary {operator : Token} {ts : List Token}
    (hkind : operator.kind = .bang ∨ operator.kind = .minus) (h : PassesExpr .unary ts) :
    PassesExpr .unary (operator :: ts) := by
  obtain ⟨n, h⟩ := h
  refine ⟨n + 1, ?_⟩
  intro m hm rest hrest
  obtain ⟨m, rfl⟩ : ∃ k, m = k + 1 := ⟨m - 1, by omega⟩
  have hmem : operator.kind ∈ unaryOperators := by simpa [unaryOperators] using hkind
  change Passes (Grammar.unary (m + 1)) (operator :: (ts ++ rest)) rest
  rw [Grammar.unary]
  refine passes_bind_of_ok (accept?_of_mem hmem) ?_
  exact (h m (by omega) rest hrest).bind fun right => passes_pure _ rest

theorem PassesExpr.primary {ts : List Token} (hstart : StartsIn primaryStarts ts)
    (h : PassesExpr .primary ts) : PassesExpr .unary ts := by
  obtain ⟨n, h⟩ := h
  refine ⟨n + 1, ?_⟩
  intro m hm rest hrest
  obtain ⟨m, rfl⟩ : ∃ k, m = k + 1 := ⟨m - 1, by omega⟩
  have hstops : Stops unaryOperators (ts ++ rest) := (hstart.append rest).stops (by decide)
  change Passes (Grammar.unary (m + 1)) (ts ++ rest) rest
  rw [Grammar.unary]
  exact passes_bind_of_ok (accept?_of_stops hstops) (h m (by omega) rest hrest)

/-- A token that is an operand of its own is read like one of the grammar. -/
theorem exists_derives_token {token : Token} (h : token.kind ∈ operandKinds) :
    ∃ e, DerivesExpr .primary [token] e := by
  simp only [operandKinds, List.mem_cons, List.not_mem_nil, or_false] at h
  rcases h with h | h | h | h | h | h
  · exact ⟨_, .datum (.inl h)⟩
  · exact ⟨_, .datum (.inr h)⟩
  · exact ⟨_, .name h⟩
  · exact ⟨_, .trueWord h⟩
  · exact ⟨_, .falseWord h⟩
  · exact ⟨_, .nilWord h⟩

theorem passesExpr_token {token : Token} (h : token.kind ∈ operandKinds) :
    PassesExpr .primary [token] := by
  obtain ⟨e, he⟩ := exists_derives_token h
  obtain ⟨n, hread⟩ := reads_token he
  exact ⟨n, fun m hm rest hrest => .inl ⟨e, hread m hm rest hrest⟩⟩

theorem PassesExpr.group {left right : Token} {ts : List Token} (hleft : left.kind = .leftParen)
    (h : PassesExpr .expression ts) (hright : right.kind = .rightParen) :
    PassesExpr .primary (left :: ts ++ [right]) := by
  obtain ⟨n, h⟩ := h
  refine ⟨n + 1, ?_⟩
  intro m hm rest _
  obtain ⟨m, rfl⟩ : ∃ k, m = k + 1 := ⟨m - 1, by omega⟩
  have hstops : Stops ExprSymbol.expression.extenders (right :: rest) := by
    rw [stops_cons, hright]
    decide
  have hsplit : left :: ts ++ [right] ++ rest = left :: (ts ++ right :: rest) := by simp
  rw [hsplit]
  change Passes (Grammar.primary (m + 1)) (left :: (ts ++ right :: rest)) rest
  rw [Grammar.primary]
  refine passes_bind_of_ok (accept?_of_mem (by rw [hleft]; decide)) ?_
  simp only [hleft]
  refine Passes.bind (h m (by omega) _ hstops) fun inner => ?_
  exact (passes_expect _ rest hright).bind fun _ => passes_pure _ rest

/-- What an induction on derivations shows: chains keep open what follows them. -/
def PassesAs : ExprSymbol → List Token → Prop
  | .chain c, ts => PassesChain c ts
  | symbol, ts => PassesExpr symbol ts

theorem PassesAs.passes {symbol : ExprSymbol} {ts : List Token} (h : PassesAs symbol ts) :
    PassesExpr symbol ts := by
  cases symbol with
  | chain c => exact PassesChain.passes h
  | _ => exact h

theorem RelaxedExpr.passes {symbol : ExprSymbol} {ts : List Token} (h : RelaxedExpr symbol ts) :
    PassesExpr symbol ts := by
  suffices PassesAs symbol ts from this.passes
  induction h with
  | expression _ ih => exact ih.passes.expression
  | assign _ hequals _ ihleft ihright => exact ihleft.passes.assign hequals ihright.passes
  | equality _ ih => exact ih.passes.equality
  | operand _ ih => exact ih.passes.passesChain
  | join _ hkind _ ihleft ihright => exact PassesChain.join ihleft hkind ihright.passes
  | unary hkind _ ih => exact ih.passes.unary hkind
  | primary h ih => exact ih.passes.primary h.startsIn_of_primary
  | token hkind => exact passesExpr_token hkind
  | group hleft _ hright ih => exact ih.passes.group hleft hright

/-- An expression before a semicolon is passed with it. -/
theorem RelaxedExpr.passes_semicolon {ts : List Token} (h : RelaxedExpr .expression ts)
    {semicolon : Token} (hkind : semicolon.kind = .semicolon) (cause : SyntaxFault.Cause) :
    ∃ n, ∀ m, n ≤ m → ∀ (rest : List Token) (α : Type) (finish : Expr → α),
      Passes (do
        let value ← Grammar.expression m
        let _ ← expect .semicolon cause
        pure (finish value)) (ts ++ semicolon :: rest) rest := by
  obtain ⟨n, h⟩ := h.passes
  refine ⟨n, ?_⟩
  intro m hm rest α finish
  have hstops : Stops ExprSymbol.expression.extenders (semicolon :: rest) := by
    rw [stops_cons, hkind]
    decide
  refine Passes.bind (h m hm _ hstops) fun value => ?_
  exact (passes_expect cause rest hkind).bind fun _ => passes_pure _ rest

/-! ## Statements -/

/-- With levels enough, tokens are passed as a statement before anything. -/
def PassesStmt (symbol : StmtSymbol) (ts : List Token) : Prop :=
  ∃ n, ∀ m, n ≤ m → ∀ rest, Passes (symbol.rule m) (ts ++ rest) rest

/-- With levels enough, tokens are passed as declarations before what ends them. -/
def PassesAll (ts : List Token) : Prop :=
  ∃ n, ∀ m, n ≤ m → ∀ stop ∈ [Token.Kind.rightBrace, .eof], ∀ rest,
    (∀ t ∈ rest.head?, t.kind = stop) →
      Passes (many stop (Grammar.declaration m)) (ts ++ rest) rest

theorem PassesStmt.statement {ts : List Token} (hstart : StartsIn StmtSymbol.statement.starts ts)
    (h : PassesStmt .statement ts) : PassesStmt .declaration ts := by
  obtain ⟨n, h⟩ := h
  refine ⟨n + 1, ?_⟩
  intro m hm rest
  obtain ⟨m, rfl⟩ : ∃ k, m = k + 1 := ⟨m - 1, by omega⟩
  have hstops : Stops [.varWord] (ts ++ rest) := (hstart.append rest).stops (by decide)
  change Passes (Grammar.declaration (m + 1)) (ts ++ rest) rest
  rw [Grammar.declaration]
  exact passes_bind_of_ok (accept?_of_stops hstops) (h m (by omega) rest)

theorem passesStmt_declare {word name semicolon : Token} (hword : word.kind = .varWord)
    (hname : name.kind = .identifier) (hsemicolon : semicolon.kind = .semicolon) :
    PassesStmt .varDecl [word, name, semicolon] := by
  obtain ⟨n, h⟩ := (DerivesStmt.declare hword hname hsemicolon).reads
  exact ⟨n, fun m hm rest => .inl ⟨_, h m hm rest⟩⟩

/-- The initial value may be an assignment with a wrong target, so it is passed and not read. -/
theorem passesStmt_declareWith {word name equals semicolon : Token} {ts : List Token}
    (hword : word.kind = .varWord) (hname : name.kind = .identifier)
    (hequals : equals.kind = .equal) (h : RelaxedExpr .expression ts)
    (hsemicolon : semicolon.kind = .semicolon) :
    PassesStmt .varDecl (word :: name :: equals :: ts ++ [semicolon]) := by
  obtain ⟨n, h⟩ := h.passes_semicolon hsemicolon .semicolonAfterDeclaration
  refine ⟨n + 2, ?_⟩
  intro m hm rest
  obtain ⟨m, rfl⟩ : ∃ k, m = k + 2 := ⟨m - 2, by omega⟩
  have hsplit : word :: name :: equals :: ts ++ [semicolon] ++ rest =
      word :: name :: equals :: (ts ++ semicolon :: rest) := by simp
  rw [hsplit]
  change Passes (Grammar.declaration (m + 2)) _ rest
  rw [Grammar.declaration]
  refine passes_bind_of_ok (accept?_of_mem (by simp [hword])) ?_
  simp only [varDeclaration]
  refine passes_bind_of_ok (expect_of_kind hname) ?_
  refine passes_bind_of_ok (accept?_of_mem (by simp [hequals])) ?_
  exact h m (by omega) rest Stmt fun initial => .declare name (some initial)

theorem passesStmt_expression {ts : List Token} {semicolon : Token}
    (h : RelaxedExpr .expression ts) (hsemicolon : semicolon.kind = .semicolon) :
    PassesStmt .exprStmt (ts ++ [semicolon]) := by
  have hstart := h.startsIn
  obtain ⟨n, h⟩ := h.passes_semicolon hsemicolon .semicolonAfterExpression
  refine ⟨n + 2, ?_⟩
  intro m hm rest
  obtain ⟨m, rfl⟩ : ∃ k, m = k + 2 := ⟨m - 2, by omega⟩
  have hstops : Stops [.printWord, .leftBrace] (ts ++ semicolon :: rest) :=
    (hstart.append _).stops (by decide)
  rw [List.append_assoc, List.singleton_append]
  change Passes (Grammar.statement (m + 2)) _ rest
  rw [Grammar.statement]
  exact passes_bind_of_ok (accept?_of_stops hstops) (h m (by omega) rest Stmt .expression)

theorem passesStmt_print {word semicolon : Token} {ts : List Token}
    (hword : word.kind = .printWord) (h : RelaxedExpr .expression ts)
    (hsemicolon : semicolon.kind = .semicolon) :
    PassesStmt .printStmt (word :: ts ++ [semicolon]) := by
  obtain ⟨n, h⟩ := h.passes_semicolon hsemicolon .semicolonAfterValue
  refine ⟨n + 2, ?_⟩
  intro m hm rest
  obtain ⟨m, rfl⟩ : ∃ k, m = k + 2 := ⟨m - 2, by omega⟩
  have hsplit : word :: ts ++ [semicolon] ++ rest = word :: (ts ++ semicolon :: rest) := by simp
  rw [hsplit]
  change Passes (Grammar.statement (m + 2)) _ rest
  rw [Grammar.statement]
  refine passes_bind_of_ok (accept?_of_mem (by simp [hword])) ?_
  simp only [hword, ↓reduceIte]
  exact h m (by omega) rest Stmt .print

theorem PassesAll.braces {left right : Token} {ts : List Token} (hleft : left.kind = .leftBrace)
    (h : PassesAll ts) (hright : right.kind = .rightBrace) :
    PassesStmt .block (left :: ts ++ [right]) := by
  obtain ⟨n, h⟩ := h
  refine ⟨n + 2, ?_⟩
  intro m hm rest
  obtain ⟨m, rfl⟩ : ∃ k, m = k + 2 := ⟨m - 2, by omega⟩
  have hbody : Passes (many .rightBrace (Grammar.declaration m)) (ts ++ right :: rest)
      (right :: rest) := h m (by omega) .rightBrace (by simp) _ (by simp [hright])
  have hsplit : left :: ts ++ [right] ++ rest = left :: (ts ++ right :: rest) := by simp
  have hprint : left.kind ≠ .printWord := by simp [hleft]
  rw [hsplit]
  change Passes (Grammar.statement (m + 2)) _ rest
  rw [Grammar.statement]
  refine passes_bind_of_ok (accept?_of_mem (by simp [hleft])) ?_
  simp only [hprint, ↓reduceIte, block]
  refine Passes.bind (hbody.bind fun body => ?_) fun _ => passes_pure _ rest
  exact (passes_expect _ rest hright).bind fun _ => passes_pure _ rest

theorem passesAll_nil : PassesAll [] :=
  ⟨0, fun _ _ _ _ _ hstop => .inl ⟨[], many_of_stop hstop⟩⟩

/-- If the first declaration fails for a target, so does the whole list. -/
theorem PassesAll.cons {ts us : List Token} (hstart : StartsIn StmtSymbol.declaration.starts ts)
    (h : PassesStmt .declaration ts) (hrest : PassesAll us) : PassesAll (ts ++ us) := by
  obtain ⟨n, h⟩ := h
  obtain ⟨k, hrest⟩ := hrest
  refine ⟨max n k, ?_⟩
  intro m hm stop hstop more hmore
  obtain ⟨t, vs, rfl, hkind⟩ := hstart
  have hne : t.kind ≠ stop := by
    rintro rfl
    revert hkind hstop
    cases t.kind <;> decide
  have hfirst : Passes (Grammar.declaration m) (t :: (vs ++ (us ++ more))) (us ++ more) :=
    h m (by omega) (us ++ more)
  rw [List.append_assoc, List.cons_append]
  unfold Passes
  rcases hfirst with ⟨s, hs⟩ | hfirst
  · rw [many_of_ok (sound_statements m).1 DerivesStmt.length_pos hne hs]
    exact (hrest m (by omega) stop hstop more hmore).bind fun body => passes_pure (s :: body) more
  · right
    simp only [many, bind_apply, get_apply, List.length_cons, manyBounded, next?_apply,
      List.head?_cons, Option.map_some, hne, ↓reduceIte]
    cases hs : Grammar.declaration m (t :: (vs ++ (us ++ more))) with
    | ok s u =>
      rw [hs] at hfirst
      exact hfirst.elim
    | error fault u =>
      rw [hs] at hfirst
      exact hfirst

mutual

theorem RelaxedStmt.passes : ∀ {symbol : StmtSymbol} {ts : List Token},
    RelaxedStmt symbol ts → PassesStmt symbol ts
  | _, _, .varDecl h => h.passes
  | _, _, .statement h => h.passes.statement h.startsIn_of_statement
  | _, _, .exprStmt h => h.passes
  | _, _, .printStmt h => h.passes
  | _, _, .block h => h.passes
  | _, _, .declare hword hname hsemicolon => passesStmt_declare hword hname hsemicolon
  | _, _, .declareWith hword hname hequals h hsemicolon =>
    passesStmt_declareWith hword hname hequals h hsemicolon
  | _, _, .expression h hsemicolon => passesStmt_expression h hsemicolon
  | _, _, .print hword h hsemicolon => passesStmt_print hword h hsemicolon
  | _, _, .braces hleft h hright => h.passes.braces hleft hright

theorem RelaxedAll.passes : ∀ {ts : List Token}, RelaxedAll ts → PassesAll ts
  | _, .nil => passesAll_nil
  | _, .cons h hrest => hrest.passes.cons h.startsIn h.passes

end

/-- With levels enough, declarations of the relaxed grammar are read to their end or fail for a
target. -/
theorem RelaxedAll.passes_program {ts : List Token} (h : RelaxedAll ts) :
    ∃ n, ∀ m, n ≤ m → Passes (program m) ts [] := by
  obtain ⟨n, h⟩ := h.passes
  refine ⟨n + 1, ?_⟩
  intro m hm
  obtain ⟨m, rfl⟩ : ∃ k, m = k + 1 := ⟨m - 1, by omega⟩
  have hread := h m (by omega) .eof (by simp) [] (by simp)
  rw [List.append_nil] at hread
  exact hread

end Grammar

end Scriptlet
