import Scriptlet.Program.Reading
import Scriptlet.Proofs.Grammar.Relabelling
import Scriptlet.Proofs.Grammar.Soundness

/-!
# What is derived is read

Tokens that derive an expression are read as that expression, whatever follows them, as long as what
follows could not continue it and there are levels enough. A chain is derived from its left end and
read from there as well: after the tokens of a chain, reading goes on as if the chain had been one
operand. Statements end by a token of their own, so that nothing needs to be known of what follows.

Reading with enough levels finds every derivation, so there is one at most; and reading with fewer
levels finds it too or runs out of them.
-/

namespace Scriptlet

namespace Rule

variable {α β : Type}

theorem map_apply (g : α → β) (r : Rule α) (s : List Token) :
    (g <$> r) s = match r s with
      | .ok a t => .ok (g a) t
      | .error fault t => .error fault t := by
  change EStateM.map g r s = _
  unfold EStateM.map
  cases r s <;> rfl

/-! ## The bounds of loops -/

/-- The bound of a chain does not matter as long as there are no more tokens than that. -/
theorem chainBounded_congr {operators : List Token.Kind} {operand : Rule Expr}
    {Made : List Token → Expr → Prop} (hoperand : Sound operand Made) {m n : Nat} {left : Expr}
    {s : List Token} (hm : s.length ≤ m) (hn : s.length ≤ n) :
    chainBounded operators operand m left s = chainBounded operators operand n left s := by
  induction m generalizing n left s with
  | zero =>
    obtain rfl : s = [] := List.length_eq_zero_iff.1 (by omega)
    cases n <;> rfl
  | succ m ih =>
    cases n with
    | zero =>
      obtain rfl : s = [] := List.length_eq_zero_iff.1 (by omega)
      rfl
    | succ n =>
      simp only [chainBounded, bind_apply]
      obtain ⟨operator, u, rfl, -, he⟩ | ⟨-, he⟩ := accept?_cases operators s
      · simp only [he, bind_apply]
        cases hright : operand u with
        | error fault t => rfl
        | ok right t =>
          obtain ⟨used, rfl, -⟩ := hoperand hright
          simp only [List.length_cons, List.length_append] at hm hn
          exact ih (by omega) (by omega)
      · simp only [he]

/-- A chain ends before a token that is none of its operators, however often it may still go on. -/
theorem chainBounded_of_stops {operators : List Token.Kind} {operand : Rule Expr} {left : Expr}
    {s : List Token} (h : Stops operators s) (bound : Nat) :
    chainBounded operators operand bound left s = .ok left s := by
  cases bound with
  | zero => rfl
  | succ bound =>
    unfold chainBounded
    rw [bind_of_ok (accept?_of_stops h)]
    rfl

/-- One operator and its right operand are taken at a time. -/
theorem chainBounded_cons {operators : List Token.Kind} {operand : Rule Expr}
    {Made : List Token → Expr → Prop} (hoperand : Sound operand Made) {left right : Expr}
    {operator : Token} {s t : List Token} (hkind : operator.kind ∈ operators)
    (hright : operand s = .ok right t) :
    chainBounded operators operand (operator :: s).length left (operator :: s) =
      chainBounded operators operand t.length (.binary left operator right) t := by
  rw [List.length_cons, chainBounded, bind_of_ok (accept?_of_mem hkind)]
  simp only
  rw [bind_of_ok hright]
  obtain ⟨used, rfl, -⟩ := hoperand hright
  exact chainBounded_congr hoperand (by simp) (Nat.le_refl _)

/-- The bound of a repetition does not matter as long as there are no more tokens than that. -/
theorem manyBounded_congr {stop : Token.Kind} {phrase : Rule α} {Made : List Token → α → Prop}
    (hphrase : Sound phrase Made)
    (hpos : ∀ {us : List Token} {a : α}, Made us a → 0 < us.length) {m n : Nat} {s : List Token}
    (hm : s.length ≤ m) (hn : s.length ≤ n) :
    manyBounded stop phrase m s = manyBounded stop phrase n s := by
  induction m generalizing n s with
  | zero =>
    obtain rfl : s = [] := List.length_eq_zero_iff.1 (by omega)
    cases n <;> rfl
  | succ m ih =>
    cases n with
    | zero =>
      obtain rfl : s = [] := List.length_eq_zero_iff.1 (by omega)
      rfl
    | succ n =>
      simp only [manyBounded, bind_apply, next?_apply]
      cases s.head?.map (·.kind) with
      | none => rfl
      | some kind =>
        simp only
        split
        · rfl
        · simp only [bind_apply]
          cases hfirst : phrase s with
          | error fault t => rfl
          | ok a t =>
            obtain ⟨used, rfl, hmade⟩ := hphrase hfirst
            have := hpos hmade
            simp only [List.length_append] at hm hn
            simp only [ih (show t.length ≤ m by omega) (show t.length ≤ n by omega)]

theorem manyBounded_of_stop {stop : Token.Kind} {phrase : Rule α} {s : List Token}
    (h : ∀ t ∈ s.head?, t.kind = stop) (bound : Nat) :
    manyBounded stop phrase bound s = .ok [] s := by
  cases bound with
  | zero => rfl
  | succ bound =>
    cases s with
    | nil => rfl
    | cons t s =>
      obtain rfl : t.kind = stop := h t rfl
      simp [manyBounded, bind_apply]

theorem many_of_stop {stop : Token.Kind} {phrase : Rule α} {s : List Token}
    (h : ∀ t ∈ s.head?, t.kind = stop) : many stop phrase s = .ok [] s :=
  manyBounded_of_stop h s.length

/-- One phrase is taken at a time. -/
theorem many_of_ok {stop : Token.Kind} {phrase : Rule α} {Made : List Token → α → Prop}
    (hphrase : Sound phrase Made)
    (hpos : ∀ {us : List Token} {a : α}, Made us a → 0 < us.length) {t : Token}
    {s u : List Token} {a : α} (hstop : t.kind ≠ stop) (h : phrase (t :: s) = .ok a u) :
    many stop phrase (t :: s) = (List.cons a <$> many stop phrase) u := by
  have hlength : u.length ≤ s.length := by
    obtain ⟨used, hused, hmade⟩ := hphrase h
    have := hpos hmade
    have := congrArg List.length hused
    simp only [List.length_append, List.length_cons] at this
    omega
  have hrest : manyBounded stop phrase s.length u = many stop phrase u :=
    manyBounded_congr hphrase hpos hlength (Nat.le_refl _)
  rw [map_apply, ← hrest]
  simp only [many, bind_apply, get_apply, List.length_cons, manyBounded, next?_apply,
    List.head?_cons, Option.map_some, hstop, ↓reduceIte, h]
  cases manyBounded stop phrase s.length u <;> rfl

end Rule

namespace Grammar

open Rule

/-! ## What may follow, and what comes first -/

/-- The kinds of token that would continue a chain. -/
def Chain.extenders : Chain → List Token.Kind
  | .factor => factor.operators
  | .term => term.operators ++ factor.operators
  | .comparison => comparison.operators ++ (term.operators ++ factor.operators)
  | .equality =>
    equality.operators ++ (comparison.operators ++ (term.operators ++ factor.operators))

/-- The kinds of token that would continue an expression of a symbol. -/
def ExprSymbol.extenders : ExprSymbol → List Token.Kind
  | .expression | .assignment => .equal :: Chain.equality.extenders
  | .chain rule => rule.extenders
  | .unary | .primary => []

/-- What continues a chain is one of its operators, or continues the operand that it ends with. -/
theorem Chain.extenders_eq (c : Chain) : c.extenders = c.operators ++ c.operand.extenders := by
  cases c <;> simp [extenders, operand, ExprSymbol.extenders]

/-- An operator of a chain continues none of its operands. -/
theorem Chain.not_mem_operand_extenders {c : Chain} {kind : Token.Kind}
    (h : kind ∈ c.operators) : kind ∉ c.operand.extenders := by
  revert kind
  cases c <;> decide

def expressionStarts : List Token.Kind := unaryOperators ++ primaryStarts

/-- The first of some tokens is of one of these kinds. -/
def StartsIn (kinds : List Token.Kind) (ts : List Token) : Prop :=
  ∃ t us, ts = t :: us ∧ t.kind ∈ kinds

theorem StartsIn.mono {kinds more : List Token.Kind} {ts : List Token} (h : StartsIn kinds ts)
    (hsub : kinds ⊆ more) : StartsIn more ts := by
  obtain ⟨t, us, rfl, hk⟩ := h
  exact ⟨t, us, rfl, hsub hk⟩

theorem StartsIn.append {kinds : List Token.Kind} {ts : List Token} (h : StartsIn kinds ts)
    (us : List Token) : StartsIn kinds (ts ++ us) := by
  obtain ⟨t, vs, rfl, hk⟩ := h
  exact ⟨t, vs ++ us, rfl, hk⟩

theorem StartsIn.stops {kinds others : List Token.Kind} {ts : List Token} (h : StartsIn kinds ts)
    (hdisjoint : ∀ k ∈ kinds, k ∉ others) : Stops others ts := by
  obtain ⟨t, us, rfl, hk⟩ := h
  exact stops_cons.2 (hdisjoint _ hk)

theorem DerivesExpr.startsIn_of_primary {ts : List Token} {e : Expr}
    (h : DerivesExpr .primary ts e) : StartsIn primaryStarts ts := by
  cases h with
  | datum hk => exact ⟨_, [], rfl, by rcases hk with hk | hk <;> rw [hk] <;> decide⟩
  | name hk => exact ⟨_, [], rfl, by rw [hk]; decide⟩
  | trueWord hk => exact ⟨_, [], rfl, by rw [hk]; decide⟩
  | falseWord hk => exact ⟨_, [], rfl, by rw [hk]; decide⟩
  | nilWord hk => exact ⟨_, [], rfl, by rw [hk]; decide⟩
  | group hk _ _ => exact ⟨_, _, rfl, by rw [hk]; decide⟩

/-- Every expression starts with an operand or with an operator before one. -/
theorem DerivesExpr.startsIn {symbol : ExprSymbol} {ts : List Token} {e : Expr}
    (h : DerivesExpr symbol ts e) : StartsIn expressionStarts ts := by
  have hprimary : primaryStarts ⊆ expressionStarts := by decide
  induction h with
  | expression _ ih => exact ih
  | equality _ ih => exact ih
  | operand _ ih => exact ih
  | primary _ ih => exact ih
  | join _ _ _ ih _ => exact ih.append _
  | assign hk _ _ _ => exact ⟨_, _, rfl, by rw [hk]; decide⟩
  | unary hk _ _ => exact ⟨_, _, rfl, by rcases hk with hk | hk <;> rw [hk] <;> decide⟩
  | datum hk => exact (DerivesExpr.datum hk).startsIn_of_primary.mono hprimary
  | name hk => exact (DerivesExpr.name hk).startsIn_of_primary.mono hprimary
  | trueWord hk => exact (DerivesExpr.trueWord hk).startsIn_of_primary.mono hprimary
  | falseWord hk => exact (DerivesExpr.falseWord hk).startsIn_of_primary.mono hprimary
  | nilWord hk => exact (DerivesExpr.nilWord hk).startsIn_of_primary.mono hprimary
  | group hl h hr _ => exact (DerivesExpr.group hl h hr).startsIn_of_primary.mono hprimary

/-! ## Expressions -/

/-- With levels enough, tokens are read as an expression before anything that does not continue
it. -/
def Reads (symbol : ExprSymbol) (ts : List Token) (e : Expr) : Prop :=
  ∃ n, ∀ m, n ≤ m → ∀ rest, Stops symbol.extenders rest →
    symbol.rule m (ts ++ rest) = .ok e rest

/-- With levels enough, tokens are read as the left end of a chain before anything that does not
continue an operand. -/
def ReadsChain (c : Chain) (ts : List Token) (e : Expr) : Prop :=
  ∃ n, ∀ m, n ≤ m → ∀ rest, Stops c.operand.extenders rest →
    chain c.operators (c.operand.rule m) (ts ++ rest) =
      chainBounded c.operators (c.operand.rule m) rest.length e rest

/-- Before anything that does not continue it, the left end of a chain is the whole chain. -/
theorem ReadsChain.reads {c : Chain} {ts : List Token} {e : Expr} (h : ReadsChain c ts e) :
    Reads (.chain c) ts e := by
  obtain ⟨n, h⟩ := h
  refine ⟨n + 2, fun m hm rest hrest => ?_⟩
  obtain ⟨m, rfl⟩ : ∃ k, m = k + 2 := ⟨m - 2, by omega⟩
  have hoperators : c.operators ⊆ c.extenders := by
    rw [c.extenders_eq]
    exact List.subset_append_left ..
  have hoperand : c.operand.extenders ⊆ c.extenders := by
    rw [c.extenders_eq]
    exact List.subset_append_right ..
  change c.rule (m + 2) (ts ++ rest) = _
  rw [c.rule_add_two, h m (by omega) rest (hrest.mono hoperand)]
  exact chainBounded_of_stops (hrest.mono hoperators) _

/-- A single operand is the left end of a chain. -/
theorem Reads.readsChain {c : Chain} {ts : List Token} {e : Expr} (h : Reads c.operand ts e) :
    ReadsChain c ts e := by
  obtain ⟨n, h⟩ := h
  refine ⟨n, fun m hm rest hrest => ?_⟩
  unfold chain
  rw [bind_of_ok (h m hm rest hrest)]
  rfl

theorem Reads.chain {c : Chain} {ts : List Token} {e : Expr} (h : Reads c.operand ts e) :
    Reads (.chain c) ts e :=
  h.readsChain.reads

/-- The operator is not taken by the operand on its left, because no operand is continued by it. -/
theorem ReadsChain.join {c : Chain} {ts us : List Token} {operator : Token} {left right : Expr}
    (hleft : ReadsChain c ts left) (hkind : operator.kind ∈ c.operators)
    (hright : Reads c.operand us right) :
    ReadsChain c (ts ++ operator :: us) (.binary left operator right) := by
  obtain ⟨n, hleft⟩ := hleft
  obtain ⟨k, hright⟩ := hright
  refine ⟨max n k, fun m hm rest hrest => ?_⟩
  have hnext : Stops c.operand.extenders (operator :: (us ++ rest)) :=
    stops_cons.2 (Chain.not_mem_operand_extenders hkind)
  calc chain c.operators (c.operand.rule m) (ts ++ operator :: us ++ rest)
      = chain c.operators (c.operand.rule m) (ts ++ operator :: (us ++ rest)) := by simp
    _ = chainBounded c.operators (c.operand.rule m) (operator :: (us ++ rest)).length left
          (operator :: (us ++ rest)) := hleft m (by omega) _ hnext
    _ = chainBounded c.operators (c.operand.rule m) rest.length (.binary left operator right)
          rest := chainBounded_cons (c.operand.sound m) hkind (hright m (by omega) rest hrest)

theorem Reads.expression {ts : List Token} {e : Expr} (h : Reads .assignment ts e) :
    Reads .expression ts e := by
  obtain ⟨n, h⟩ := h
  refine ⟨n + 1, fun m hm rest hrest => ?_⟩
  obtain ⟨m, rfl⟩ : ∃ k, m = k + 1 := ⟨m - 1, by omega⟩
  exact h m (by omega) rest hrest

/-- An equality is an assignment where no equals sign follows it. -/
theorem Reads.equality {ts : List Token} {e : Expr} (h : Reads (.chain .equality) ts e) :
    Reads .assignment ts e := by
  obtain ⟨n, h⟩ := h
  refine ⟨n + 1, fun m hm rest hrest => ?_⟩
  obtain ⟨m, rfl⟩ : ∃ k, m = k + 1 := ⟨m - 1, by omega⟩
  have hequal : Stops [.equal] rest := hrest.mono (by decide)
  have hleft : Grammar.equality m (ts ++ rest) = .ok e rest :=
    h m (by omega) rest (hrest.mono (List.subset_cons_self ..))
  change Grammar.assignment (m + 1) (ts ++ rest) = _
  rw [Grammar.assignment, bind_of_ok hleft, bind_of_ok (accept?_of_stops hequal)]
  rfl

/-- The operator is taken before anything else is looked at, so that operators may follow one
another. -/
theorem Reads.unary {operator : Token} {ts : List Token} {right : Expr}
    (hkind : operator.kind = .bang ∨ operator.kind = .minus) (h : Reads .unary ts right) :
    Reads .unary (operator :: ts) (.unary operator right) := by
  obtain ⟨n, h⟩ := h
  refine ⟨n + 1, fun m hm rest hrest => ?_⟩
  obtain ⟨m, rfl⟩ : ∃ k, m = k + 1 := ⟨m - 1, by omega⟩
  have hmem : operator.kind ∈ unaryOperators := by simpa [unaryOperators] using hkind
  have hright : Grammar.unary m (ts ++ rest) = .ok right rest := h m (by omega) rest hrest
  change Grammar.unary (m + 1) (operator :: (ts ++ rest)) = _
  rw [Grammar.unary, bind_of_ok (accept?_of_mem hmem)]
  simp only
  rw [bind_of_ok hright]
  rfl

/-- An operand does not start with an operator, which the rule looks for first. -/
theorem Reads.primary {ts : List Token} {e : Expr} (hstart : StartsIn primaryStarts ts)
    (h : Reads .primary ts e) : Reads .unary ts e := by
  obtain ⟨n, h⟩ := h
  refine ⟨n + 1, fun m hm rest hrest => ?_⟩
  obtain ⟨m, rfl⟩ : ∃ k, m = k + 1 := ⟨m - 1, by omega⟩
  have hstops : Stops unaryOperators (ts ++ rest) := (hstart.append rest).stops (by decide)
  change Grammar.unary (m + 1) (ts ++ rest) = _
  rw [Grammar.unary, bind_of_ok (accept?_of_stops hstops)]
  exact h m (by omega) rest hrest

/-- Operands of one token are read off its kind. -/
theorem reads_token {token : Token} {e : Expr} (h : DerivesExpr .primary [token] e) :
    Reads .primary [token] e := by
  obtain ⟨t, us, ht, hstart⟩ := h.startsIn_of_primary
  cases ht
  refine ⟨1, fun m hm rest _ => ?_⟩
  obtain ⟨m, rfl⟩ : ∃ k, m = k + 1 := ⟨m - 1, by omega⟩
  change Grammar.primary (m + 1) (token :: rest) = _
  rw [Grammar.primary, bind_of_ok (accept?_of_mem hstart)]
  generalize hts : [token] = ts at h
  cases h with
  | datum hkind =>
    cases hts
    rcases hkind with hkind | hkind <;> simp only [hkind] <;> rfl
  | name hkind | trueWord hkind | falseWord hkind | nilWord hkind =>
    cases hts
    simp only [hkind]
    rfl
  | group _ _ _ => simp at hts

/-- The closing parenthesis continues no expression, so what is inside may be read up to it. -/
theorem Reads.group {left right : Token} {ts : List Token} {e : Expr}
    (hleft : left.kind = .leftParen) (h : Reads .expression ts e)
    (hright : right.kind = .rightParen) :
    Reads .primary (left :: ts ++ [right]) (.grouping e) := by
  obtain ⟨n, h⟩ := h
  refine ⟨n + 1, fun m hm rest _ => ?_⟩
  obtain ⟨m, rfl⟩ : ∃ k, m = k + 1 := ⟨m - 1, by omega⟩
  have hstops : Stops ExprSymbol.expression.extenders (right :: rest) := by
    rw [stops_cons, hright]
    decide
  have hinner : Grammar.expression m (ts ++ right :: rest) = .ok e (right :: rest) :=
    h m (by omega) _ hstops
  have hsplit : left :: ts ++ [right] ++ rest = left :: (ts ++ right :: rest) := by simp
  rw [hsplit]
  change Grammar.primary (m + 1) (left :: (ts ++ right :: rest)) = _
  rw [Grammar.primary, bind_of_ok (accept?_of_mem (by rw [hleft]; decide))]
  simp only [hleft]
  rw [bind_of_ok hinner, bind_of_ok (expect_of_kind hright)]
  rfl

/-- A lone name before an equals sign is read as an equality first. -/
theorem Reads.assign {name equals : Token} {ts : List Token} {value : Expr}
    (hname : name.kind = .identifier) (hequals : equals.kind = .equal)
    (h : Reads .assignment ts value) :
    Reads .assignment (name :: equals :: ts) (.assign name value) := by
  have hunary : Reads .unary [name] (.read name) :=
    (reads_token (.name hname)).primary (DerivesExpr.name hname).startsIn_of_primary
  have hfactor : Reads (.chain .factor) [name] (.read name) := .chain (c := .factor) hunary
  have hterm : Reads (.chain .term) [name] (.read name) := .chain (c := .term) hfactor
  have hcomparison : Reads (.chain .comparison) [name] (.read name) := .chain (c := .comparison) hterm
  have hequality : Reads (.chain .equality) [name] (.read name) := .chain (c := .equality) hcomparison
  obtain ⟨n, hequality⟩ := hequality
  obtain ⟨k, h⟩ := h
  refine ⟨max n k + 1, fun m hm rest hrest => ?_⟩
  obtain ⟨m, rfl⟩ : ∃ k, m = k + 1 := ⟨m - 1, by omega⟩
  have hstops : Stops (ExprSymbol.chain .equality).extenders (equals :: (ts ++ rest)) := by
    rw [stops_cons, hequals]
    decide
  have hleft : Grammar.equality m (name :: equals :: (ts ++ rest)) =
      .ok (.read name) (equals :: (ts ++ rest)) := hequality m (by omega) _ hstops
  have hvalue : Grammar.assignment m (ts ++ rest) = .ok value rest := h m (by omega) rest hrest
  change Grammar.assignment (m + 1) (name :: equals :: (ts ++ rest)) = _
  rw [Grammar.assignment, bind_of_ok hleft, bind_of_ok (accept?_of_mem (by simp [hequals]))]
  simp only
  rw [bind_of_ok hvalue]
  rfl

/-- What an induction on derivations shows: chains keep open what follows them. -/
def ReadsAs : ExprSymbol → List Token → Expr → Prop
  | .chain c, ts, e => ReadsChain c ts e
  | symbol, ts, e => Reads symbol ts e

theorem ReadsAs.reads {symbol : ExprSymbol} {ts : List Token} {e : Expr}
    (h : ReadsAs symbol ts e) : Reads symbol ts e := by
  cases symbol with
  | chain c => exact ReadsChain.reads h
  | _ => exact h

/-- By induction on the derivation, with chains open at their right ends. -/
theorem DerivesExpr.reads {symbol : ExprSymbol} {ts : List Token} {e : Expr}
    (h : DerivesExpr symbol ts e) : Reads symbol ts e := by
  suffices ReadsAs symbol ts e from this.reads
  induction h with
  | expression _ ih => exact ih.reads.expression
  | assign hname hequals _ ih => exact ih.reads.assign hname hequals
  | equality _ ih => exact ih.reads.equality
  | operand _ ih => exact ih.reads.readsChain
  | join _ hkind _ ihleft ihright => exact ReadsChain.join ihleft hkind ihright.reads
  | unary hkind _ ih => exact ih.reads.unary hkind
  | primary h ih => exact ih.reads.primary h.startsIn_of_primary
  | datum hkind => exact reads_token (.datum hkind)
  | name hkind => exact reads_token (.name hkind)
  | trueWord hkind => exact reads_token (.trueWord hkind)
  | falseWord hkind => exact reads_token (.falseWord hkind)
  | nilWord hkind => exact reads_token (.nilWord hkind)
  | group hleft _ hright ih => exact ih.reads.group hleft hright

/-- An expression before a semicolon is read up to there. -/
theorem DerivesExpr.reads_semicolon {ts : List Token} {e : Expr}
    (h : DerivesExpr .expression ts e) : ∃ n, ∀ m, n ≤ m → ∀ (semicolon : Token)
      (rest : List Token), semicolon.kind = .semicolon →
      Grammar.expression m (ts ++ semicolon :: rest) = .ok e (semicolon :: rest) := by
  obtain ⟨n, h⟩ := h.reads
  refine ⟨n, fun m hm semicolon rest hkind => h m hm _ ?_⟩
  rw [stops_cons, hkind]
  decide

/-! ## Statements -/

def StmtSymbol.starts : StmtSymbol → List Token.Kind
  | .declaration | .varDecl => .varWord :: .printWord :: .leftBrace :: expressionStarts
  | .statement | .exprStmt | .printStmt | .block => .printWord :: .leftBrace :: expressionStarts

/-- Each kind of statement is told by its first token, and a statement of an expression by that of
the expression. -/
theorem DerivesStmt.startsIn : ∀ {symbol : StmtSymbol} {ts : List Token} {s : Stmt},
    DerivesStmt symbol ts s → StartsIn symbol.starts ts
  | _, _, _, .varDecl h => h.startsIn
  | _, _, _, .statement h => h.startsIn.mono (List.subset_cons_self ..)
  | _, _, _, .exprStmt h => h.startsIn
  | _, _, _, .printStmt h => h.startsIn
  | _, _, _, .block h => h.startsIn
  | _, _, _, .declare hk _ _ => ⟨_, _, rfl, by rw [hk]; decide⟩
  | _, _, _, .declareWith hk _ _ _ _ => ⟨_, _, rfl, by rw [hk]; decide⟩
  | _, _, _, .expression h _ => (h.startsIn.append _).mono (by simp [StmtSymbol.starts])
  | _, _, _, .print hk _ _ => ⟨_, _, rfl, by rw [hk]; decide⟩
  | _, _, _, .braces hk _ _ => ⟨_, _, rfl, by rw [hk]; decide⟩

/-- The rule that reads the statements of a symbol. A declaration and a statement are told apart by
their first token, so each kind of them is read by the rule that looks at it. -/
def StmtSymbol.rule : StmtSymbol → (levels : Nat) → Rule Stmt
  | .declaration | .varDecl => Grammar.declaration
  | .statement | .exprStmt | .printStmt | .block => Grammar.statement

/-- With levels enough, tokens are read as a statement before anything. -/
def ReadsStmt (symbol : StmtSymbol) (ts : List Token) (s : Stmt) : Prop :=
  ∃ n, ∀ m, n ≤ m → ∀ rest, symbol.rule m (ts ++ rest) = .ok s rest

/-- With levels enough, tokens are read as declarations, and then reading goes on. -/
def ReadsAll (ts : List Token) (body : List Stmt) : Prop :=
  ∃ n, ∀ m, n ≤ m → ∀ stop ∈ [Token.Kind.rightBrace, .eof], ∀ rest,
    many stop (Grammar.declaration m) (ts ++ rest) =
      ((body ++ ·) <$> many stop (Grammar.declaration m)) rest

theorem ReadsStmt.statement {ts : List Token} {s : Stmt}
    (hstart : StartsIn StmtSymbol.statement.starts ts) (h : ReadsStmt .statement ts s) :
    ReadsStmt .declaration ts s := by
  obtain ⟨n, h⟩ := h
  refine ⟨n + 1, fun m hm rest => ?_⟩
  obtain ⟨m, rfl⟩ : ∃ k, m = k + 1 := ⟨m - 1, by omega⟩
  have hstops : Stops [.varWord] (ts ++ rest) := (hstart.append rest).stops (by decide)
  change Grammar.declaration (m + 1) (ts ++ rest) = _
  rw [Grammar.declaration, bind_of_ok (accept?_of_stops hstops)]
  exact h m (by omega) rest

theorem readsStmt_declare {word name semicolon : Token} (hword : word.kind = .varWord)
    (hname : name.kind = .identifier) (hsemicolon : semicolon.kind = .semicolon) :
    ReadsStmt .varDecl [word, name, semicolon] (.declare name none) := by
  refine ⟨2, fun m hm rest => ?_⟩
  obtain ⟨m, rfl⟩ : ∃ k, m = k + 2 := ⟨m - 2, by omega⟩
  have hstops : Stops [.equal] (semicolon :: rest) := by
    rw [stops_cons, hsemicolon]
    decide
  change Grammar.declaration (m + 2) (word :: name :: semicolon :: rest) = _
  rw [Grammar.declaration, bind_of_ok (accept?_of_mem (by simp [hword]))]
  simp only [varDeclaration]
  rw [bind_of_ok (expect_of_kind hname), bind_of_ok (accept?_of_stops hstops)]
  simp only
  rw [bind_of_ok (expect_of_kind hsemicolon)]
  rfl

/-- The semicolon ends the initial value, as it continues no expression. -/
theorem readsStmt_declareWith {word name equals semicolon : Token} {ts : List Token}
    {initial : Expr} (hword : word.kind = .varWord) (hname : name.kind = .identifier)
    (hequals : equals.kind = .equal) (h : DerivesExpr .expression ts initial)
    (hsemicolon : semicolon.kind = .semicolon) :
    ReadsStmt .varDecl (word :: name :: equals :: ts ++ [semicolon])
      (.declare name (some initial)) := by
  obtain ⟨n, h⟩ := h.reads_semicolon
  refine ⟨n + 2, fun m hm rest => ?_⟩
  obtain ⟨m, rfl⟩ : ∃ k, m = k + 2 := ⟨m - 2, by omega⟩
  have hsplit : word :: name :: equals :: ts ++ [semicolon] ++ rest =
      word :: name :: equals :: (ts ++ semicolon :: rest) := by simp
  rw [hsplit]
  change Grammar.declaration (m + 2) _ = _
  rw [Grammar.declaration, bind_of_ok (accept?_of_mem (by simp [hword]))]
  simp only [varDeclaration]
  rw [bind_of_ok (expect_of_kind hname), bind_of_ok (accept?_of_mem (by simp [hequals]))]
  simp only
  rw [bind_of_ok (h m (by omega) semicolon rest hsemicolon),
    bind_of_ok (expect_of_kind hsemicolon)]
  rfl

theorem readsStmt_expression {ts : List Token} {value : Expr} {semicolon : Token}
    (h : DerivesExpr .expression ts value) (hsemicolon : semicolon.kind = .semicolon) :
    ReadsStmt .exprStmt (ts ++ [semicolon]) (.expression value) := by
  have hstart := h.startsIn
  obtain ⟨n, h⟩ := h.reads_semicolon
  refine ⟨n + 2, fun m hm rest => ?_⟩
  obtain ⟨m, rfl⟩ : ∃ k, m = k + 2 := ⟨m - 2, by omega⟩
  have hstops : Stops [.printWord, .leftBrace] (ts ++ semicolon :: rest) :=
    (hstart.append _).stops (by decide)
  rw [List.append_assoc, List.singleton_append]
  change Grammar.statement (m + 2) _ = _
  rw [Grammar.statement, bind_of_ok (accept?_of_stops hstops)]
  simp only [expressionStatement]
  rw [bind_of_ok (h m (by omega) semicolon rest hsemicolon),
    bind_of_ok (expect_of_kind hsemicolon)]
  rfl

theorem readsStmt_print {word semicolon : Token} {ts : List Token} {value : Expr}
    (hword : word.kind = .printWord) (h : DerivesExpr .expression ts value)
    (hsemicolon : semicolon.kind = .semicolon) :
    ReadsStmt .printStmt (word :: ts ++ [semicolon]) (.print value) := by
  obtain ⟨n, h⟩ := h.reads_semicolon
  refine ⟨n + 2, fun m hm rest => ?_⟩
  obtain ⟨m, rfl⟩ : ∃ k, m = k + 2 := ⟨m - 2, by omega⟩
  have hsplit : word :: ts ++ [semicolon] ++ rest = word :: (ts ++ semicolon :: rest) := by simp
  rw [hsplit]
  change Grammar.statement (m + 2) _ = _
  rw [Grammar.statement, bind_of_ok (accept?_of_mem (by simp [hword]))]
  simp only [hword, ↓reduceIte, printStatement]
  rw [bind_of_ok (h m (by omega) semicolon rest hsemicolon),
    bind_of_ok (expect_of_kind hsemicolon)]
  rfl

/-- Declarations are read up to the closing brace, which starts none. -/
theorem ReadsAll.braces {left right : Token} {ts : List Token} {body : List Stmt}
    (hleft : left.kind = .leftBrace) (h : ReadsAll ts body) (hright : right.kind = .rightBrace) :
    ReadsStmt .block (left :: ts ++ [right]) (.block body) := by
  obtain ⟨n, h⟩ := h
  refine ⟨n + 2, fun m hm rest => ?_⟩
  obtain ⟨m, rfl⟩ : ∃ k, m = k + 2 := ⟨m - 2, by omega⟩
  have hbody : many .rightBrace (Grammar.declaration m) (ts ++ right :: rest) =
      .ok body (right :: rest) := by
    rw [h m (by omega) .rightBrace (by simp), map_apply, many_of_stop (by simp [hright])]
    simp
  have hsplit : left :: ts ++ [right] ++ rest = left :: (ts ++ right :: rest) := by simp
  have hprint : left.kind ≠ .printWord := by simp [hleft]
  rw [hsplit]
  change Grammar.statement (m + 2) _ = _
  rw [Grammar.statement, bind_of_ok (accept?_of_mem (by simp [hleft]))]
  simp only [hprint, ↓reduceIte, block]
  rw [bind_apply, bind_of_ok hbody, bind_of_ok (expect_of_kind hright)]
  rfl

theorem readsAll_nil : ReadsAll [] [] := by
  refine ⟨0, fun m _ stop _ rest => ?_⟩
  rw [map_apply, List.nil_append]
  cases many stop (Grammar.declaration m) rest <;> rfl

/-- A declaration ends by itself, and reading goes on right after it. -/
theorem ReadsAll.cons {ts us : List Token} {s : Stmt} {rest : List Stmt}
    (hstart : StartsIn StmtSymbol.declaration.starts ts) (h : ReadsStmt .declaration ts s)
    (hrest : ReadsAll us rest) : ReadsAll (ts ++ us) (s :: rest) := by
  obtain ⟨n, h⟩ := h
  obtain ⟨k, hrest⟩ := hrest
  refine ⟨max n k, fun m hm stop hstop more => ?_⟩
  obtain ⟨t, vs, rfl, hkind⟩ := hstart
  have hne : t.kind ≠ stop := by
    rintro rfl
    revert hkind hstop
    cases t.kind <;> decide
  have hfirst : Grammar.declaration m (t :: (vs ++ (us ++ more))) = .ok s (us ++ more) :=
    h m (by omega) (us ++ more)
  rw [List.append_assoc, List.cons_append,
    many_of_ok (sound_statements m).1 DerivesStmt.length_pos hne hfirst,
    map_apply, hrest m (by omega) stop hstop more, map_apply, map_apply]
  cases many stop (Grammar.declaration m) more <;> rfl

mutual

/-- By recursion on the derivation. Blocks take it to lists of declarations and back. -/
theorem DerivesStmt.reads : ∀ {symbol : StmtSymbol} {ts : List Token} {s : Stmt},
    DerivesStmt symbol ts s → ReadsStmt symbol ts s
  | _, _, _, .varDecl h => h.reads
  | _, _, _, .statement h => h.reads.statement h.startsIn
  | _, _, _, .exprStmt h => h.reads
  | _, _, _, .printStmt h => h.reads
  | _, _, _, .block h => h.reads
  | _, _, _, .declare hword hname hsemicolon => readsStmt_declare hword hname hsemicolon
  | _, _, _, .declareWith hword hname hequals h hsemicolon =>
    readsStmt_declareWith hword hname hequals h hsemicolon
  | _, _, _, .expression h hsemicolon => readsStmt_expression h hsemicolon
  | _, _, _, .print hword h hsemicolon => readsStmt_print hword h hsemicolon
  | _, _, _, .braces hleft h hright => h.reads.braces hleft hright

theorem DerivesAll.reads : ∀ {ts : List Token} {body : List Stmt},
    DerivesAll ts body → ReadsAll ts body
  | _, _, .nil => readsAll_nil
  | _, _, .cons h hrest => hrest.reads.cons h.startsIn h.reads

end

/-! ## Programs -/

/-- A program is read to the end of its tokens. -/
theorem Derives.reads {ts : List Token} {body : Program} (h : Derives ts body) :
    ∃ n, ∀ m, n ≤ m → program m ts = .ok body [] := by
  obtain ⟨n, h⟩ := DerivesAll.reads h
  refine ⟨n + 1, fun m hm => ?_⟩
  obtain ⟨m, rfl⟩ : ∃ k, m = k + 1 := ⟨m - 1, by omega⟩
  have hend : many .eof (declaration m) [] = .ok [] [] := many_of_stop (by simp)
  have hread := h m (by omega) .eof (by simp) []
  rw [List.append_nil, map_apply, hend] at hread
  simp only [List.append_nil] at hread
  exact hread

/-- The grammar is unambiguous, since two derivations would be read as two programs from the same
tokens. -/
theorem Derives.unique {ts : List Token} {body other : Program} (h : Derives ts body)
    (h' : Derives ts other) : other = body := by
  obtain ⟨n, h⟩ := h.reads
  obtain ⟨k, h'⟩ := h'.reads
  have hread := h (max n k) (by omega)
  rw [h' (max n k) (by omega)] at hread
  cases hread
  rfl

/-- Reading with fewer levels gives the answer of reading with more, unless it runs out of them. -/
theorem program_eq_or_exhausted {m n : Nat} (hmn : m ≤ n) (s : List Token) :
    Exhausted (program m s) ∨ program n s = program m s :=
  (refines_program Unread.id hmn).eq_or_exhausted Program.mapTokens_id s

theorem Token.kind_ne_eof_of_mem_body {tokens : List Token} {t : Token}
    (h : t ∈ Token.body tokens) : t.kind ≠ .eof := by
  simpa using List.all_eq_true.1 List.all_takeWhile t h

/-- Whatever the tokens after the first end mark are, those before it derive the program. -/
theorem derives_of_ofTokens {tokens : List Token} {body : Program}
    (h : Program.ofTokens tokens = .ok body) : Derives (Token.body tokens) body := by
  unfold Program.ofTokens read at h
  cases hread : program Nesting.reading (Token.body tokens) with
  | error fault t => simp [hread] at h
  | ok found t =>
    simp only [hread, Except.ok.injEq] at h
    subst h
    exact derives_of_program (fun t ht => Token.kind_ne_eof_of_mem_body ht) hread

/-- Reading that runs out of levels says so. -/
theorem read_of_exhausted {α : Type} {rule : Nat → Rule α} {tokens : List Token}
    (h : Exhausted (rule Nesting.reading (Token.body tokens))) :
    ∃ fault, read rule tokens = .error fault ∧ fault.kind = .parse ∧
      fault.message = Diagnostic.nestedTooDeeply := by
  unfold read
  cases hread : rule Nesting.reading (Token.body tokens) with
  | ok found t =>
    rw [hread] at h
    exact h.elim
  | error fault t =>
    rw [hread] at h
    refine ⟨_, rfl, rfl, ?_⟩
    change fault.cause.message = _
    rw [show fault.cause = .shallowerNesting from h]
    rfl

theorem ofTokens_of_exhausted {tokens : List Token}
    (h : Exhausted (program Nesting.reading (Token.body tokens))) :
    ∃ fault, Program.ofTokens tokens = .error fault ∧ fault.kind = .parse ∧
      fault.message = Diagnostic.nestedTooDeeply :=
  read_of_exhausted h

/-- The programs that are read are those that the grammar derives from the tokens before the first
end mark, as far as levels go, and tokens derive one program at most. -/
theorem ofTokens_derives (tokens : List Token) (body : Program) :
    (Program.ofTokens tokens = .ok body → Derives (Token.body tokens) body) ∧
      (Derives (Token.body tokens) body →
        (Program.ofTokens tokens = .ok body ∨
          ∃ fault, Program.ofTokens tokens = .error fault ∧ fault.kind = .parse ∧
            fault.message = "Expression nested too deeply.") ∧
        ∃ n, ∀ levels, n ≤ levels → program levels (Token.body tokens) = .ok body []) ∧
      ∀ ts other, Derives ts body → Derives ts other → other = body := by
  refine ⟨derives_of_ofTokens, fun h => ⟨?_, h.reads⟩, fun ts other h h' => h.unique h'⟩
  obtain ⟨n, hn⟩ := h.reads
  obtain hout | hsame := program_eq_or_exhausted (Nat.le_max_left Nesting.reading n)
    (Token.body tokens)
  · exact .inr (ofTokens_of_exhausted hout)
  · left
    unfold Program.ofTokens read
    rw [← hsame, hn _ (Nat.le_max_right ..)]

/-- Assignment reaches to the right and differences group to the left. -/
theorem ofTokens_derives_difference :
    Derives
      (Token.body [⟨.identifier, "x", none, 1⟩, ⟨.equal, "=", none, 1⟩,
        ⟨.identifier, "a", none, 1⟩, ⟨.minus, "-", none, 1⟩, ⟨.identifier, "b", none, 2⟩,
        ⟨.minus, "-", none, 2⟩, ⟨.identifier, "c", none, 2⟩, ⟨.semicolon, ";", none, 2⟩])
      [.expression (.assign ⟨.identifier, "x", none, 1⟩
        (.binary (.binary (.read ⟨.identifier, "a", none, 1⟩) ⟨.minus, "-", none, 1⟩
          (.read ⟨.identifier, "b", none, 2⟩)) ⟨.minus, "-", none, 2⟩
          (.read ⟨.identifier, "c", none, 2⟩)))] :=
  (ofTokens_derives _ _).1 rfl

end Grammar

end Scriptlet
