import Scriptlet.Proofs.Execution.Room
import Scriptlet.Proofs.Grammar.Relaxed
import Scriptlet.Proofs.Grammar.SingleExpression

/-!
# Full parentheses

Every expression can be written so that no rule of precedence matters: literals and names are tokens
of their own, and every other form stands in parentheses. Such tokens are an operand wherever they
stand, so they derive the expression with a grouping around each form (`Writes.derives`), whatever
the shape of the expression. Groupings do not change a value, so it has the same value.
-/

namespace Scriptlet

def Grammar.binaryOperators : List Token.Kind :=
  [.plus, .minus, .star, .slash, .equalEqual, .bangEqual, .less, .greater, .lessEqual, .greaterEqual]

namespace Expr

/-- Every operator and every name of an expression is a token of a kind that can stand there. -/
def Lawful : Expr → Prop
  | literal _ => True
  | read name => name.kind = .identifier
  | grouping inner => inner.Lawful
  | unary operator right => (operator.kind = .bang ∨ operator.kind = .minus) ∧ right.Lawful
  | binary left operator right =>
    left.Lawful ∧ operator.kind ∈ Grammar.binaryOperators ∧ right.Lawful
  | assign name value => name.kind = .identifier ∧ value.Lawful

/-- An expression with a grouping around every form that is no literal, name or grouping. -/
def enclosed : Expr → Expr
  | literal value => literal value
  | read name => read name
  | grouping inner => grouping inner.enclosed
  | unary operator right => grouping (unary operator right.enclosed)
  | binary left operator right => grouping (binary left.enclosed operator right.enclosed)
  | assign name value => grouping (assign name value.enclosed)

/-- The parentheses that are added are groupings, and those can be erased again. -/
theorem ungrouped_enclosed (e : Expr) : e.enclosed.ungrouped = e.ungrouped := by
  induction e with
  | literal value => rfl
  | read name => rfl
  | grouping inner ih => exact ih
  | unary operator right ih => simp only [enclosed, ungrouped, ih]
  | binary left operator right ihleft ihright => simp only [enclosed, ungrouped, ihleft, ihright]
  | assign name value ih => simp only [enclosed, ungrouped, ih]

end Expr

namespace Grammar

mutual

/-- Tokens write an expression with full parentheses. A literal is its word, or a token that carries
its value. -/
inductive Writes : Expr → List Token → Prop
  | nilWord {t : Token} : t.kind = .nilWord → Writes (.literal none) [t]
  | trueWord {t : Token} : t.kind = .trueWord → Writes (.literal (some (.boolean true))) [t]
  | falseWord {t : Token} : t.kind = .falseWord → Writes (.literal (some (.boolean false))) [t]
  | datum {t : Token} {value : Value} :
      t.kind = .number ∨ t.kind = .string → t.literal = value → Writes (.literal value) [t]
  | name {t : Token} : t.kind = .identifier → Writes (.read t) [t]
  | enclosed {left right : Token} {ts : List Token} {e : Expr} :
      left.kind = .leftParen → WritesInside e ts → right.kind = .rightParen →
      Writes e (left :: ts ++ [right])

/-- Tokens write what stands between the parentheses around an expression. -/
inductive WritesInside : Expr → List Token → Prop
  | grouping {ts : List Token} {inner : Expr} : Writes inner ts → WritesInside (.grouping inner) ts
  | unary {operator : Token} {ts : List Token} {right : Expr} :
      operator.kind = .bang ∨ operator.kind = .minus → Writes right ts →
      WritesInside (.unary operator right) (operator :: ts)
  | binary {operator : Token} {ts us : List Token} {left right : Expr} :
      Writes left ts → operator.kind ∈ binaryOperators → Writes right us →
      WritesInside (.binary left operator right) (ts ++ operator :: us)
  | assign {name equals : Token} {ts : List Token} {value : Expr} :
      name.kind = .identifier → equals.kind = .equal → Writes value ts →
      WritesInside (.assign name value) (name :: equals :: ts)

end

variable {ts : List Token} {e : Expr}

/-! ## Writing -/

theorem WritesInside.exists_writes (h : WritesInside e ts) : ∃ us, Writes e us := by
  have hleft : (⟨.leftParen, "(", none, 1⟩ : Token).kind = .leftParen := rfl
  have hright : (⟨.rightParen, ")", none, 1⟩ : Token).kind = .rightParen := rfl
  exact ⟨_, .enclosed hleft h hright⟩

/-- Each lawful expression can be written, since its own tokens and a few new ones are all it
takes. -/
theorem exists_writes (h : e.Lawful) : ∃ ts, Writes e ts := by
  induction e with
  | literal value => exact ⟨[⟨.number, value.display, value, 1⟩], .datum (.inl rfl) rfl⟩
  | read name => exact ⟨_, .name h⟩
  | grouping inner ih =>
    obtain ⟨ts, hts⟩ := ih h
    exact (WritesInside.grouping hts).exists_writes
  | unary operator right ih =>
    obtain ⟨ts, hts⟩ := ih h.2
    exact (WritesInside.unary h.1 hts).exists_writes
  | binary left operator right ihleft ihright =>
    obtain ⟨ts, hts⟩ := ihleft h.1
    obtain ⟨us, hus⟩ := ihright h.2.2
    exact (WritesInside.binary hts h.2.1 hus).exists_writes
  | assign name value ih =>
    obtain ⟨ts, hts⟩ := ih h.2
    have hequals : (⟨.equal, "=", none, 1⟩ : Token).kind = .equal := rfl
    exact (WritesInside.assign h.1 hequals hts).exists_writes

/-! ## Reading -/

theorem DerivesExpr.expression_of_chain {c : Chain} (h : DerivesExpr (.chain c) ts e) :
    DerivesExpr .expression ts e := by
  have hcomparison (h : DerivesExpr (.chain .comparison) ts e) : DerivesExpr .expression ts e :=
    .expression (.equality (.operand h))
  have hterm (h : DerivesExpr (.chain .term) ts e) : DerivesExpr .expression ts e :=
    hcomparison (.operand h)
  cases c with
  | equality => exact .expression (.equality h)
  | comparison => exact hcomparison h
  | term => exact hterm h
  | factor => exact hterm (.operand h)

/-- An operand stands for any other symbol. -/
theorem DerivesExpr.of_primary (h : DerivesExpr .primary ts e) (symbol : ExprSymbol) :
    DerivesExpr symbol ts e := by
  have hfactor : DerivesExpr (.chain .factor) ts e := .operand (.primary h)
  have hterm : DerivesExpr (.chain .term) ts e := .operand hfactor
  have hcomparison : DerivesExpr (.chain .comparison) ts e := .operand hterm
  have hequality : DerivesExpr (.chain .equality) ts e := .operand hcomparison
  cases symbol with
  | expression => exact .expression (.equality hequality)
  | assignment => exact .equality hequality
  | chain c => cases c <;> assumption
  | unary => exact .primary h
  | primary => exact h

theorem exists_chain {kind : Token.Kind} (h : kind ∈ binaryOperators) :
    ∃ c : Chain, kind ∈ c.operators := by
  have hall : ∀ kind ∈ binaryOperators, ∃ c ∈ [Chain.equality, .comparison, .term, .factor],
      kind ∈ c.operators := by
    decide
  obtain ⟨c, -, hc⟩ := hall kind h
  exact ⟨c, hc⟩

mutual

/-- What is written with full parentheses is an operand. -/
theorem Writes.derives : ∀ {e : Expr} {ts : List Token}, Writes e ts →
    DerivesExpr .primary ts e.enclosed
  | _, _, .nilWord ht => .nilWord ht
  | _, _, .trueWord ht => .trueWord ht
  | _, _, .falseWord ht => .falseWord ht
  | _, _, .datum ht hvalue => hvalue ▸ .datum ht
  | _, _, .name ht => .name ht
  | _, _, .enclosed hleft h hright => by
    obtain ⟨inner, hinner, hderives⟩ := h.derives
    rw [hinner]
    exact .group hleft hderives hright

/-- Between parentheses stands an expression of the one symbol that its form has, and its operands
are primary. -/
theorem WritesInside.derives : ∀ {e : Expr} {ts : List Token}, WritesInside e ts →
    ∃ inner, e.enclosed = .grouping inner ∧ DerivesExpr .expression ts inner
  | _, _, .grouping h => ⟨_, rfl, h.derives.of_primary .expression⟩
  | _, _, .unary hoperator h => by
    have hunary := DerivesExpr.unary hoperator (h.derives.of_primary .unary)
    exact ⟨_, rfl, DerivesExpr.expression_of_chain (c := .factor) (.operand hunary)⟩
  | _, _, .binary hleft hoperator hright => by
    obtain ⟨c, hc⟩ := exists_chain hoperator
    have hjoin := DerivesExpr.join (hleft.derives.of_primary (.chain c)) hc
      (hright.derives.of_primary c.operand)
    exact ⟨_, rfl, hjoin.expression_of_chain⟩
  | _, _, .assign hname hequals h =>
    ⟨_, rfl, .expression (.assign hname hequals (h.derives.of_primary .assignment))⟩

end

/-- Tokens that write an expression are read up to their end. -/
theorem Writes.body_eq (h : Writes e ts) : Token.body ts = ts := by
  have hunended : Unended ts := h.derives.relaxed.unended
  exact List.takeWhile_eq_self_iff.2 fun t ht => bne_iff_ne.2 (hunended t ht)

/-- Every expression can be written with full parentheses, and however it is written so, it is read
as the same expression up to groupings, unless levels run out, and with levels enough. In every scope
the two do the same, unless one runs out of room, and with room enough neither does. -/
theorem read_fully_parenthesized (e : Expr) (h : e.Lawful) :
    (∃ ts, Writes e ts) ∧
    ∀ ts, Writes e ts →
      (read singleExpression ts = .ok e.enclosed ∨ RunsOut (read singleExpression ts)) ∧
      (∃ n, ∀ levels, n ≤ levels → singleExpression levels ts = .ok e.enclosed []) ∧
      e.enclosed.ungrouped = e.ungrouped ∧
      (∀ room room' scope, Ending.outcome (e.evaluate room scope) ≠ .error .exhausted →
        Ending.outcome (e.enclosed.evaluate room' scope) ≠ .error .exhausted →
        e.enclosed.evaluate room' scope = e.evaluate room scope) ∧
      ∀ scope, ∃ n, ∀ room, n ≤ room →
        Ending.outcome (e.evaluate room scope) ≠ .error .exhausted ∧
        Ending.outcome (e.enclosed.evaluate room scope) ≠ .error .exhausted := by
  refine ⟨exists_writes h, fun ts hts => ?_⟩
  have hreads := (hts.derives.of_primary .expression).reads_single
  have hungrouped := e.ungrouped_enclosed
  refine ⟨?_, hreads, hungrouped, ?_, ?_⟩
  · rw [← hts.body_eq] at hreads
    exact read_eq_ok_or_runsOut singleExpression_eq_or_exhausted hreads
  · intro room room' scope hroom hroom'
    exact Expr.evaluate_eq_of_ungrouped_eq hungrouped hroom hroom'
  · intro scope
    obtain ⟨n, hn⟩ := e.exists_room scope
    obtain ⟨k, hk⟩ := e.enclosed.exists_room scope
    exact ⟨max n k, fun room hroom => ⟨hn room (by omega), hk room (by omega)⟩⟩

/-- A product of an assignment, which no product begins with outside parentheses, and a double
negation. -/
theorem read_fully_parenthesized_product :
    let x : Token := ⟨.identifier, "x", none, 1⟩
    let y : Token := ⟨.identifier, "y", none, 3⟩
    let star : Token := ⟨.star, "*", none, 2⟩
    let minus : Token := ⟨.minus, "-", none, 3⟩
    let left : Token := ⟨.leftParen, "(", none, 1⟩
    let right : Token := ⟨.rightParen, ")", none, 3⟩
    let equals : Token := ⟨.equal, "=", none, 1⟩
    let word : Token := ⟨.trueWord, "true", none, 2⟩
    let e : Expr := .binary (.assign x (.literal (some (.boolean true)))) star
      (.unary minus (.unary minus (.read y)))
    let ts : List Token := [left, left, x, equals, word, right, star,
      left, minus, left, minus, y, right, right, right]
    e.Lawful ∧ Writes e ts ∧ read singleExpression ts = .ok e.enclosed := by
  intro x y star minus left right equals word e ts
  have hlawful : e.Lawful := ⟨⟨rfl, trivial⟩, by decide, .inr rfl, .inr rfl, rfl⟩
  have hassign : Writes (.assign x (.literal (some (.boolean true))))
      (left :: [x, equals, word] ++ [right]) :=
    .enclosed rfl (.assign rfl rfl (.trueWord rfl)) rfl
  have hunary : Writes (.unary minus (.read y)) (left :: [minus, y] ++ [right]) :=
    .enclosed rfl (.unary (.inr rfl) (.name rfl)) rfl
  have hwrites : Writes e ts :=
    .enclosed rfl (.binary hassign (by decide) (.enclosed rfl (.unary (.inr rfl) hunary) rfl)) rfl
  refine ⟨hlawful, hwrites, ?_⟩
  obtain hread | ⟨fault, hfault, -⟩ := ((read_fully_parenthesized e hlawful).2 ts hwrites).1
  · exact hread
  · have hok : (read singleExpression ts).isOk = true := by decide +kernel
    rw [hfault] at hok
    cases hok

end Grammar

end Scriptlet
