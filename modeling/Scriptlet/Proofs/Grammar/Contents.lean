import Scriptlet.Proofs.Grammar.Completeness
import Scriptlet.Proofs.Operator.Results
import Scriptlet.Proofs.Program.Names
import Scriptlet.Proofs.Token.LongestMatch

/-!
# What a text brings into a program

The literals of a program are the data of its tokens, or are written as words; the names that it
declares are identifiers among its tokens. Tokens are lexemes of the text. So a text can bring no
datum of a foreign type into a program, and no name that is not an identifier.
-/

namespace Scriptlet

/-! ## Literals -/

/-- The values that are written in an expression. -/
def Expr.literals : Expr → List Value
  | literal value => [value]
  | read _ => []
  | grouping inner => inner.literals
  | unary _ right => right.literals
  | binary left _ right => left.literals ++ right.literals
  | assign _ value => value.literals

mutual

def Stmt.literals : Stmt → List Value
  | .expression value | .print value | .declare _ (some value) => value.literals
  | .declare _ none => []
  | .block body => Program.literals body

def Program.literals : List Stmt → List Value
  | [] => []
  | statement :: rest => statement.literals ++ Program.literals rest

end

namespace Grammar

/-- Literals are data of tokens, true, false or nil. -/
theorem DerivesExpr.native_literals {symbol : ExprSymbol} {ts : List Token} {e : Expr}
    (h : DerivesExpr symbol ts e) (hts : ∀ t ∈ ts, Value.Native t.literal) :
    ∀ v ∈ e.literals, Value.Native v := by
  induction h with
  | expression _ ih => exact ih hts
  | equality _ ih => exact ih hts
  | operand _ ih => exact ih hts
  | primary _ ih => exact ih hts
  | assign _ _ _ ih => exact ih (List.forall_mem_cons.1 (List.forall_mem_cons.1 hts).2).2
  | unary _ _ ih => exact ih (List.forall_mem_cons.1 hts).2
  | join _ _ _ ihleft ihright =>
    obtain ⟨hleft, hright⟩ := List.forall_mem_append.1 hts
    exact List.forall_mem_append.2 ⟨ihleft hleft, ihright (List.forall_mem_cons.1 hright).2⟩
  | group _ _ _ ih => exact ih (List.forall_mem_append.1 (List.forall_mem_cons.1 hts).2).1
  | datum _ => exact List.forall_mem_singleton.2 (hts _ List.mem_cons_self)
  | name _ => exact List.forall_mem_nil _
  | trueWord _ => exact List.forall_mem_singleton.2 (Value.native_some (.boolean true))
  | falseWord _ => exact List.forall_mem_singleton.2 (Value.native_some (.boolean false))
  | nilWord _ => exact List.forall_mem_singleton.2 Value.native_none

mutual

/-- Statements add nothing to the literals of their expressions. -/
theorem DerivesStmt.native_literals : ∀ {symbol : StmtSymbol} {ts : List Token} {s : Stmt},
    DerivesStmt symbol ts s → (∀ t ∈ ts, Value.Native t.literal) →
    ∀ v ∈ s.literals, Value.Native v
  | _, _, _, .varDecl h, hts => h.native_literals hts
  | _, _, _, .statement h, hts => h.native_literals hts
  | _, _, _, .exprStmt h, hts => h.native_literals hts
  | _, _, _, .printStmt h, hts => h.native_literals hts
  | _, _, _, .block h, hts => h.native_literals hts
  | _, _, _, .declare _ _ _, _ => List.forall_mem_nil _
  | _, _, _, .declareWith _ _ _ h _, hts =>
    h.native_literals fun t ht => hts t (by simp [ht])
  | _, _, _, .expression h _, hts => h.native_literals (List.forall_mem_append.1 hts).1
  | _, _, _, .print _ h _, hts => h.native_literals fun t ht => hts t (by simp [ht])
  | _, _, _, .braces _ h _, hts => h.native_literals fun t ht => hts t (by simp [ht])

theorem DerivesAll.native_literals : ∀ {ts : List Token} {body : List Stmt},
    DerivesAll ts body → (∀ t ∈ ts, Value.Native t.literal) →
    ∀ v ∈ Program.literals body, Value.Native v
  | _, _, .nil, _ => List.forall_mem_nil _
  | _, _, .cons hfirst hrest, hts =>
    have ⟨hts, hus⟩ := List.forall_mem_append.1 hts
    List.forall_mem_append.2 ⟨hfirst.native_literals hts, hrest.native_literals hus⟩

end

/-! ## Declared names -/

/-- A name is declared by an identifier after the word for it. Names inside a block do not count. -/
theorem DerivesStmt.declared_mem {x : String} :
    ∀ {symbol : StmtSymbol} {ts : List Token} {s : Stmt}, DerivesStmt symbol ts s →
      x ∈ s.declared → ∃ t ∈ ts, t.kind = .identifier ∧ t.lexeme = x
  | _, _, _, .varDecl h, hx => h.declared_mem hx
  | _, _, _, .statement h, hx => h.declared_mem hx
  | _, _, _, .exprStmt h, hx => h.declared_mem hx
  | _, _, _, .printStmt h, hx => h.declared_mem hx
  | _, _, _, .block h, hx => h.declared_mem hx
  | _, _, _, .declare _ hname _, hx => ⟨_, by simp, hname, (List.mem_singleton.1 hx).symm⟩
  | _, _, _, .declareWith _ hname _ _ _, hx => ⟨_, by simp, hname, (List.mem_singleton.1 hx).symm⟩
  | _, _, _, .expression _ _, hx => absurd hx List.not_mem_nil
  | _, _, _, .print _ _ _, hx => absurd hx List.not_mem_nil
  | _, _, _, .braces _ _ _, hx => absurd hx List.not_mem_nil

theorem DerivesAll.declared_mem {x : String} :
    ∀ {ts : List Token} {body : List Stmt}, DerivesAll ts body →
      x ∈ Program.declared body → ∃ t ∈ ts, t.kind = .identifier ∧ t.lexeme = x
  | _, _, .nil, hx => absurd hx List.not_mem_nil
  | _, _, .cons hfirst hrest, hx => by
    rw [Program.declared, List.flatMap_cons, List.mem_append] at hx
    rcases hx with hx | hx
    · obtain ⟨t, ht, hname⟩ := hfirst.declared_mem hx
      exact ⟨t, List.mem_append_left _ ht, hname⟩
    · obtain ⟨t, ht, hname⟩ := hrest.declared_mem hx
      exact ⟨t, List.mem_append_right _ ht, hname⟩

end Grammar

/-! ## Tokens of a text -/

namespace Element

/-- Texts that are names: words of an ASCII letter or an underscore and whatever may follow in a
word, other than the keywords. -/
structure IsIdentifier (x : String) : Prop where
  word : ∃ c w, x = String.ofList (c :: w) ∧ (c.isAlpha ∨ c = '_') ∧ ∀ d ∈ w, isIdentifierPart d
  not_keyword : x ∉ Token.keywords.map (·.1)

variable {kind : Token.Kind} {literal : Value} {w : List Char}

/-- Strings and numbers are the only tokens that carry data. -/
theorem Lexeme.native_literal (h : Lexeme (.token kind literal w)) : Value.Native literal := by
  cases h with
  | string _ => exact Value.native_some (.string _)
  | whole _ _ => exact Value.native_some (.number _)
  | fraction _ _ _ _ => exact Value.native_some (.number _)
  | _ => exact Value.native_none

/-- A word is an identifier unless it is a keyword. -/
theorem Lexeme.isIdentifier (h : Lexeme (.token kind literal w)) (hkind : kind = .identifier) :
    IsIdentifier (String.ofList w) := by
  cases h with
  | @identifier c w hstart hparts hkeyword =>
    refine ⟨⟨c, w, rfl, hstart, hparts⟩, fun hmem => ?_⟩
    obtain ⟨entry, hentry, hword⟩ := List.mem_map.1 hmem
    exact hkeyword entry.2 (hword ▸ hentry)
  | keyword _ _ hentry =>
    have hall : ∀ entry ∈ Token.keywords, entry.2 ≠ .identifier := by decide
    exact absurd hkind (hall _ hentry)
  | punctuation hentry =>
    have hall : ∀ entry ∈ Element.punctuation, entry.2 ≠ .identifier := by decide
    exact absurd hkind (hall _ hentry)
  | comparison hentry =>
    have hall : ∀ entry ∈ comparisons, entry.2.2 ≠ .identifier := by decide
    exact absurd hkind (hall _ hentry)
  | comparisonEqual hentry =>
    have hall : ∀ entry ∈ comparisons, entry.2.1 ≠ .identifier := by decide
    exact absurd hkind (hall _ hentry)
  | _ => cases hkind

end Element

/-- Every token of a text but its end mark is a lexeme. -/
theorem Scan.exists_lexeme {source : String} {t : Token} (ht : t ∈ (Scan.ofText source).tokens)
    (hkind : t.kind ≠ .eof) :
    ∃ w, t.lexeme = String.ofList w ∧ Element.Lexeme (.token t.kind t.literal w) := by
  have hmem : (t.kind, t.lexeme, t.literal) ∈
      (Scan.ofText source).tokens.map fun t => (t.kind, t.lexeme, t.literal) :=
    List.mem_map_of_mem ht
  rw [Scan.ofText, Scan.tokens_ofElements, List.mem_append, List.mem_singleton] at hmem
  rcases hmem with hmem | hmark
  · exact Scan.exists_lexeme_of_mem_filterMap hmem
  · exact absurd (congrArg Prod.fst hmark) hkind

/-- A program that was read from a text has native literals, and declares identifiers. -/
theorem Program.contents_of_ofText {source : String} {body : Program}
    (h : Program.ofTokens (Scan.ofText source).tokens = .ok body) :
    (∀ v ∈ Program.literals body, Value.Native v) ∧
      ∀ x ∈ Program.declared body, Element.IsIdentifier x := by
  have hderives : Grammar.DerivesAll _ body := Grammar.derives_of_ofTokens h
  have hlexeme : ∀ t ∈ Token.body (Scan.ofText source).tokens,
      ∃ w, t.lexeme = String.ofList w ∧ Element.Lexeme (.token t.kind t.literal w) := fun t ht =>
    Scan.exists_lexeme (List.takeWhile_subset _ ht) (Grammar.Token.kind_ne_eof_of_mem_body ht)
  constructor
  · refine hderives.native_literals fun t ht => ?_
    obtain ⟨w, -, hw⟩ := hlexeme t ht
    exact hw.native_literal
  · intro x hx
    obtain ⟨t, ht, hkind, rfl⟩ := hderives.declared_mem hx
    obtain ⟨w, hname, hw⟩ := hlexeme t ht
    rw [hname]
    exact hw.isIdentifier hkind

end Scriptlet
