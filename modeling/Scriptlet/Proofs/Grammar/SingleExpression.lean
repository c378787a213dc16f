import Scriptlet.Proofs.Grammar.Completeness
import Scriptlet.Proofs.Token.Continuation

/-!
# An expression on its own and as a statement

An expression can be read on its own, up to the end of the tokens, or as a statement, up to a
semicolon. No rule for expressions takes a semicolon, so each does before one what it does at the end
of the tokens (`ExprSymbol.endedBy`), with as many levels. Hence the two ways of reading accept the
same expressions and differ only in how many levels are open around the expression. For texts, the
semicolon is written on a line of its own, which a comment does not reach and an open string does.
-/

namespace Scriptlet

namespace Rule

variable {α β : Type} {t : Token}

/-! ## A token that no rule takes -/

/-- An answer before one more token. A fault at the end of the tokens is then at that token. -/
def before (t : Token) :
    EStateM.Result SyntaxFault (List Token) α → EStateM.Result SyntaxFault (List Token) α
  | .ok a s => .ok a (s ++ [t])
  | .error fault s => .error ⟨fault.cause, fault.site.or (some t)⟩ (s ++ [t])

/-- Before a token, a rule does what it does at the end of the tokens. -/
def EndedBy (t : Token) (r : Rule α) : Prop := ∀ s, r (s ++ [t]) = before t (r s)

theorem endedBy_pure (a : α) : EndedBy t (pure a : Rule α) := fun _ => rfl

theorem endedBy_throw (cause : SyntaxFault.Cause) (site : Token) :
    EndedBy t (throw ⟨cause, some site⟩ : Rule α) := fun _ => rfl

/-- A fault at the end of the tokens stands at the token once there is one. -/
theorem endedBy_fail (cause : SyntaxFault.Cause) : EndedBy t (fail cause : Rule α) := by
  intro s
  rw [fail_apply, fail_apply, before, List.head?_append, List.head?_singleton]

/-- A token that is not looked for is like the end of the tokens. -/
theorem endedBy_accept? {kinds : List Token.Kind} (ht : t.kind ∉ kinds) :
    EndedBy t (accept? kinds) := by
  intro s
  cases s with
  | nil => exact accept?_of_stops (stops_cons.2 ht)
  | cons u s =>
    by_cases hu : u.kind ∈ kinds
    · rw [List.cons_append, accept?_of_mem hu, accept?_of_mem hu]
      rfl
    · rw [List.cons_append, accept?_of_stops (stops_cons.2 hu), accept?_of_stops (stops_cons.2 hu)]
      rfl

/-- The token stays last whatever the first rule takes. -/
theorem EndedBy.bind {r : Rule α} {next : α → Rule β} (hr : EndedBy t r)
    (hnext : ∀ a, EndedBy t (next a)) : EndedBy t (r >>= next) := by
  intro s
  rw [bind_apply, bind_apply, hr s]
  cases r s with
  | ok a u => exact hnext a u
  | error fault u => rfl

theorem endedBy_expect {kind : Token.Kind} (ht : t.kind ≠ kind) (cause : SyntaxFault.Cause) :
    EndedBy t (expect kind cause) := by
  refine (endedBy_accept? (by simpa using ht)).bind fun found => ?_
  cases found with
  | none => exact endedBy_fail cause
  | some token => exact endedBy_pure token

theorem endedBy_chainBounded {operators : List Token.Kind} {operand : Rule Expr}
    (ht : t.kind ∉ operators) (hoperand : EndedBy t operand) (bound : Nat) (left : Expr) :
    EndedBy t (chainBounded operators operand bound left) := by
  induction bound generalizing left with
  | zero => exact endedBy_pure left
  | succ bound ih =>
    refine (endedBy_accept? ht).bind fun found => ?_
    cases found with
    | none => exact endedBy_pure left
    | some operator => exact hoperand.bind fun right => ih _

/-- There is one token more, so that the loop has a greater bound, which it does not come to. -/
theorem endedBy_chain {operators : List Token.Kind} {operand : Rule Expr}
    {Made : List Token → Expr → Prop} (ht : t.kind ∉ operators) (hoperand : EndedBy t operand)
    (hsound : Sound operand Made) : EndedBy t (chain operators operand) := by
  refine hoperand.bind fun left s => ?_
  -- The loop may go round once more often before the token, which it has no use for.
  have hbound : chainBounded operators operand (s ++ [t]).length left s =
      chainBounded operators operand s.length left s :=
    chainBounded_congr hsound (by simp) (Nat.le_refl _)
  change chainBounded operators operand (s ++ [t]).length left (s ++ [t]) =
    before t (chainBounded operators operand s.length left s)
  rw [endedBy_chainBounded ht hoperand, hbound]

theorem many_of_error {stop : Token.Kind} {phrase : Rule α} {s u : List Token} {fault : SyntaxFault}
    (hstop : t.kind ≠ stop) (h : phrase (t :: s) = .error fault u) :
    many stop phrase (t :: s) = .error fault u := by
  simp only [many, bind_apply, get_apply, List.length_cons, manyBounded, next?_apply,
    List.head?_cons, Option.map_some, hstop, ↓reduceIte, h]

end Rule

namespace Grammar

open Rule

variable {t : Token} {s : List Token} {e : Expr}

/-! ## Expressions before a semicolon -/

section Levels

variable {levels : Nat} (ht : t.kind = .semicolon)
include ht

theorem not_mem_of_semicolon {kinds : List Token.Kind} (h : .semicolon ∉ kinds) :
    t.kind ∉ kinds := by
  rwa [ht]

theorem endedBy_assignment (hequality : EndedBy t (Grammar.equality levels))
    (hassignment : EndedBy t (Grammar.assignment levels)) :
    EndedBy t (Grammar.assignment (levels + 1)) := by
  have hequal : EndedBy t (accept? [.equal]) := endedBy_accept? (not_mem_of_semicolon ht (by decide))
  refine hequality.bind fun left => hequal.bind fun found => ?_
  cases found with
  | none => exact endedBy_pure left
  | some equals =>
    refine hassignment.bind fun value => ?_
    cases left with
    | read name => exact endedBy_pure _
    | _ => exact endedBy_throw _ _

theorem endedBy_unary (hunary : EndedBy t (Grammar.unary levels))
    (hprimary : EndedBy t (Grammar.primary levels)) : EndedBy t (Grammar.unary (levels + 1)) := by
  refine (endedBy_accept? (not_mem_of_semicolon ht (by decide))).bind fun found => ?_
  cases found with
  | none => exact hprimary
  | some operator => exact hunary.bind fun right => endedBy_pure _

theorem endedBy_primary (hexpression : EndedBy t (Grammar.expression levels)) :
    EndedBy t (Grammar.primary (levels + 1)) := by
  refine (endedBy_accept? (not_mem_of_semicolon ht (by decide))).bind fun found => ?_
  cases found with
  | none => exact endedBy_fail .expression
  | some token =>
    simp only
    cases token.kind
    case leftParen =>
      exact hexpression.bind fun inner =>
        (endedBy_expect (by simp [ht]) _).bind fun _ => endedBy_pure _
    all_goals exact endedBy_pure _

/-- Before a semicolon, an expression is read as at the end of the tokens. -/
theorem ExprSymbol.endedBy (symbol : ExprSymbol) (levels : Nat) :
    EndedBy t (symbol.rule levels) := by
  induction levels using Nat.strongRecOn generalizing symbol with
  | ind levels ih =>
    cases levels with
    | zero =>
      rw [symbol.rule_zero]
      exact endedBy_fail .shallowerNesting
    | succ levels =>
      have ih' := fun symbol => ih levels (by omega) symbol
      cases symbol with
      | expression => exact ih' .assignment
      | assignment => exact endedBy_assignment ht (ih' (.chain .equality)) (ih' .assignment)
      | unary => exact endedBy_unary ht (ih' .unary) (ih' .primary)
      | primary => exact endedBy_primary ht (ih' .expression)
      | chain c =>
        cases levels with
        | zero =>
          change EndedBy t (c.rule 1)
          rw [c.rule_one]
          exact endedBy_fail .shallowerNesting
        | succ levels =>
          have hoperators : t.kind ∉ c.operators :=
            not_mem_of_semicolon ht (by cases c <;> decide)
          change EndedBy t (c.rule (levels + 2))
          rw [c.rule_add_two]
          exact endedBy_chain hoperators (ih levels (by omega) c.operand) (c.operand.sound levels)

end Levels

/-! ## A single expression -/

/-- An expression on its own leaves no token behind. -/
theorem singleExpression_eq_ok {levels : Nat} {u : List Token} :
    singleExpression (levels + 1) s = .ok e u ↔ expression levels s = .ok e [] ∧ u = [] := by
  simp only [singleExpression]
  rw [bind_eq_ok]
  constructor
  · rintro ⟨value, rest, hvalue, h⟩
    cases rest with
    | nil =>
      cases h
      exact ⟨hvalue, rfl⟩
    | cons token rest => cases h
  · rintro ⟨h, rfl⟩
    exact ⟨e, [], h, rfl⟩

theorem derives_of_singleExpression {levels : Nat} {u : List Token}
    (h : singleExpression levels s = .ok e u) : DerivesExpr .expression s e := by
  cases levels with
  | zero => cases h
  | succ levels =>
    obtain ⟨used, hused, hderives⟩ :=
      ExprSymbol.expression.sound levels (singleExpression_eq_ok.1 h).1
    rwa [hused, List.append_nil]

/-- The end of the tokens continues no expression. -/
theorem DerivesExpr.reads_single (h : DerivesExpr .expression s e) :
    ∃ n, ∀ m, n ≤ m → singleExpression m s = .ok e [] := by
  obtain ⟨n, h⟩ := h.reads
  refine ⟨n + 1, fun m hm => ?_⟩
  obtain ⟨m, rfl⟩ : ∃ k, m = k + 1 := ⟨m - 1, by omega⟩
  have hread := h m (by omega) [] (stops_nil _)
  rw [List.append_nil] at hread
  exact singleExpression_eq_ok.2 ⟨hread, rfl⟩

/-- More levels do not change how a single expression is read. -/
theorem singleExpression_eq_or_exhausted {m n : Nat} (hmn : m ≤ n) (s : List Token) :
    Exhausted (singleExpression m s) ∨ singleExpression n s = singleExpression m s := by
  suffices h : Refines id (Expr.mapTokens id) (singleExpression m) (singleExpression n) from
    h.eq_or_exhausted Expr.mapTokens_id s
  cases m with
  | zero => exact refines_exhausted _
  | succ m =>
    obtain ⟨n, rfl⟩ : ∃ k, n = k + 1 := ⟨n - 1, by omega⟩
    refine (ExprSymbol.expression.refines Unread.id (Nat.le_of_succ_le_succ hmn)).bind fun value =>
      (refines_next? Unread.id).bind fun kind => ?_
    cases kind with
    | none => exact refines_pure rfl
    | some kind => exact refines_fail .endOfExpression

/-! ## Reading with the given levels -/

/-- Reading was given up for want of levels. -/
def RunsOut {α : Type} (result : Except Diagnostic α) : Prop :=
  ∃ fault, result = .error fault ∧ fault.kind = .parse ∧
    fault.message = "Expression nested too deeply."

/-- What is read with levels enough is read with the given ones, unless they run out. -/
theorem read_eq_ok_or_runsOut {α : Type} {rule : Nat → Rule α} {tokens rest : List Token} {a : α}
    (hmore : ∀ {m n}, m ≤ n → ∀ s, Exhausted (rule m s) ∨ rule n s = rule m s)
    (h : ∃ n, ∀ m, n ≤ m → rule m (Token.body tokens) = .ok a rest) :
    read rule tokens = .ok a ∨ RunsOut (read rule tokens) := by
  obtain ⟨n, hn⟩ := h
  obtain hout | hsame := hmore (Nat.le_max_left Nesting.reading n) (Token.body tokens)
  · exact .inr (read_of_exhausted hout)
  · left
    rw [read, ← hsame, hn _ (Nat.le_max_right ..)]

/-! ## A single statement -/

/-- Only an expression and a semicolon make up a program of one expression statement. -/
theorem DerivesAll.of_expression {ts : List Token} (h : DerivesAll ts [.expression e]) :
    ∃ us semicolon, ts = us ++ [semicolon] ∧ DerivesExpr .expression us e := by
  cases h with
  | cons hfirst hrest =>
    cases hrest
    rw [List.append_nil]
    cases hfirst with
    | varDecl h => cases h
    | statement h =>
      cases h with
      | exprStmt h =>
        cases h with
        | expression h _ => exact ⟨_, _, rfl, h⟩
      | printStmt h => cases h
      | block h => cases h

/-- A declaration that starts with an expression is read as an expression statement. -/
theorem DerivesExpr.declaration_append (h : DerivesExpr .expression s e) (levels : Nat)
    (rest : List Token) : ∃ u us, s = u :: us ∧
      declaration (levels + 2) (u :: (us ++ rest)) = expressionStatement levels (s ++ rest) := by
  have hstart := h.startsIn
  have hvar : Stops [.varWord] (s ++ rest) := (hstart.append rest).stops (by decide)
  have hother : Stops [.printWord, .leftBrace] (s ++ rest) :=
    (hstart.append rest).stops (by decide)
  obtain ⟨u, us, rfl, -⟩ := hstart
  refine ⟨u, us, rfl, ?_⟩
  rw [← List.cons_append, declaration, bind_of_ok (accept?_of_stops hvar)]
  simp only [statement]
  rw [bind_of_ok (accept?_of_stops hother)]

section Semicolon

variable {levels : Nat} (ht : t.kind = .semicolon)
include ht

/-- The semicolon is all that a statement has more than its expression. -/
theorem expressionStatement_append_semicolon (h : expression levels s = .ok e []) :
    expressionStatement (levels + 1) (s ++ [t]) = .ok (.expression e) [] := by
  have hvalue : expression levels (s ++ [t]) = before t (expression levels s) :=
    ExprSymbol.expression.endedBy ht levels s
  rw [h] at hvalue
  rw [expressionStatement, bind_of_ok hvalue, List.nil_append, bind_of_ok (expect_of_kind ht)]
  rfl

theorem expressionStatement_exhausted (h : Exhausted (expression levels s)) :
    Exhausted (expressionStatement (levels + 1) (s ++ [t])) := by
  have hvalue : expression levels (s ++ [t]) = before t (expression levels s) :=
    ExprSymbol.expression.endedBy ht levels s
  rw [expressionStatement, bind_apply, hvalue]
  cases hread : expression levels s with
  | ok value u =>
    rw [hread] at h
    exact h.elim
  | error fault u =>
    rw [hread] at h
    exact h

variable (hs : ∀ u ∈ s, u.kind ≠ .eof)
include hs

/-- An expression that is read as the only statement is read on its own, with the three levels less
that are open around it there. -/
theorem singleExpression_of_program {rest : List Token}
    (h : program (levels + 4) (s ++ [t]) = .ok [.expression e] rest) :
    singleExpression (levels + 1) s = .ok e [] := by
  have hall : ∀ u ∈ s ++ [t], u.kind ≠ .eof := by
    rw [List.forall_mem_append, List.forall_mem_singleton, ht]
    exact ⟨hs, by decide⟩
  obtain ⟨us, semicolon, hsplit, hderives⟩ := (derives_of_program hall h).of_expression
  obtain ⟨rfl, -⟩ := List.append_inj' hsplit rfl
  obtain ⟨n, hn⟩ := hderives.reads
  have hread := hn _ (Nat.le_max_right levels n) [] (stops_nil _)
  rw [List.append_nil] at hread
  have hrefines := ExprSymbol.expression.refines Unread.id (Nat.le_max_left levels n)
  obtain hout | hsame := hrefines.eq_or_exhausted Expr.mapTokens_id s
  · -- Without enough levels for the expression there are not enough for the statement.
    obtain ⟨u, us, rfl, hdeclaration⟩ := hderives.declaration_append (levels + 1) [t]
    have hout := expressionStatement_exhausted ht hout
    rw [← hdeclaration] at hout
    cases hfirst : declaration (levels + 3) (u :: (us ++ [t])) with
    | ok first rest =>
      rw [hfirst] at hout
      exact hout.elim
    | error fault rest =>
      rw [List.cons_append, program, many_of_error (hs u List.mem_cons_self) hfirst] at h
      cases h
  · exact singleExpression_eq_ok.2 ⟨hsame.symm.trans hread, rfl⟩

/-- Three more levels are open around an expression that is a statement. -/
theorem program_of_singleExpression (h : singleExpression (levels + 1) s = .ok e []) :
    program (levels + 4) (s ++ [t]) = .ok [.expression e] [] := by
  obtain ⟨u, us, rfl, hdeclaration⟩ :=
    (derives_of_singleExpression h).declaration_append (levels + 1) [t]
  rw [expressionStatement_append_semicolon ht (singleExpression_eq_ok.1 h).1] at hdeclaration
  rw [List.cons_append, program, many_of_ok (sound_statements _).1 DerivesStmt.length_pos
    (hs u List.mem_cons_self) hdeclaration, map_apply, many_of_stop (by simp)]

end Semicolon

/-! ## Texts -/

variable {α : Type} {rule : Nat → Rule α} {source : String}

theorem readText_of_diagnostics_eq_nil (h : (Scan.ofText source).diagnostics = []) :
    readText rule source = read rule (Scan.ofText source).tokens := by
  unfold readText
  simp only [h]

theorem readText_of_diagnostics_eq_cons {first : Diagnostic} {rest : List Diagnostic}
    (h : (Scan.ofText source).diagnostics = first :: rest) :
    readText rule source = .error first := by
  unfold readText
  simp only [h]

/-- A text that is read has no lexical faults, and its tokens are read. -/
theorem of_readText_eq_ok {a : α} (h : readText rule source = .ok a) :
    (Scan.ofText source).diagnostics = [] ∧
      ∃ rest, rule Nesting.reading (Token.body (Scan.ofText source).tokens) = .ok a rest := by
  cases hdiagnostics : (Scan.ofText source).diagnostics with
  | cons first rest =>
    rw [readText_of_diagnostics_eq_cons hdiagnostics] at h
    cases h
  | nil =>
    rw [readText_of_diagnostics_eq_nil hdiagnostics] at h
    unfold read at h
    cases hread : rule Nesting.reading (Token.body (Scan.ofText source).tokens) with
    | ok b rest =>
      rw [hread] at h
      cases h
      exact ⟨rfl, rest, rfl⟩
    | error fault rest =>
      rw [hread] at h
      cases h

theorem readText_of_eq_ok {a : α} {rest : List Token} (h : (Scan.ofText source).diagnostics = [])
    (hread : rule Nesting.reading (Token.body (Scan.ofText source).tokens) = .ok a rest) :
    readText rule source = .ok a := by
  rw [readText_of_diagnostics_eq_nil h, read, hread]

theorem append_semicolon (source : String) : source ++ "\n;" = source ++ "\n" ++ ";" := by
  rw [String.append_assoc]
  rfl

/-- A semicolon on the next line does not change the first complaint about a text, except for the
line of an open string. -/
theorem diagnostics_append_semicolon {first : Diagnostic} {rest : List Diagnostic}
    (h : (Scan.ofText source).diagnostics = first :: rest) :
    ∃ more, (Scan.ofText (source ++ "\n;")).diagnostics =
      (if first.message = "Unterminated string." then first.down 1 else first) :: more := by
  rw [append_semicolon]
  exact Scan.diagnostics_append_newline (by decide) h

/-- A semicolon on the next line is one more token. -/
theorem body_append_semicolon (h : (Scan.ofText source).diagnostics = []) :
    (Scan.ofText (source ++ "\n;")).diagnostics = [] ∧
      ∃ t : Token, t.kind = .semicolon ∧ Token.body (Scan.ofText (source ++ "\n;")).tokens =
        Token.body (Scan.ofText source).tokens ++ [t] := by
  have hfaults : (Scan.ofText source).faults = [] := List.map_eq_nil_iff.1 h
  have htokens : Token.body (Scan.ofText ";").tokens = [⟨.semicolon, ";", none, 1⟩] := by
    decide +kernel
  have hclean : (Scan.ofText ";").diagnostics = [] := by decide +kernel
  rw [append_semicolon]
  constructor
  · rw [Scan.ofText_append_newline _ _ (Scan.unterminated_not_mem hfaults),
      Scan.diagnostics_append, Scan.diagnostics_down, h, hclean]
    rfl
  · obtain ⟨hbody, -⟩ := Scan.body_ofText_append_newline hfaults (b := ";")
    rw [htokens] at hbody
    exact ⟨_, rfl, hbody⟩

end Grammar

open Grammar in
/-- The text of an expression, and the same text with a semicolon on the next line, are read alike.
What the first is read as is the only statement of the second, with the lines of all tokens, and
there is no other way for the second to be one expression statement. Only levels may run out in the
second and not in the first, since a program has three more open around the expression; with as many
more given, they never differ. Of a text with lexical faults, both complain of the first one. -/
theorem Expr.ofText_statement (source : String) :
    (∀ e, Program.ofText (source ++ "\n;") = .ok [.expression e] → Expr.ofText source = .ok e) ∧
    (∀ e, Expr.ofText source = .ok e →
      Program.ofText (source ++ "\n;") = .ok [.expression e] ∨
        RunsOut (Program.ofText (source ++ "\n;"))) ∧
    ((Scan.ofText source).diagnostics = [] → ∀ e levels,
      (singleExpression (levels + 1) (Token.body (Scan.ofText source).tokens) = .ok e [] ↔
        program (levels + 4) (Token.body (Scan.ofText (source ++ "\n;")).tokens) =
          .ok [.expression e] [])) ∧
    ∀ first rest, (Scan.ofText source).diagnostics = first :: rest →
      Expr.ofText source = .error first ∧
      Program.ofText (source ++ "\n;") =
        .error (if first.message = "Unterminated string." then first.down 1 else first) := by
  have hbody : ∀ u ∈ Token.body (Scan.ofText source).tokens, u.kind ≠ .eof :=
    fun _ => Token.kind_ne_eof_of_mem_body
  refine ⟨?_, ?_, ?_, ?_⟩
  · intro e h
    obtain ⟨hclean', rest, hread⟩ := of_readText_eq_ok h
    have hclean : (Scan.ofText source).diagnostics = [] := by
      cases hdiagnostics : (Scan.ofText source).diagnostics with
      | nil => rfl
      | cons first rest =>
        obtain ⟨more, hmore⟩ := diagnostics_append_semicolon hdiagnostics
        rw [hmore] at hclean'
        cases hclean'
    obtain ⟨-, t, ht, htokens⟩ := body_append_semicolon hclean
    rw [htokens, show Nesting.reading = 982 + 4 from rfl] at hread
    have hfewer := singleExpression_of_program ht hbody hread
    have hmore : 982 + 1 ≤ Nesting.reading := by decide
    obtain hout | hsame := singleExpression_eq_or_exhausted hmore _
    · rw [hfewer] at hout
      exact hout.elim
    · exact readText_of_eq_ok hclean (hsame.trans hfewer)
  · intro e h
    obtain ⟨hclean, rest, hread⟩ := of_readText_eq_ok h
    obtain ⟨hclean', t, ht, htokens⟩ := body_append_semicolon hclean
    have hderives : Derives (Token.body (Scan.ofText source).tokens ++ [t]) [.expression e] := by
      have hvalue := derives_of_singleExpression hread
      have hall := DerivesAll.cons (.statement (.exprStmt (.expression hvalue ht))) .nil
      rwa [List.append_nil] at hall
    rw [← htokens] at hderives
    rw [Program.ofText, readText_of_diagnostics_eq_nil hclean']
    exact read_eq_ok_or_runsOut program_eq_or_exhausted hderives.reads
  · intro h e levels
    obtain ⟨-, t, ht, htokens⟩ := body_append_semicolon h
    rw [htokens]
    exact ⟨program_of_singleExpression ht hbody, singleExpression_of_program ht hbody⟩
  · intro first rest h
    obtain ⟨more, hmore⟩ := diagnostics_append_semicolon h
    exact ⟨readText_of_diagnostics_eq_cons h, readText_of_diagnostics_eq_cons hmore⟩

/-- A comment ends before the semicolon, and an open string does not. -/
theorem Expr.ofText_statement_comment :
    (∃ e, Expr.ofText "x = -y\n!= z // ;" = .ok e ∧
      Program.ofText ("x = -y\n!= z // ;" ++ "\n;") = .ok [.expression e]) ∧
    Expr.ofText "x\n+ \"z" = .error { kind := .scan, message := "Unterminated string.", line := 2 } ∧
    Program.ofText ("x\n+ \"z" ++ "\n;") =
      .error { kind := .scan, message := "Unterminated string.", line := 3 } := by
  refine ⟨?_, ?_⟩
  · have hread : Expr.ofText "x = -y\n!= z // ;" = .ok
        (.assign ⟨.identifier, "x", none, 1⟩
          (.binary (.unary ⟨.minus, "-", none, 1⟩ (.read ⟨.identifier, "y", none, 1⟩))
            ⟨.bangEqual, "!=", none, 2⟩ (.read ⟨.identifier, "z", none, 2⟩))) := by
      decide +kernel
    have hok : (Program.ofText ("x = -y\n!= z // ;" ++ "\n;")).isOk = true := by decide +kernel
    obtain h | ⟨fault, hfault, -⟩ := (Expr.ofText_statement "x = -y\n!= z // ;").2.1 _ hread
    · exact ⟨_, hread, h⟩
    · rw [hfault] at hok
      cases hok
  · have hscan : (Scan.ofText "x\n+ \"z").diagnostics =
        [{ kind := .scan, message := "Unterminated string.", line := 2 }] := by
      decide +kernel
    exact (Expr.ofText_statement "x\n+ \"z").2.2.2 _ _ hscan

end Scriptlet
