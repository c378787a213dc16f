import Scriptlet.Proofs.Execution.Blame
import Scriptlet.Proofs.Grammar.Location
import Scriptlet.Proofs.Report.Window
import Scriptlet.Proofs.Session.Stages
import Scriptlet.Proofs.Token.Location

/-!
# Every diagnostic points into its text

Tokens get their lines when the text is scanned. Reading and running only pass them on: a syntax
fault is at a token of the text or at its end mark, and a program that stops blames a token that it
was read from. So a diagnostic of a run points into the text of that run, whatever earlier runs have
left in the session, and its report has a line to mark.
-/

namespace Scriptlet

theorem Token.endMark_mem {tokens : List Token} {t : Token} (ht : t ∈ tokens)
    (heof : t.kind = .eof) : Token.endMark tokens ∈ tokens := by
  unfold endMark
  cases hfind : tokens.find? (·.kind == .eof) with
  | none => exact absurd heof (by simpa using List.find?_eq_none.1 hfind t ht)
  | some mark => exact List.mem_of_find?_eq_some hfind

namespace Session

variable {session : Session} {source : String} {echo : Bool} {run : Run} {result : RunResult}
  {d : Diagnostic}

/-- What is wrong in a run lies in its text, unless the room ran out. -/
theorem Ends.liesIn (h : Ends session source echo run) (hresult : run.result = some result)
    (hd : d ∈ result.errors) : d = Stop.exhausted.diagnostic ∨ d.LiesIn source.toList := by
  obtain ⟨htokens, hfaults⟩ := Scan.liesIn_ofText source
  cases h with
  | scanError _ =>
    cases hresult
    exact .inr (hfaults d hd)
  | parseError _ hread =>
    cases hresult
    obtain rfl := List.mem_singleton.1 hd
    -- The end mark is a token of the text as well, because scanning always puts one.
    obtain ⟨site, message, hsite, rfl⟩ := Program.eq_atToken_of_ofTokens hread
    have hmem : site ∈ (Scan.ofText source).tokens := by
      rcases hsite with hsite | rfl
      · exact hsite
      · obtain ⟨ts, mark, htokens, heof, -⟩ := Scan.exists_tokens_eq source
        exact Token.endMark_mem (htokens ▸ List.mem_append_right _ List.mem_cons_self) heof
    exact .inr ((htokens site hmem).atToken _ _)
  | @runtimeError program stop state _ hread hstop =>
    cases hresult
    obtain rfl := List.mem_singleton.1 hd
    cases stop with
    | exhausted => exact .inl rfl
    | fault cause site =>
      have hsite := blames_perform false echo program _ _ cause site hstop
      exact .inr ((htokens site (Program.tokens_subset_of_ofTokens hread hsite)).atToken _ _)
  | ok _ _ _ =>
    cases hresult
    exact absurd hd List.not_mem_nil

/-- Nothing is wrong with an empty text. -/
theorem Ends.source_ne_empty (h : Ends session source echo run) (hresult : run.result = some result)
    (hd : d ∈ result.errors) : source ≠ "" := by
  rintro rfl
  have hscan : Scan.ofText "" = { tokens := [Token.endAt 1] } := by
    rw [Scan.ofText, String.toList_empty, Element.split]
    rfl
  cases h with
  | scanError hfaults => exact hfaults (by rw [hscan])
  | parseError _ hread =>
    rw [hscan] at hread
    cases hread
  | runtimeError _ hread hstop =>
    rw [hscan] at hread
    cases hread
    cases hstop
  | ok _ _ _ =>
    cases hresult
    exact absurd hd List.not_mem_nil

/-- Each error of a run is reported in it, with the text of that run and not of an earlier one. -/
theorem Ends.report_mem_log (h : Ends session source echo run) (hresult : run.result = some result)
    (hd : d ∈ result.errors) :
    ⟨.report, (Report.ofDiagnostic d source Report.usualSize).text⟩ ∈ run.log := by
  cases h <;> cases hresult <;>
    exact List.mem_append_right _ (List.mem_map.2 ⟨d, hd, rfl⟩)

end Session

/-- The report of a diagnostic that lies in a text marks the diagnostic's line, and no other. -/
theorem Diagnostic.LiesIn.marked {source : String} {d : Diagnostic} (h : d.LiesIn source.toList)
    (hsource : source ≠ "") :
    ∃ context text, (Report.ofDiagnostic d source Report.usualSize).context = some context ∧
      (Report.ofDiagnostic d source Report.usualSize).text = d.text ++ "\n" ++ context ∧
      (source.toList.splitOn '\n')[(d.line - 1).toNat]? = some text ∧
      (context.toList.splitOn '\n').filter (·.head? = some '>') =
        ['>' :: ((Text.flushRight 5 (toString d.line)).toList ++ ": ".toList ++ text)] := by
  obtain ⟨text, htext⟩ := Report.getElem?_lines h.one_le_line h.line_le
  have hmarked := Report.filter_splitOn_window h.one_le_line h.line_le
    (show 0 ≤ Report.usualSize by decide) htext
  have hcontext : (Report.ofDiagnostic d source Report.usualSize).context =
      some (Report.window source d.line Report.usualSize) :=
    if_neg (by simpa using hsource)
  have hshown : Report.window source d.line Report.usualSize ≠ "" := by
    intro hempty
    rw [hempty] at hmarked
    exact absurd hmarked (by simp)
  refine ⟨_, text, hcontext, ?_, ?_, ?_⟩
  · rw [Report.text, hcontext]
    exact if_neg (by simpa using hshown)
  · rw [← Text.lines_eq_splitOn]
    exact htext
  · rw [hmarked, Report.toList_markedLine, if_pos rfl]

namespace Session

/-- Every diagnostic of a run, other than the one that has no place, points into the text of that
run, and the report that is written for it marks its line and no other. -/
theorem run_errors_liesIn (session : Session) (source : String) (echo : Bool)
    (hdebug : session.debug = false) :
    ∃ result, (session.run source echo).result = some result ∧
      ∀ d ∈ result.errors, d ≠ Stop.exhausted.diagnostic →
        d.LiesIn source.toList ∧
        ∃ context text, context ≠ "" ∧
          (Report.ofDiagnostic d source Report.usualSize).context = some context ∧
          ⟨.report, d.text ++ "\n" ++ context⟩ ∈ (session.run source echo).log ∧
          (source.toList.splitOn '\n')[(d.line - 1).toNat]? = some text ∧
          (context.toList.splitOn '\n').filter (·.head? = some '>') =
            ['>' :: ((Text.flushRight 5 (toString d.line)).toList ++ ": ".toList ++ text)] := by
  have hends : Ends session source echo (session.run source echo) := ends_run hdebug
  obtain ⟨result, hresult⟩ := hends.exists_result
  refine ⟨result, hresult, fun d hd hplace => ?_⟩
  have hlies := (hends.liesIn hresult hd).resolve_left hplace
  obtain ⟨context, text, hcontext, htext, hline, hmarked⟩ :=
    hlies.marked (hends.source_ne_empty hresult hd)
  have hreport := hends.report_mem_log hresult hd
  rw [htext] at hreport
  refine ⟨hlies, context, text, ?_, hcontext, hreport, hline, hmarked⟩
  rintro rfl
  exact absurd hmarked (by simp)

/-- A fault on the second line, from a value that an earlier run has left behind. -/
theorem run_errors_liesIn_second_line :
    let session := (run {} "var a = nil;" false).session
    let again := session.run "print 1;\nprint 1 - a;" false
    session.debug = false ∧
    again.result.map (·.errors.map fun d => (d.line, d.lexeme, d.message)) =
      some [(2, some "-", "Right operand must not be nil.")] ∧
    ∃ result, again.result = some result ∧
      ∀ d ∈ result.errors, d ≠ Stop.exhausted.diagnostic →
        d.LiesIn "print 1;\nprint 1 - a;".toList ∧
        ∃ context text, context ≠ "" ∧
          (Report.ofDiagnostic d "print 1;\nprint 1 - a;" Report.usualSize).context = some context ∧
          ⟨.report, d.text ++ "\n" ++ context⟩ ∈ again.log ∧
          ("print 1;\nprint 1 - a;".toList.splitOn '\n')[(d.line - 1).toNat]? = some text ∧
          (context.toList.splitOn '\n').filter (·.head? = some '>') =
            ['>' :: ((Text.flushRight 5 (toString d.line)).toList ++ ": ".toList ++ text)] := by
  have hdebug : (run {} "var a = nil;" false).session.debug = false := by decide +kernel
  exact ⟨hdebug, by decide +kernel, run_errors_liesIn _ _ _ hdebug⟩

end Session

end Scriptlet
