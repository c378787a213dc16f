import Scriptlet.Proofs.Token.Composition

/-!
# Scanning undoes writing tokens out

Tokens can be written out with any text between them that starts with a blank and goes on with
blanks and comments. No such text runs into a token before it, and no token runs into it, so each
token is split off as it was written (`Element.split_token_append`) and the text between is skipped
(`Element.split_gap_append`). The scan of the whole is then the tokens again, whatever stood between
them.
-/

namespace Scriptlet

namespace Element

/-! ## Text between tokens -/

/-- Blanks and comments in any number, every comment with the line feed that ends it. -/
inductive Gap : List Char → Prop
  | nil : Gap []
  | blank {c : Char} {w : List Char} : c ∈ blanks → Gap w → Gap (c :: w)
  | comment {v w : List Char} : '\n' ∉ v → Gap w → Gap ('/' :: '/' :: (v ++ '\n' :: w))

/-- A gap that starts with a blank, so that it ends any token before it. -/
def Separator (w : List Char) : Prop := ∃ c v, w = c :: v ∧ c ∈ blanks ∧ Gap v

theorem first_blank {c : Char} (h : c ∈ blanks) (rest : List Char) :
    first c rest = .skipped [c] := by
  simp only [blanks, List.mem_cons, List.not_mem_nil, or_false] at h
  rcases h with rfl | rfl | rfl | rfl <;> rfl

theorem split_blank {c : Char} (h : c ∈ blanks) (rest : List Char) :
    split (c :: rest) = .skipped [c] :: split rest := by
  rw [split_cons, first_blank h]
  rfl

/-- A comment is skipped up to the line feed that ends it. -/
theorem split_comment {v : List Char} (h : '\n' ∉ v) (rest : List Char) :
    split ('/' :: '/' :: (v ++ '\n' :: rest)) =
      .skipped ('/' :: '/' :: v) :: .skipped ['\n'] :: split rest := by
  have hfirst : first '/' ('/' :: (v ++ '\n' :: rest)) = .skipped ('/' :: '/' :: v) := by
    have hopen : '/' = '"' → '"' ∈ '/' :: v := by
      intro hc
      cases hc
    rw [← List.cons_append, first_append_newline hopen]
    exact (Lexeme.comment h).first_eq rfl
  have hdrop : ('/' :: '/' :: (v ++ '\n' :: rest)).drop ('/' :: '/' :: v).length = '\n' :: rest := by
    rw [← List.cons_append, ← List.cons_append, List.drop_left]
  rw [split_cons, hfirst, text, hdrop, split_blank (by decide)]

/-- A gap splits into elements that are skipped, whatever follows it. -/
theorem split_gap_append {w : List Char} (h : Gap w) (rest : List Char) :
    ∃ skips : List (List Char), split (w ++ rest) = skips.map .skipped ++ split rest := by
  induction h with
  | nil => exact ⟨[], rfl⟩
  | @blank c w hc _ ih =>
    obtain ⟨skips, hskips⟩ := ih
    refine ⟨[c] :: skips, ?_⟩
    rw [List.cons_append, split_blank hc, hskips]
    rfl
  | @comment v w hv _ ih =>
    obtain ⟨skips, hskips⟩ := ih
    refine ⟨('/' :: '/' :: v) :: ['\n'] :: skips, ?_⟩
    rw [List.cons_append, List.cons_append, List.append_assoc, List.cons_append, split_comment hv,
      hskips]
    rfl

/-! ## Tokens before a gap -/

/-- A token before a blank is what it is on its own. -/
theorem first_token_append {kind : Token.Kind} {literal : Value} {c b : Char} {w : List Char}
    (h : Lexeme (.token kind literal (c :: w))) (hb : b ∈ blanks) (tail : List Char) :
    first c (w ++ b :: tail) = .token kind literal (c :: w) := by
  have hfirst : first c w = .token kind literal (c :: w) := h.first_eq rfl
  have hquote : c = '"' → '"' ∈ w := by
    rintro rfl
    by_contra hopen
    rw [first_quote, stringFrom_of_not_mem hopen] at hfirst
    cases hfirst
  have hcomment : c = '/' → w.head? = some '/' → b = '\n' := by
    rintro rfl hslash
    rw [first_slash, if_pos hslash] at hfirst
    cases hfirst
  rw [first_append_blank hb hquote hcomment, hfirst]

/-- A token is split off from what follows it, if that is nothing or starts with a blank. -/
theorem split_token_append {kind : Token.Kind} {literal : Value} {w rest : List Char}
    (h : Lexeme (.token kind literal w)) (hrest : rest = [] ∨ ∃ b ∈ blanks, ∃ tail, rest = b :: tail) :
    split (w ++ rest) = .token kind literal w :: split rest := by
  obtain ⟨c, v, rfl⟩ : ∃ c v, w = c :: v := List.exists_cons_of_ne_nil h.text_ne_nil
  have hfirst : first c (v ++ rest) = .token kind literal (c :: v) := by
    rcases hrest with rfl | ⟨b, hb, tail, rfl⟩
    · rw [List.append_nil]
      exact h.first_eq rfl
    · exact first_token_append h hb tail
  rw [List.cons_append, split_cons, hfirst, text, ← List.cons_append, List.drop_left]

end Element

/-! ## Tokens written out -/

namespace Token

/-- What a token says apart from where it stands. -/
def told (t : Token) : Kind × String × Value := (t.kind, t.lexeme, t.literal)

/-- A token whose lexeme is of the lexical class of its kind and stands for its datum. -/
def Legal (t : Token) : Prop := Element.Lexeme (.token t.kind t.literal t.lexeme.toList)

/-- Tokens written out, each with the text that follows it. -/
def written (spaced : List (Token × List Char)) : List Char :=
  spaced.flatMap fun entry => entry.1.lexeme.toList ++ entry.2

/-- Every token has a separator after it, but the last one may have nothing after it. -/
def Spaced : List (Token × List Char) → Prop
  | [] => True
  | [entry] => entry.2 = [] ∨ Element.Separator entry.2
  | entry :: next :: rest => Element.Separator entry.2 ∧ Spaced (next :: rest)

/-- The text after a token is a gap, and if any text follows the token it starts with a blank. -/
theorem Spaced.head {entry : Token × List Char} {rest : List (Token × List Char)}
    (h : Spaced (entry :: rest)) :
    Element.Gap entry.2 ∧ Spaced rest ∧ (entry.2 ++ written rest = [] ∨
      ∃ b ∈ Element.blanks, ∃ tail, entry.2 ++ written rest = b :: tail) := by
  have hseparator : Element.Separator entry.2 → Element.Gap entry.2 ∧
      ∃ b ∈ Element.blanks, ∃ tail, entry.2 ++ written rest = b :: tail := by
    rintro ⟨b, v, hgap, hb, hv⟩
    rw [hgap]
    exact ⟨.blank hb hv, b, hb, v ++ written rest, rfl⟩
  cases rest with
  | nil =>
    rcases h with hnothing | hgap
    · rw [hnothing]
      exact ⟨.nil, trivial, .inl rfl⟩
    · obtain ⟨hgap, hblank⟩ := hseparator hgap
      exact ⟨hgap, trivial, .inr hblank⟩
  | cons next rest =>
    obtain ⟨hgap, hspaced⟩ := h
    obtain ⟨hgap, hblank⟩ := hseparator hgap
    exact ⟨hgap, hspaced, .inr hblank⟩

end Token

namespace Element

/-- Skipped text holds no token and nothing wrong. -/
theorem filterMap_skips {β : Type} {f : Element → Option β} (hf : ∀ w, f (.skipped w) = none)
    (skips : List (List Char)) (elements : List Element) :
    (skips.map Element.skipped ++ elements).filterMap f = elements.filterMap f := by
  rw [List.filterMap_append, List.filterMap_map, List.filterMap_eq_nil_iff.2, List.nil_append]
  intro w _
  exact hf w

/-- The elements of written tokens are those tokens, among text that is skipped. -/
theorem split_written {spaced : List (Token × List Char)} (hlegal : ∀ entry ∈ spaced, entry.1.Legal)
    (hspaced : Token.Spaced spaced) :
    (split (Token.written spaced)).filterMap token? = spaced.map (·.1.told) ∧
      (split (Token.written spaced)).filterMap complaint? = [] := by
  induction spaced with
  | nil =>
    rw [Token.written, List.flatMap_nil, split]
    exact ⟨rfl, rfl⟩
  | cons entry rest ih =>
    obtain ⟨t, gap⟩ := entry
    obtain ⟨hgap, hrest, hafter⟩ := hspaced.head
    obtain ⟨ht, hlegal⟩ := List.forall_mem_cons.1 hlegal
    obtain ⟨htokens, hcomplaints⟩ := ih hlegal hrest
    obtain ⟨skips, hskips⟩ := split_gap_append hgap (Token.written rest)
    have hsplit : split (Token.written ((t, gap) :: rest)) =
        .token t.kind t.literal t.lexeme.toList ::
          (skips.map .skipped ++ split (Token.written rest)) := by
      rw [Token.written, List.flatMap_cons, List.append_assoc]
      exact (split_token_append ht hafter).trans (congrArg _ hskips)
    rw [hsplit]
    constructor
    · rw [List.filterMap_cons_some (b := t.told) (by rw [token?, String.ofList_toList]; rfl),
        filterMap_skips (fun _ => rfl), htokens]
      rfl
    · rw [List.filterMap_cons_none rfl, filterMap_skips (fun _ => rfl), hcomplaints]

end Element

namespace Scan

/-- Legal tokens that are written out are scanned without a fault, and the scan gives them back. -/
theorem ofText_written {lead : List Char} {spaced : List (Token × List Char)}
    (hlead : Element.Gap lead) (hlegal : ∀ entry ∈ spaced, entry.1.Legal)
    (hspaced : Token.Spaced spaced) :
    let scan := ofText (String.ofList (lead ++ Token.written spaced))
    scan.faults = [] ∧
      scan.tokens.map Token.told = spaced.map (·.1.told) ++ [(.eof, "", none)] := by
  intro scan
  obtain ⟨htokens, hcomplaints⟩ := Element.split_written hlegal hspaced
  obtain ⟨skips, hskips⟩ := Element.split_gap_append hlead (Token.written spaced)
  have hscan : scan = ofElements 1 (skips.map .skipped ++ Element.split (Token.written spaced)) := by
    rw [← hskips]
    unfold scan ofText
    rw [String.toList_ofList]
  rw [hscan]
  constructor
  · have hnone := diagnostics_ofElements 1
      (skips.map .skipped ++ Element.split (Token.written spaced))
    rw [Element.filterMap_skips (fun _ => rfl), hcomplaints] at hnone
    simpa [diagnostics] using hnone
  · refine (tokens_ofElements 1 _).trans ?_
    rw [Element.filterMap_skips (fun _ => rfl), htokens]

/-- The tokens of a text before its end mark are those of its elements. -/
theorem map_told_dropLast (source : String) :
    (ofText source).tokens.dropLast.map Token.told =
      (Element.split source.toList).filterMap Element.token? := by
  have htold : (ofText source).tokens.map Token.told = _ ++ [(.eof, "", none)] :=
    tokens_ofElements 1 (Element.split source.toList)
  rw [List.map_dropLast, htold, List.dropLast_concat]

theorem legal_of_mem_dropLast {source : String} {t : Token}
    (ht : t ∈ (ofText source).tokens.dropLast) : t.Legal := by
  have hmem : t.told ∈ (Element.split source.toList).filterMap Element.token? := by
    rw [← map_told_dropLast]
    exact List.mem_map_of_mem ht
  obtain ⟨w, hlexeme, hw⟩ := exists_lexeme_of_mem_filterMap hmem
  unfold Token.Legal
  rwa [hlexeme, String.toList_ofList]

/-- Scanning undoes writing tokens out. Legal tokens with separators between them, a gap before the
first and a separator or nothing after the last are scanned without a fault as those tokens and an
end mark. So the tokens of any text, whether or not it has faults, can be spaced anew and are
scanned again, up to their lines. -/
theorem ofText_respaced {lead : List Char} {spaced : List (Token × List Char)}
    (hlead : Element.Gap lead) (hspaced : Token.Spaced spaced) :
    let scan := ofText (String.ofList (lead ++ Token.written spaced))
    ((∀ entry ∈ spaced, entry.1.Legal) →
      scan.faults = [] ∧
        scan.tokens.map Token.told = spaced.map (·.1.told) ++ [(.eof, "", none)]) ∧
    ∀ source, (ofText source).tokens.dropLast = spaced.map (·.1) →
      scan.faults = [] ∧ scan.tokens.map Token.told = (ofText source).tokens.map Token.told := by
  intro scan
  refine ⟨fun hlegal => ofText_written hlead hlegal hspaced, ?_⟩
  intro source hsource
  have hlegal : ∀ entry ∈ spaced, entry.1.Legal := by
    intro entry hentry
    have hmem : entry.1 ∈ (ofText source).tokens.dropLast := by
      rw [hsource]
      exact List.mem_map_of_mem hentry
    exact legal_of_mem_dropLast hmem
  obtain ⟨hfaults, htold⟩ := ofText_written hlead hlegal hspaced
  have hsame : spaced.map (·.1.told) = (Element.split source.toList).filterMap Element.token? := by
    rw [← map_told_dropLast, hsource, List.map_map]
    rfl
  refine ⟨hfaults, htold.trans ?_⟩
  rw [hsame]
  exact (tokens_ofElements 1 _).symm

/-- A slash before a comment, a whole number before a point, a string with a comment and a line feed
in it, and a keyword before a word that starts like it. -/
theorem ofText_respaced_slash :
    let spaced : List (Token × List Char) :=
      [(⟨.slash, "/", none, 1⟩, "\t// /\n".toList),
        (⟨.number, "07", some (Element.numberOf ['0', '7'] []), 1⟩, " ".toList),
        (⟨.dot, ".", none, 1⟩, "\r\n".toList),
        (⟨.string, "\"//\n\"", some (.string "//\n"), 1⟩, " // \"\n//\n".toList),
        (⟨.varWord, "var", none, 1⟩, "\n".toList),
        (⟨.identifier, "varé", none, 1⟩, [])]
    (ofText (String.ofList ("//\n".toList ++ Token.written spaced))).tokens.map Token.told =
      spaced.map (·.1.told) ++ [(.eof, "", none)] := by
  intro spaced
  have hlead : Element.Gap "//\n".toList := .comment (v := []) (by decide) .nil
  have hblank : ∀ c ∈ Element.blanks, Element.Separator [c] := by
    intro c hc
    exact ⟨c, [], rfl, hc, .nil⟩
  have hspaced : Token.Spaced spaced := by
    refine ⟨⟨'\t', _, rfl, by decide, .comment (v := " /".toList) (by decide) .nil⟩,
      hblank ' ' (by decide), ⟨'\r', _, rfl, by decide, .blank (by decide) .nil⟩,
      ⟨' ', _, rfl, by decide, .comment (v := " \"".toList) (by decide)
        (.comment (v := []) (by decide) .nil)⟩,
      hblank '\n' (by decide), .inl rfl⟩
  have hword : Element.Lexeme (.token .identifier none ['v', 'a', 'r', 'é']) := by
    have hnone : ∀ entry ∈ Token.keywords, entry.1 ≠ String.ofList ['v', 'a', 'r', 'é'] := by decide
    exact .identifier (.inl (by decide)) (List.all_eq_true.1 (by decide)) fun kind h =>
      hnone _ h rfl
  have hlegal : ∀ entry ∈ spaced, entry.1.Legal := by
    simp only [spaced, List.forall_mem_cons]
    refine ⟨.slash, .whole (by decide) (List.all_eq_true.1 (by decide)), .punctuation (by decide),
      .string (w := ['/', '/', '\n']) (by decide),
      .keyword (.inl (by decide)) (List.all_eq_true.1 (by decide)) (by decide), hword,
      List.forall_mem_nil _⟩
  exact ((ofText_respaced hlead hspaced).1 hlegal).2

end Scan

end Scriptlet
