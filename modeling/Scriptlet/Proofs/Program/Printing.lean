import Scriptlet.Proofs.Decimal.ReadBack
import Scriptlet.Proofs.Grammar.Contents
import Scriptlet.Proofs.Program.Readability
import Scriptlet.Proofs.Program.Tokens
import Scriptlet.Proofs.Session.Stages

/-!
# Printed programs

A program that was read from a text is printed as s-expressions from which it can be told again, but
for the lines of its tokens. Two things could stand in the way: a literal that prints like another
one or like a name, as strings do and numbers too large to be finite, and a form that prints like
another form. The first is excluded. The second cannot be: operators are no words, the words that
head the other forms are no operators, and the number of parts tells unary from binary.
-/

namespace Scriptlet

/-! ## Tokens -/

theorem Sexp.separators_subset_deciders : separators ⊆ Element.deciders := by decide

namespace Token

/-- A token without its place. -/
def unplaced (t : Token) : Token := { t with line := 0 }

/-- Tokens as texts have them: the kind and the datum are those of the lexeme. -/
def IsLexeme (t : Token) : Prop :=
  ∃ w, t.lexeme = String.ofList w ∧ Element.Lexeme (.token t.kind t.literal w)

/-- The kinds of the operators, before and between operands. -/
def operators : List Kind :=
  [.bang, .bangEqual, .equalEqual, .greater, .greaterEqual, .less, .lessEqual, .minus, .plus,
    .slash, .star]

def operatorTexts : List String := ["!", "!=", "==", ">", ">=", "<", "<=", "-", "+", "/", "*"]

namespace IsLexeme

variable {t t' : Token}

/-- All about a token but its place is in its lexeme. -/
theorem unplaced_eq (h : t.IsLexeme) (h' : t'.IsLexeme) (hlexeme : t.lexeme = t'.lexeme) :
    t.unplaced = t'.unplaced := by
  obtain ⟨w, hw, hclass⟩ := h
  obtain ⟨w', hw', hclass'⟩ := h'
  have hchars : w = w' := String.ofList_injective (by rw [← hw, ← hw', hlexeme])
  have hsame := hclass.eq_of_text_eq hclass' hchars
  injection hsame with hkind hliteral
  unfold unplaced
  rw [hkind, hliteral, hlexeme]

/-- The lexeme of an operator follows from its kind, up to a finite choice. -/
theorem lexeme_mem_operatorTexts (h : t.IsLexeme) (hkind : t.kind ∈ operators) :
    t.lexeme ∈ operatorTexts := by
  obtain ⟨kind, lexeme, literal, line⟩ := t
  obtain ⟨w, rfl, hclass⟩ := h
  dsimp only at hclass hkind ⊢
  cases hclass with
  | punctuation hentry =>
    have hall : ∀ entry ∈ Element.punctuation, entry.2 ∈ operators →
        String.ofList [entry.1] ∈ operatorTexts := by decide
    exact hall _ hentry hkind
  | comparison hentry =>
    have hall : ∀ entry ∈ Element.comparisons, entry.2.2 ∈ operators →
        String.ofList [entry.1] ∈ operatorTexts := by decide
    exact hall _ hentry hkind
  | comparisonEqual hentry =>
    have hall : ∀ entry ∈ Element.comparisons, entry.2.1 ∈ operators →
        String.ofList [entry.1, '='] ∈ operatorTexts := by decide
    exact hall _ hentry hkind
  | slash => decide
  | keyword _ _ hentry =>
    have hall : ∀ entry ∈ Token.keywords, entry.2 ∉ operators := by decide
    exact absurd hkind (hall _ hentry)
  | string _ => exact absurd hkind (by decide)
  | whole _ _ => exact absurd hkind (by decide)
  | fraction _ _ _ _ => exact absurd hkind (by decide)
  | identifier _ _ _ => exact absurd hkind (by decide)

end IsLexeme

/-- An operator of a program that was read from a text. -/
def IsOperator (t : Token) : Prop := t.IsLexeme ∧ t.kind ∈ operators

/-- A name of a program that was read from a text. -/
def IsName (t : Token) : Prop := t.IsLexeme ∧ t.kind = .identifier

variable {t : Token}

theorem IsOperator.isWord (h : t.IsOperator) : Sexp.IsWord t.lexeme := by
  have hall : ∀ text ∈ operatorTexts, Sexp.IsWord text := by decide
  exact hall _ (h.1.lexeme_mem_operatorTexts h.2)

theorem IsOperator.lexeme_ne (h : t.IsOperator) : t.lexeme ≠ "group" ∧ t.lexeme ≠ "=" := by
  have hall : ∀ text ∈ operatorTexts, text ≠ "group" ∧ text ≠ "=" := by decide
  exact hall _ (h.1.lexeme_mem_operatorTexts h.2)

theorem IsName.isIdentifier (h : t.IsName) : Element.IsIdentifier t.lexeme := by
  obtain ⟨⟨w, hw, hclass⟩, hkind⟩ := h
  rw [hw]
  exact hclass.isIdentifier hkind

theorem IsName.isWord (h : t.IsName) : Sexp.IsWord t.lexeme := by
  obtain ⟨c, w, hw, hstart, hparts⟩ := h.isIdentifier.word
  rw [hw]
  unfold Sexp.IsWord
  rw [String.toList_ofList, List.forall_mem_cons]
  refine ⟨fun hmem => ?_, fun d hd hmem => ?_⟩
  · have hc : Element.isIdentifierStart c = true := Element.isIdentifierStart_iff.2 hstart
    exact Element.not_mem_deciders hc (by decide) (Sexp.separators_subset_deciders hmem)
  · exact Element.not_mem_deciders (hparts d hd) (by decide) (Sexp.separators_subset_deciders hmem)

end Token

/-! ## Literals -/

namespace Value

/-- Values that are printed unlike each other and unlike names. -/
def Distinct : Value → Prop
  | none | some (.boolean _) => True
  | some (.number x) => x.isFinite = true
  | some (.string _) | some .nan | some (.foreign _ _) => False

/-- The values that are written and printed as words. -/
def words : List (Value × String) :=
  [(none, "nil"), (some (.boolean true), "true"), (some (.boolean false), "false")]

/-- A distinct value is printed as a word or as the digits of a number. -/
theorem Distinct.cases {v : Value} (h : v.Distinct) :
    (v, v.display) ∈ words ∨
      ∃ x : Float, v = some (.number x) ∧ x.isFinite = true ∧ v.display = Binary64.plainText x := by
  match v, h with
  | none, _ => exact .inl (by decide)
  | some (.boolean true), _ => exact .inl (by decide)
  | some (.boolean false), _ => exact .inl (by decide)
  | some (.number x), h => exact .inr ⟨x, rfl, h, rfl⟩

/-- A text with a letter is not printed for a number. -/
theorem plainText_ne {x : Float} (h : x.isFinite = true) {text : String} {c : Char}
    (hc : c ∈ text.toList) (hstart : Element.StartsWord c) : Binary64.plainText x ≠ text := by
  rintro rfl
  rcases Binary64.mem_plainText h hc with hdigit | rfl | rfl
  · rw [hstart.isDigit_eq_false] at hdigit
    cases hdigit
  · exact absurd (Element.isIdentifierStart_iff.2 hstart) (by decide)
  · exact absurd (Element.isIdentifierStart_iff.2 hstart) (by decide)

/-- Values that are printed as words have a letter, which no number has. -/
theorem exists_letter_of_mem_words {entry : Value × String} (h : entry ∈ words) :
    ∃ c ∈ entry.2.toList, Element.StartsWord c := by
  have hall : ∀ entry ∈ words, entry.2.toList.any Element.isIdentifierStart = true := by decide
  obtain ⟨c, hc, hstart⟩ := List.any_eq_true.1 (hall entry h)
  exact ⟨c, hc, Element.isIdentifierStart_iff.1 hstart⟩

variable {v v' : Value}

theorem Distinct.isWord (h : v.Distinct) : Sexp.IsWord v.display := by
  rcases h.cases with hword | ⟨x, -, hx, hdisplay⟩
  · have hall : ∀ entry ∈ words, Sexp.IsWord entry.2 := by decide
    exact hall _ hword
  · intro c hc hsep
    rw [hdisplay] at hc
    rcases Binary64.mem_plainText hx hc with hdigit | rfl | rfl
    · exact Element.not_mem_deciders hdigit (by decide) (Sexp.separators_subset_deciders hsep)
    · exact absurd hsep (by decide)
    · exact absurd hsep (by decide)

/-- Numbers are told by their value, as printing them loses nothing, and words are told from numbers
by a letter. -/
theorem Distinct.display_inj (h : v.Distinct) (h' : v'.Distinct) (heq : v.display = v'.display) :
    v = v' := by
  rcases h.cases with hword | ⟨x, rfl, hx, hdisplay⟩ <;>
    rcases h'.cases with hword' | ⟨x', rfl, hx', hdisplay'⟩
  · have hall : ∀ entry ∈ words, ∀ entry' ∈ words, entry.2 = entry'.2 → entry.1 = entry'.1 := by
      decide
    exact hall _ hword _ hword' heq
  · obtain ⟨c, hc, hstart⟩ := exists_letter_of_mem_words hword
    exact absurd (hdisplay'.symm.trans heq.symm) (plainText_ne hx' hc hstart)
  · obtain ⟨c, hc, hstart⟩ := exists_letter_of_mem_words hword'
    exact absurd (hdisplay.symm.trans heq) (plainText_ne hx hc hstart)
  · rw [Binary64.eq_of_plainText_eq hx hx' (hdisplay.symm.trans (heq.trans hdisplay'))]

/-- A name is no keyword and has no digit or sign in front. -/
theorem Distinct.display_ne_name (h : v.Distinct) {t : Token} (ht : t.IsName) :
    v.display ≠ t.lexeme := by
  obtain ⟨⟨c, w, hw, hstart, -⟩, hkeyword⟩ := ht.isIdentifier
  intro heq
  rcases h.cases with hword | ⟨x, -, hx, hdisplay⟩
  · have hall : ∀ entry ∈ words, entry.2 ∈ Token.keywords.map (·.1) := by decide
    exact hkeyword (heq ▸ hall _ hword)
  · have hc : c ∈ t.lexeme.toList := by
      rw [hw, String.toList_ofList]
      exact List.mem_cons_self
    exact plainText_ne hx hc hstart (hdisplay.symm.trans heq)

end Value

/-! ## Programs -/

/-- The operators, names and literals of an expression are as texts have them, and its literals are
distinct. -/
def Expr.Spelled : Expr → Prop
  | literal value => value.Distinct
  | read name => name.IsName
  | grouping inner => inner.Spelled
  | unary operator right => operator.IsOperator ∧ right.Spelled
  | binary left operator right => left.Spelled ∧ operator.IsOperator ∧ right.Spelled
  | assign name value => name.IsName ∧ value.Spelled

mutual

def Stmt.Spelled : Stmt → Prop
  | .expression value | .print value => value.Spelled
  | .declare name none => name.IsName
  | .declare name (some initial) => name.IsName ∧ initial.Spelled
  | .block body => Program.Spelled body

def Program.Spelled : List Stmt → Prop
  | [] => True
  | statement :: rest => statement.Spelled ∧ Program.Spelled rest

end

/-! ### Printing shows no more than the tokens without their places -/

/-- Printing looks at lexemes and values, and not at places. -/
theorem Expr.sexp_unplaced (e : Expr) : (e.mapTokens Token.unplaced).sexp = e.sexp := by
  induction e with
  | literal value => rfl
  | read name => rfl
  | grouping inner ih => rw [mapTokens, sexp, sexp, ih]
  | unary operator right ih =>
    rw [mapTokens, sexp, sexp, ih]
    rfl
  | binary left operator right ihleft ihright =>
    rw [mapTokens, sexp, sexp, ihleft, ihright]
    rfl
  | assign name value ih =>
    rw [mapTokens, sexp, sexp, ih]
    rfl

mutual

theorem Stmt.sexp_unplaced : (s : Stmt) → (s.mapTokens Token.unplaced).sexp = s.sexp
  | .expression value => by rw [Stmt.mapTokens, Stmt.sexp, Stmt.sexp, value.sexp_unplaced]
  | .print value => by rw [Stmt.mapTokens, Stmt.sexp, Stmt.sexp, value.sexp_unplaced]
  | .declare name none => rfl
  | .declare name (some initial) => by
    rw [Stmt.mapTokens, Stmt.sexp, Stmt.sexp, Option.map_some, Option.map_some,
      initial.sexp_unplaced]
    rfl
  | .block body => by rw [Stmt.mapTokens, Stmt.sexp, Stmt.sexp, Program.sexps_unplaced body]

theorem Program.sexps_unplaced : (body : List Stmt) →
    Program.sexps (Program.mapTokens Token.unplaced body) = Program.sexps body
  | [] => rfl
  | statement :: rest => by
    rw [Program.mapTokens, Program.sexps, Program.sexps, Stmt.sexp_unplaced statement,
      Program.sexps_unplaced rest]

end

/-! ### What is printed is legible -/

/-- The words in what is printed are operators, names, literals and the heads of forms. -/
theorem Expr.Spelled.legible {e : Expr} (h : e.Spelled) : e.sexp.Legible := by
  have hgroup : Sexp.IsWord "group" := by decide
  have hequals : Sexp.IsWord "=" := by decide
  induction e with
  | literal value => exact Value.Distinct.isWord h
  | read name => exact h.isWord
  | grouping inner ih => exact ⟨hgroup, ih h, trivial⟩
  | unary operator right ih => exact ⟨h.1.isWord, ih h.2, trivial⟩
  | binary left operator right ihleft ihright =>
    exact ⟨h.2.1.isWord, ihleft h.1, ihright h.2.2, trivial⟩
  | assign name value ih => exact ⟨hequals, h.1.isWord, ih h.2, trivial⟩

mutual

theorem Stmt.Spelled.legible : {s : Stmt} → s.Spelled → s.sexp.Legible
  | .expression _, h => ⟨by decide, Expr.Spelled.legible h, trivial⟩
  | .print _, h => ⟨by decide, Expr.Spelled.legible h, trivial⟩
  | .declare _ none, h => ⟨by decide, h.isWord, trivial⟩
  | .declare _ (some _), h => ⟨by decide, h.1.isWord, h.2.legible, trivial⟩
  | .block _, h => ⟨by decide, Program.Spelled.legible h⟩

theorem Program.Spelled.legible : {body : List Stmt} → Program.Spelled body →
    Sexp.LegibleParts (Program.sexps body)
  | [], _ => trivial
  | _ :: _, h => ⟨h.1.legible, Program.Spelled.legible h.2⟩

end

/-! ### Forms are told apart -/

/-- Only literals and names are printed as atoms. -/
theorem Expr.of_sexp_eq_atom {e : Expr} {text : String} (h : e.sexp = .atom text) :
    (∃ value, e = .literal value ∧ value.display = text) ∨
      ∃ name, e = .read name ∧ name.lexeme = text := by
  cases e with
  | literal value => exact .inl ⟨value, rfl, Sexp.atom.inj h⟩
  | read name => exact .inr ⟨name, rfl, Sexp.atom.inj h⟩
  | _ => cases h

/-- One alternative for each form that is printed as a list. -/
theorem Expr.of_sexp_eq_list {e : Expr} {head : String} {parts : List Sexp}
    (h : e.sexp = .list head parts) :
    (∃ inner, e = .grouping inner ∧ head = "group" ∧ parts = [inner.sexp]) ∨
    (∃ operator right, e = .unary operator right ∧ head = operator.lexeme ∧
      parts = [right.sexp]) ∨
    (∃ left operator right, e = .binary left operator right ∧ head = operator.lexeme ∧
      parts = [left.sexp, right.sexp]) ∨
    ∃ name value, e = .assign name value ∧ head = "=" ∧
      parts = [.atom name.lexeme, value.sexp] := by
  cases e with
  | literal value => cases h
  | read name => cases h
  | grouping inner =>
    obtain ⟨rfl, rfl⟩ := Sexp.list.inj h
    exact .inl ⟨inner, rfl, rfl, rfl⟩
  | unary operator right =>
    obtain ⟨rfl, rfl⟩ := Sexp.list.inj h
    exact .inr (.inl ⟨operator, right, rfl, rfl, rfl⟩)
  | binary left operator right =>
    obtain ⟨rfl, rfl⟩ := Sexp.list.inj h
    exact .inr (.inr (.inl ⟨left, operator, right, rfl, rfl, rfl⟩))
  | assign name value =>
    obtain ⟨rfl, rfl⟩ := Sexp.list.inj h
    exact .inr (.inr (.inr ⟨name, value, rfl, rfl, rfl⟩))

/-- Expressions that are printed alike are the same up to the places of their tokens. -/
theorem Expr.Spelled.unplaced_eq {e e' : Expr} (he : e.Spelled) (he' : e'.Spelled)
    (h : e.sexp = e'.sexp) : e.mapTokens Token.unplaced = e'.mapTokens Token.unplaced := by
  induction e generalizing e' with
  | literal value =>
    obtain ⟨value', rfl, heq⟩ | ⟨name', rfl, heq⟩ := Expr.of_sexp_eq_atom h.symm
    · rw [Value.Distinct.display_inj he he' heq.symm]
    · exact absurd heq.symm (Value.Distinct.display_ne_name he he')
  | read name =>
    obtain ⟨value', rfl, heq⟩ | ⟨name', rfl, heq⟩ := Expr.of_sexp_eq_atom h.symm
    · exact absurd heq (Value.Distinct.display_ne_name he' he)
    · rw [mapTokens, mapTokens, he.1.unplaced_eq he'.1 heq.symm]
  | grouping inner ih =>
    obtain ⟨inner', rfl, -, hparts⟩ | ⟨operator', right', rfl, hhead, -⟩ |
      ⟨left', operator', right', rfl, -, hparts⟩ | ⟨name', value', rfl, -, hparts⟩ :=
      Expr.of_sexp_eq_list h.symm
    · have hinner' : inner'.Spelled := he'
      rw [mapTokens, mapTokens, ih he hinner' (List.cons.inj hparts).1]
    · exact absurd hhead.symm he'.1.lexeme_ne.1
    · cases (List.cons.inj hparts).2
    · cases (List.cons.inj hparts).2
  | unary operator right ih =>
    obtain ⟨inner', rfl, hhead, -⟩ | ⟨operator', right', rfl, hhead, hparts⟩ |
      ⟨left', operator', right', rfl, -, hparts⟩ | ⟨name', value', rfl, -, hparts⟩ :=
      Expr.of_sexp_eq_list h.symm
    · exact absurd hhead he.1.lexeme_ne.1
    · rw [mapTokens, mapTokens, ih he.2 he'.2 (List.cons.inj hparts).1,
        he.1.1.unplaced_eq he'.1.1 hhead]
    · cases (List.cons.inj hparts).2
    · cases (List.cons.inj hparts).2
  | binary left operator right ihleft ihright =>
    obtain ⟨inner', rfl, -, hparts⟩ | ⟨operator', right', rfl, -, hparts⟩ |
      ⟨left', operator', right', rfl, hhead, hparts⟩ | ⟨name', value', rfl, hhead, -⟩ :=
      Expr.of_sexp_eq_list h.symm
    · cases (List.cons.inj hparts).2
    · cases (List.cons.inj hparts).2
    · obtain ⟨hleft, hright⟩ := List.cons.inj hparts
      rw [mapTokens, mapTokens, ihleft he.1 he'.1 hleft,
        ihright he.2.2 he'.2.2 (List.cons.inj hright).1, he.2.1.1.unplaced_eq he'.2.1.1 hhead]
    · exact absurd hhead he.2.1.lexeme_ne.2
  | assign name value ih =>
    obtain ⟨inner', rfl, -, hparts⟩ | ⟨operator', right', rfl, -, hparts⟩ |
      ⟨left', operator', right', rfl, hhead, -⟩ | ⟨name', value', rfl, -, hparts⟩ :=
      Expr.of_sexp_eq_list h.symm
    · cases (List.cons.inj hparts).2
    · cases (List.cons.inj hparts).2
    · exact absurd hhead.symm he'.2.1.lexeme_ne.2
    · obtain ⟨hname, hvalue⟩ := List.cons.inj hparts
      rw [mapTokens, mapTokens, ih he.2 he'.2 (List.cons.inj hvalue).1,
        he.1.1.unplaced_eq he'.1.1 (Sexp.atom.inj hname)]

theorem Stmt.of_sexp_eq_list {s : Stmt} {head : String} {parts : List Sexp}
    (h : s.sexp = .list head parts) :
    (∃ value, s = .expression value ∧ head = ";" ∧ parts = [value.sexp]) ∨
    (∃ value, s = .print value ∧ head = "print" ∧ parts = [value.sexp]) ∨
    (∃ name initial, s = .declare name initial ∧ head = "var" ∧
      parts = .atom name.lexeme :: (initial.map Expr.sexp).toList) ∨
    ∃ body, s = .block body ∧ head = "block" ∧ parts = Program.sexps body := by
  cases s with
  | expression value =>
    obtain ⟨rfl, rfl⟩ := Sexp.list.inj h
    exact .inl ⟨value, rfl, rfl, rfl⟩
  | print value =>
    obtain ⟨rfl, rfl⟩ := Sexp.list.inj h
    exact .inr (.inl ⟨value, rfl, rfl, rfl⟩)
  | declare name initial =>
    obtain ⟨rfl, rfl⟩ := Sexp.list.inj h
    exact .inr (.inr (.inl ⟨name, initial, rfl, rfl, rfl⟩))
  | block body =>
    obtain ⟨rfl, rfl⟩ := Sexp.list.inj h
    exact .inr (.inr (.inr ⟨body, rfl, rfl, rfl⟩))

theorem Stmt.Spelled.unplaced_eq_declare {name name' : Token} {initial initial' : Option Expr}
    (h : (Stmt.declare name initial).Spelled) (h' : (Stmt.declare name' initial').Spelled)
    (hname : name.lexeme = name'.lexeme)
    (hinitial : (initial.map Expr.sexp).toList = (initial'.map Expr.sexp).toList) :
    (Stmt.declare name initial).mapTokens Token.unplaced =
      (Stmt.declare name' initial').mapTokens Token.unplaced := by
  cases initial with
  | none =>
    cases initial' with
    | none => rw [Stmt.mapTokens, Stmt.mapTokens, h.1.unplaced_eq h'.1 hname]
    | some value' => cases hinitial
  | some value =>
    cases initial' with
    | none => cases hinitial
    | some value' =>
      rw [Stmt.mapTokens, Stmt.mapTokens, h.1.1.unplaced_eq h'.1.1 hname,
        h.2.unplaced_eq h'.2 (List.cons.inj hinitial).1]

mutual

/-- Statements that are printed alike are the same up to the places of their tokens. -/
theorem Stmt.Spelled.unplaced_eq : {s s' : Stmt} → s.Spelled → s'.Spelled → s.sexp = s'.sexp →
    s.mapTokens Token.unplaced = s'.mapTokens Token.unplaced
  | .expression value, s', hs, hs', h => by
    obtain ⟨value', rfl, -, hparts⟩ | ⟨_, rfl, hhead, -⟩ | ⟨_, _, rfl, hhead, -⟩ |
      ⟨_, rfl, hhead, -⟩ := Stmt.of_sexp_eq_list h.symm
    · rw [Stmt.mapTokens, Stmt.mapTokens,
        Expr.Spelled.unplaced_eq hs hs' (List.cons.inj hparts).1]
    all_goals exact absurd hhead (by decide)
  | .print value, s', hs, hs', h => by
    obtain ⟨_, rfl, hhead, -⟩ | ⟨value', rfl, -, hparts⟩ | ⟨_, _, rfl, hhead, -⟩ |
      ⟨_, rfl, hhead, -⟩ := Stmt.of_sexp_eq_list h.symm
    · exact absurd hhead (by decide)
    · rw [Stmt.mapTokens, Stmt.mapTokens,
        Expr.Spelled.unplaced_eq hs hs' (List.cons.inj hparts).1]
    all_goals exact absurd hhead (by decide)
  | .declare name initial, s', hs, hs', h => by
    obtain ⟨_, rfl, hhead, -⟩ | ⟨_, rfl, hhead, -⟩ | ⟨name', initial', rfl, -, hparts⟩ |
      ⟨_, rfl, hhead, -⟩ := Stmt.of_sexp_eq_list h.symm
    · exact absurd hhead (by decide)
    · exact absurd hhead (by decide)
    · obtain ⟨hname, hinitial⟩ := List.cons.inj hparts
      exact hs.unplaced_eq_declare hs' (Sexp.atom.inj hname) hinitial
    · exact absurd hhead (by decide)
  | .block body, s', hs, hs', h => by
    obtain ⟨_, rfl, hhead, -⟩ | ⟨_, rfl, hhead, -⟩ | ⟨_, _, rfl, hhead, -⟩ |
      ⟨body', rfl, -, hparts⟩ := Stmt.of_sexp_eq_list h.symm
    · exact absurd hhead (by decide)
    · exact absurd hhead (by decide)
    · exact absurd hhead (by decide)
    · rw [Stmt.mapTokens, Stmt.mapTokens, Program.Spelled.unplaced_eq hs hs' hparts]

/-- Programs that are printed alike are the same up to the places of their tokens. -/
theorem Program.Spelled.unplaced_eq : {body body' : List Stmt} → Program.Spelled body →
    Program.Spelled body' → Program.sexps body = Program.sexps body' →
    Program.mapTokens Token.unplaced body = Program.mapTokens Token.unplaced body'
  | [], [], _, _, _ => rfl
  | [], _ :: _, _, _, h => by cases h
  | _ :: _, [], _, _, h => by cases h
  | statement :: rest, statement' :: rest', hs, hs', h => by
    obtain ⟨hstatement, hrest⟩ := List.cons.inj h
    rw [Program.mapTokens, Program.mapTokens, hs.1.unplaced_eq hs'.1 hstatement,
      Program.Spelled.unplaced_eq hs.2 hs'.2 hrest]

end

/-! ### Programs of texts -/

/-- A value that is no string, and no number too large to be finite. -/
def Value.Plain (v : Value) : Prop :=
  (∀ text, v ≠ some (.string text)) ∧ ∀ x, v = some (.number x) → x.isInf = false

theorem Value.plain_number {x : Float} (h : x.isInf = false) : Value.Plain (some (.number x)) := by
  constructor
  · intro text hstring
    cases hstring
  · intro y hy
    cases hy
    exact h

/-- All that is written in a program is plain. -/
def Program.Plain (body : Program) : Prop := ∀ v ∈ Program.literals body, Value.Plain v

/-- A number that is read from digits is finite, unless it is infinite. -/
theorem Element.isFinite_numberOf {w f : List Char} {x : Float} (h : numberOf w f = .number x)
    (hx : x.isInf = false) : x.isFinite = true := by
  obtain rfl := Datum.number.inj h
  have hle : (Decimal.ofDigits w f).magnitude ≤ Binary64.infinity := Nat.min_le_left ..
  rcases Nat.lt_or_eq_of_le hle with hlt | heq
  · exact Binary64.isFinite_ofMagnitude hlt
  · have hinfinite : (Binary64.ofMagnitude Binary64.infinity).isInf = true := by decide +kernel
    rw [heq, hinfinite] at hx
    cases hx

/-- Of strings and numbers, only finite numbers are plain. -/
theorem Token.IsLexeme.distinct {t : Token} (h : t.IsLexeme)
    (hkind : t.kind = .number ∨ t.kind = .string) (hplain : Value.Plain t.literal) :
    Value.Distinct t.literal := by
  obtain ⟨kind, lexeme, literal, line⟩ := t
  obtain ⟨w, rfl, hclass⟩ := h
  dsimp only at hclass hkind hplain ⊢
  cases hclass with
  | string _ => exact absurd rfl (hplain.1 _)
  | whole _ _ => exact Element.isFinite_numberOf rfl (hplain.2 _ rfl)
  | fraction _ _ _ _ => exact Element.isFinite_numberOf rfl (hplain.2 _ rfl)
  | _ => trivial

namespace Grammar

theorem Chain.operators_subset (rule : Chain) : rule.operators ⊆ Token.operators := by
  cases rule <;> decide

/-- An expression of lexemes is spelled as texts spell it. -/
theorem DerivesExpr.spelled {symbol : ExprSymbol} {ts : List Token} {e : Expr}
    (h : DerivesExpr symbol ts e) (hts : ∀ t ∈ ts, t.IsLexeme)
    (hplain : ∀ v ∈ e.literals, Value.Plain v) : e.Spelled := by
  induction h with
  | expression _ ih => exact ih hts hplain
  | equality _ ih => exact ih hts hplain
  | operand _ ih => exact ih hts hplain
  | primary _ ih => exact ih hts hplain
  | assign hname _ _ ih =>
    obtain ⟨hlexeme, hrest⟩ := List.forall_mem_cons.1 hts
    exact ⟨⟨hlexeme, hname⟩, ih (List.forall_mem_cons.1 hrest).2 hplain⟩
  | @join rule _ _ _ _ _ _ hoperator _ ihleft ihright =>
    obtain ⟨hleft, hrest⟩ := List.forall_mem_append.1 hts
    obtain ⟨hlexeme, hright⟩ := List.forall_mem_cons.1 hrest
    obtain ⟨hplainleft, hplainright⟩ := List.forall_mem_append.1 hplain
    exact ⟨ihleft hleft hplainleft, ⟨hlexeme, rule.operators_subset hoperator⟩,
      ihright hright hplainright⟩
  | unary hoperator _ ih =>
    obtain ⟨hlexeme, hrest⟩ := List.forall_mem_cons.1 hts
    refine ⟨⟨hlexeme, ?_⟩, ih hrest hplain⟩
    rcases hoperator with hkind | hkind <;> rw [hkind] <;> decide
  | datum hkind =>
    exact (hts _ List.mem_cons_self).distinct hkind (hplain _ List.mem_cons_self)
  | name hkind => exact ⟨hts _ List.mem_cons_self, hkind⟩
  | trueWord _ => trivial
  | falseWord _ => trivial
  | nilWord _ => trivial
  | group _ _ _ ih =>
    exact ih (List.forall_mem_append.1 (List.forall_mem_cons.1 hts).2).1 hplain

mutual

/-- What a derivation takes from the tokens is spelled as they are. -/
theorem DerivesStmt.spelled : ∀ {symbol : StmtSymbol} {ts : List Token} {s : Stmt},
    DerivesStmt symbol ts s → (∀ t ∈ ts, t.IsLexeme) → (∀ v ∈ s.literals, Value.Plain v) → s.Spelled
  | _, _, _, .varDecl h, hts, hplain => h.spelled hts hplain
  | _, _, _, .statement h, hts, hplain => h.spelled hts hplain
  | _, _, _, .exprStmt h, hts, hplain => h.spelled hts hplain
  | _, _, _, .printStmt h, hts, hplain => h.spelled hts hplain
  | _, _, _, .block h, hts, hplain => h.spelled hts hplain
  | _, _, _, .declare _ hname _, hts, _ => ⟨hts _ (by simp), hname⟩
  | _, _, _, .declareWith _ hname _ h _, hts, hplain =>
    ⟨⟨hts _ (by simp), hname⟩, h.spelled (fun t ht => hts t (by simp [ht])) hplain⟩
  | _, _, _, .expression h _, hts, hplain =>
    h.spelled (List.forall_mem_append.1 hts).1 hplain
  | _, _, _, .print _ h _, hts, hplain => h.spelled (fun t ht => hts t (by simp [ht])) hplain
  | _, _, _, .braces _ h _, hts, hplain => h.spelled (fun t ht => hts t (by simp [ht])) hplain

theorem DerivesAll.spelled : ∀ {ts : List Token} {body : List Stmt}, DerivesAll ts body →
    (∀ t ∈ ts, t.IsLexeme) → (∀ v ∈ Program.literals body, Value.Plain v) → Program.Spelled body
  | _, _, .nil, _, _ => trivial
  | _, _, .cons hfirst hrest, hts, hplain =>
    have ⟨hts, hus⟩ := List.forall_mem_append.1 hts
    have ⟨hplainfirst, hplainrest⟩ := List.forall_mem_append.1 hplain
    ⟨hfirst.spelled hts hplainfirst, hrest.spelled hus hplainrest⟩

end

end Grammar

namespace Program

/-- The tokens of a text are lexemes, so all that stands in its program is spelled as texts have
it. -/
theorem spelled_of_ofText {source : String} {body : Program} (h : Program.ofText source = .ok body)
    (hplain : Program.Plain body) : Program.Spelled body := by
  rw [Program.ofText_of_faults_eq_nil (Program.faults_eq_nil_of_ofText h)] at h
  refine (Grammar.derives_of_ofTokens h).spelled (fun t ht => ?_) hplain
  exact Scan.exists_lexeme (List.takeWhile_subset _ ht) (Grammar.Token.kind_ne_eof_of_mem_body ht)

theorem text?_unplaced (body : Program) :
    Program.text? (Program.mapTokens Token.unplaced body) = Program.text? body := by
  unfold Program.text?
  rw [Program.sexps_unplaced]

/-- The s-expressions of a spelled program can be told from their text. -/
theorem Spelled.legible_list {body : Program} (h : Program.Spelled body) :
    ∀ s ∈ Program.sexps body, s.Legible ∧ ∃ head parts, s = .list head parts := by
  induction body with
  | nil => exact List.forall_mem_nil _
  | cons statement rest ih =>
    refine List.forall_mem_cons.2 ⟨⟨h.1.legible, ?_⟩, ih h.2⟩
    cases statement <;> exact ⟨_, _, rfl⟩

/-- Of two programs that were read from texts, without strings and without numbers too large to be
finite, one is printed as the other is exactly if the two are the same up to the lines of their
tokens. Numbers are then the same too, and not only printed alike. -/
theorem text?_determines {source source' : String} {body body' : Program} {written : String}
    (h : Program.ofText source = .ok body) (h' : Program.ofText source' = .ok body')
    (hplain : Program.Plain body) (hplain' : Program.Plain body')
    (hwritten : Program.text? body = some written) :
    Program.text? body' = some written ↔
      Program.mapTokens Token.unplaced body = Program.mapTokens Token.unplaced body' := by
  have hspelled := spelled_of_ofText h hplain
  have hspelled' := spelled_of_ofText h' hplain'
  constructor
  · intro hwritten'
    have htext := (Sexp.eq_intercalate_of_textLines? hwritten).symm.trans
      (Sexp.eq_intercalate_of_textLines? hwritten')
    have hsexps := Sexp.intercalate_text_inj hspelled.legible_list hspelled'.legible_list htext
    exact hspelled.unplaced_eq hspelled' hsexps
  · intro hsame
    rw [← hwritten, ← text?_unplaced body, hsame, text?_unplaced]

/-- Two layouts, and two spellings of the same numbers. -/
theorem text?_determines_layout :
    let source := "var a = -1.50; \x7b a = a - 1; \x7d"
    let source' := "var a\n= - 1.5 // one and a half\n; \x7b a = a\n- 01; \x7d"
    let written := "(var a (- 1.5))\n(block (; (= a (- a 1))))"
    ∃ body body', Program.ofText source = .ok body ∧ Program.ofText source' = .ok body' ∧
      Program.Plain body ∧ Program.Plain body' ∧
      Program.text? body = some written ∧ Program.text? body' = some written ∧
      Program.mapTokens Token.unplaced body = Program.mapTokens Token.unplaced body' := by
  intro source source' written
  have hread (text : String)
      (h : (Program.ofText text).toOption.map (fun body =>
          (Program.text? body, Program.literals body)) =
        some (some written, [some (.number (.ofBits 0x3ff8000000000000)),
          some (.number (.ofBits 0x3ff0000000000000))])) :
      ∃ body, Program.ofText text = .ok body ∧ Program.Plain body ∧
        Program.text? body = some written := by
    cases htext : Program.ofText text with
    | error d =>
      rw [htext] at h
      cases h
    | ok body =>
      rw [htext] at h
      obtain ⟨hwritten, hliterals⟩ := Prod.mk.inj (Option.some.inj h)
      refine ⟨body, rfl, ?_, hwritten⟩
      unfold Program.Plain
      rw [hliterals, List.forall_mem_cons, List.forall_mem_singleton]
      exact ⟨Value.plain_number (by decide +kernel), Value.plain_number (by decide +kernel)⟩
  obtain ⟨body, h, hplain, hwritten⟩ := hread source (by decide +kernel)
  obtain ⟨body', h', hplain', hwritten'⟩ := hread source' (by decide +kernel)
  exact ⟨body, body', h, h', hplain, hplain', hwritten, hwritten',
    (text?_determines h h' hplain hplain' hwritten).1 hwritten'⟩

end Program

end Scriptlet
