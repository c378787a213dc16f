import Scriptlet.Token.Lexer
import Mathlib.Data.List.TakeWhile

/-!
# Lexical classes

What the elements of a text may be, said of each element alone and without any way of finding it in
a longer text. There is one constructor of `Lexeme` for every lexical class. An element of a class is
determined by its characters (`Lexeme.eq_of_text_eq`), so the kind and the datum of a token are.
-/

namespace Scriptlet.Element

/-- The characters that are tokens on their own, whatever follows. -/
def punctuation : List (Char × Token.Kind) :=
  [('(', .leftParen), (')', .rightParen), ('\x7b', .leftBrace), ('\x7d', .rightBrace),
    (',', .comma), ('.', .dot), ('-', .minus), ('+', .plus), (';', .semicolon), ('*', .star)]

/-- The characters that an equals sign may follow, with the kinds of both together and of the
character alone. -/
def comparisons : List (Char × Token.Kind × Token.Kind) :=
  [('!', .bangEqual, .bang), ('=', .equalEqual, .equal), ('<', .lessEqual, .less),
    ('>', .greaterEqual, .greater)]

/-- The characters that may start a word. -/
def StartsWord (c : Char) : Prop := c.isAlpha ∨ c = '_'

/-- Elements whose text belongs to a lexical class. -/
inductive Lexeme : Element → Prop
  | punctuation {c : Char} {kind : Token.Kind} :
      (c, kind) ∈ punctuation → Lexeme (.token kind none [c])
  | comparison {c : Char} {longer alone : Token.Kind} :
      (c, longer, alone) ∈ comparisons → Lexeme (.token alone none [c])
  | comparisonEqual {c : Char} {longer alone : Token.Kind} :
      (c, longer, alone) ∈ comparisons → Lexeme (.token longer none [c, '='])
  | slash : Lexeme (.token .slash none ['/'])
  | comment {w : List Char} : '\n' ∉ w → Lexeme (.skipped ('/' :: '/' :: w))
  | space {c : Char} : c = ' ' ∨ c = '\t' ∨ c = '\r' → Lexeme (.skipped [c])
  | newline : Lexeme (.skipped ['\n'])
  | string {w : List Char} : '"' ∉ w →
      Lexeme (.token .string (some (.string (String.ofList w))) ('"' :: (w ++ ['"'])))
  | whole {w : List Char} : w ≠ [] → (∀ c ∈ w, c.isDigit) →
      Lexeme (.token .number (some (numberOf w [])) w)
  | fraction {w f : List Char} : w ≠ [] → (∀ c ∈ w, c.isDigit) → f ≠ [] → (∀ c ∈ f, c.isDigit) →
      Lexeme (.token .number (some (numberOf w f)) (w ++ '.' :: f))
  | keyword {c : Char} {w : List Char} {kind : Token.Kind} :
      StartsWord c → (∀ d ∈ w, isIdentifierPart d) →
      (String.ofList (c :: w), kind) ∈ Token.keywords → Lexeme (.token kind none (c :: w))
  | identifier {c : Char} {w : List Char} :
      StartsWord c → (∀ d ∈ w, isIdentifierPart d) →
      (∀ kind, (String.ofList (c :: w), kind) ∉ Token.keywords) →
      Lexeme (.token .identifier none (c :: w))

/-! ## Tables and classes of characters -/

/-- The scanner's choice of punctuation is the table of it. -/
theorem single?_eq_some_iff {c : Char} {kind : Token.Kind} :
    single? c = some kind ↔ (c, kind) ∈ punctuation := by
  constructor
  · intro h
    unfold single? at h
    split at h <;> cases h <;> decide
  · intro h
    have hall : ∀ entry ∈ punctuation, single? entry.1 = some entry.2 := by decide
    exact hall _ h

theorem equalable?_eq_some_iff {c : Char} {kinds : Token.Kind × Token.Kind} :
    equalable? c = some kinds ↔ (c, kinds) ∈ comparisons := by
  constructor
  · intro h
    unfold equalable? at h
    split at h <;> cases h <;> decide
  · intro h
    have hall : ∀ entry ∈ comparisons, equalable? entry.1 = some entry.2 := by decide
    exact hall _ h

theorem isDigit_eq (c : Char) : isDigit c = c.isDigit := by
  simp only [isDigit, Char.isDigit, Char.le_def]

theorem isAlpha_iff {c : Char} :
    c.isAlpha = true ↔ ('A' ≤ c ∧ c ≤ 'Z') ∨ ('a' ≤ c ∧ c ≤ 'z') := by
  change (c.isUpper || c.isLower) = true ↔ _
  have hupper : c.isUpper = decide ('A'.val ≤ c.val ∧ c.val ≤ 'Z'.val) := rfl
  have hlower : c.isLower = (decide ('a'.val ≤ c.val) && decide (c.val ≤ 'z'.val)) := rfl
  simp only [hupper, hlower, Bool.or_eq_true, Bool.and_eq_true, decide_eq_true_eq, Char.le_def]

/-- A word starts with an ASCII letter or an underscore, while it may go on with other letters. -/
theorem isIdentifierStart_iff {c : Char} : isIdentifierStart c = true ↔ StartsWord c := by
  simp only [isIdentifierStart, StartsWord, isAlpha_iff, Bool.or_eq_true, Bool.and_eq_true,
    decide_eq_true_eq, beq_iff_eq]
  exact or_congr_left Or.comm

theorem StartsWord.isDigit_eq_false {c : Char} (h : StartsWord c) : c.isDigit = false := by
  rcases h with h | rfl
  · rw [isAlpha_iff] at h
    simp only [Char.isDigit, ge_iff_le, UInt32.le_iff_toNat_le, Bool.and_eq_false_iff,
      decide_eq_false_iff_not, Nat.not_le]
    change (65 ≤ c.val.toNat ∧ c.val.toNat ≤ 90) ∨ (97 ≤ c.val.toNat ∧ c.val.toNat ≤ 122) at h
    change c.val.toNat < 48 ∨ 57 < c.val.toNat
    omega
  · rfl

/-- No keyword is in the table twice. -/
theorem wordKind_of_mem {word : String} {kind : Token.Kind} (h : (word, kind) ∈ Token.keywords) :
    Token.wordKind word = kind := by
  have hall : ∀ entry ∈ Token.keywords, Token.wordKind entry.1 = entry.2 := by decide
  exact hall _ h

/-- A word is a keyword of its kind, or no keyword and an identifier. -/
theorem wordKind_cases (word : String) :
    (word, Token.wordKind word) ∈ Token.keywords ∨
      (∀ kind, (word, kind) ∉ Token.keywords) ∧ Token.wordKind word = .identifier := by
  by_cases h : ∃ kind, (word, kind) ∈ Token.keywords
  · obtain ⟨kind, hmem⟩ := h
    left
    rw [wordKind_of_mem hmem]
    exact hmem
  · right
    have hnone : ∀ kind, (word, kind) ∉ Token.keywords := fun kind hmem => h ⟨kind, hmem⟩
    refine ⟨hnone, ?_⟩
    have hlookup : Token.keywords.lookup word = none := by
      rw [List.lookup_eq_none_iff]
      intro entry hentry
      rw [bne_iff_ne]
      rintro rfl
      exact hnone _ hentry
    rw [Token.wordKind, hlookup]
    rfl

end Scriptlet.Element
