import Scriptlet.Execution
import Scriptlet.Program.Reading
import Scriptlet.Proofs.Binary64.Bits
import Scriptlet.Proofs.Decimal.Numeral
import Scriptlet.Proofs.Token.LongestMatch

/-!
# Printed numbers read back

The plain form of a numeral is one number token, after a minus sign if it is negative. As an
expression it is a literal or the negation of one, whose value is the number nearest to what the
numeral denotes. For the numeral that a finite number is printed as, this is the number itself
(`Binary64.plainText_reads_back`).
-/

namespace Scriptlet

/-- A lexeme alone is all that its text splits into. -/
theorem Element.Lexeme.split_text {element : Element} (h : Lexeme element) :
    split element.text = [element] := by
  obtain ⟨c, w, htext⟩ := List.exists_cons_of_ne_nil h.text_ne_nil
  rw [htext, split_cons, h.first_eq htext, ← htext, List.drop_length, split]

namespace Numeral

open Element (numberOf split)

/-- The characters of a numeral after its sign and before its exponent. -/
def unsigned (n : Numeral) : List Char :=
  n.whole ++ if n.fraction.isEmpty then [] else '.' :: n.fraction

/-- The expression that a plain numeral is read as. -/
def expr (n : Numeral) : Expr :=
  let number := .literal (some (numberOf n.whole n.fraction))
  if n.negative then .unary { kind := .minus, lexeme := "-" } number else number

section Plain

variable {n : Numeral}

theorem unsigned_of_eq_nil (h : n.fraction = []) : n.unsigned = n.whole := by
  simp [unsigned, h]

theorem unsigned_of_ne_nil (h : n.fraction ≠ []) : n.unsigned = n.whole ++ '.' :: n.fraction := by
  simp [unsigned, h]

/-- With no exponent to show, a plain numeral is its sign and its digits. -/
theorem IsPlain.chars_eq (h : n.IsPlain) :
    n.chars = (if n.negative then ['-'] else []) ++ n.unsigned := by
  simp [chars, unsigned, h.exponent_eq]

/-- Without its sign, a plain numeral is a single number token. -/
theorem IsPlain.lexeme_unsigned (h : n.IsPlain) :
    Element.Lexeme (.token .number (some (numberOf n.whole n.fraction)) n.unsigned) := by
  by_cases hempty : n.fraction = []
  · rw [unsigned_of_eq_nil hempty, hempty]
    exact .whole h.whole_ne_nil h.whole_isDigit
  · rw [unsigned_of_ne_nil hempty]
    exact .fraction h.whole_ne_nil h.whole_isDigit hempty h.fraction_isDigit

/-- The text of a plain numeral is read as a literal, or as the negation of one after a minus
sign. -/
theorem IsPlain.ofText_text (h : n.IsPlain) : Expr.ofText n.text = .ok n.expr := by
  have hsplit : split n.unsigned =
      [.token .number (some (numberOf n.whole n.fraction)) n.unsigned] := h.lexeme_unsigned.split_text
  have hscan : Scan.ofText n.text = Scan.ofElements 1 (split n.chars) := by
    rw [Scan.ofText, text, String.toList_ofList]
  rw [Expr.ofText, Grammar.readText, hscan, h.chars_eq, expr]
  cases n.negative with
  | false =>
    rw [if_neg Bool.false_ne_true, List.nil_append, hsplit]
    rfl
  | true =>
    have hminus : split ('-' :: n.unsigned) = .token .minus none ['-'] :: split n.unsigned :=
      Element.split_cons ..
    rw [if_pos rfl, List.cons_append, List.nil_append, hminus, hsplit]
    rfl

/-- The sign is applied to the number that the digits are read as, which is how a printed number
gets its own sign back, that of zero included. -/
theorem evaluate_expr (n : Numeral) {room : Nat} (hroom : Nesting.compound ≤ room) (scope : Scope) :
    let y := Binary64.ofMagnitude (Decimal.ofDigits n.whole n.fraction).magnitude
    n.expr.evaluate room scope = .ok (some (.number (if n.negative then -y else y))) scope := by
  intro y
  unfold expr
  cases n.negative with
  | false => rfl
  | true =>
    simp only [if_true, Expr.evaluate, Evaluation.opening, hroom]
    rfl

/-! ## The form of the text -/

/-- Nothing but digits, a sign and a point is ever printed for a finite number. -/
theorem IsPlain.mem_chars (h : n.IsPlain) {c : Char} (hc : c ∈ n.chars) :
    c.isDigit ∨ c = '-' ∨ c = '.' := by
  rw [h.chars_eq] at hc
  rcases List.mem_append.1 hc with hc | hc
  · split at hc
    · exact .inr (.inl (List.mem_singleton.1 hc))
    · cases hc
  by_cases hempty : n.fraction = []
  · rw [unsigned_of_eq_nil hempty] at hc
    exact .inl (h.whole_isDigit c hc)
  · rw [unsigned_of_ne_nil hempty, List.mem_append, List.mem_cons] at hc
    rcases hc with hc | hc | hc
    · exact .inl (h.whole_isDigit c hc)
    · exact .inr (.inr hc)
    · exact .inl (h.fraction_isDigit c hc)

/-- A fraction that is a lone zero is not shown. -/
theorem IsPlain.not_endsInZeroFraction (h : n.IsPlain) : ¬['.', '0'] <:+ n.chars := by
  intro hsuffix
  have hpoint {w : List Char} (hw : ∀ c ∈ w, c.isDigit) : '.' ∉ w := fun hmem => by
    simpa using hw _ hmem
  by_cases hempty : n.fraction = []
  · -- Without a fraction there is no point at all.
    have hmem : '.' ∈ n.chars := hsuffix.subset List.mem_cons_self
    rw [h.chars_eq, unsigned_of_eq_nil hempty] at hmem
    rcases List.mem_append.1 hmem with hmem | hmem
    · split at hmem <;> simp at hmem
    · exact hpoint h.whole_isDigit hmem
  · have hfraction : '.' :: n.fraction <:+ n.chars := by
      rw [h.chars_eq, unsigned_of_ne_nil hempty, ← List.append_assoc]
      exact List.suffix_append ..
    -- Both suffixes start at the only point there is, so they are the same.
    have hlength : ['.', '0'].length ≤ ('.' :: n.fraction).length := by
      have := List.length_pos_iff.2 hempty
      simp only [List.length_cons, List.length_nil]
      omega
    rcases List.suffix_cons_iff.1 (List.suffix_of_suffix_length_le hsuffix hfraction hlength) with
      heq | hin
    · exact h.fraction_ne (List.cons.inj heq).2.symm
    · exact hpoint h.fraction_isDigit (hin.subset List.mem_cons_self)

end Plain

end Numeral

namespace Binary64

open Numeral (ofDecimal)

/-- The numeral that a finite number is printed as. -/
def numeral (x : Float) : Numeral :=
  (ofDecimal (isNegative x) (Decimal.shortest (magnitude x))).plain

/-- What a number is printed as is plain, being the plain form of its exact form. -/
theorem isPlain_numeral (x : Float) : (numeral x).IsPlain :=
  (Numeral.wellFormed_ofDecimal ..).isPlain_plain

theorem negative_numeral (x : Float) : (numeral x).negative = isNegative x := by
  rw [numeral, Numeral.negative_plain, Numeral.negative_ofDecimal]

theorem plainText_of_isFinite {x : Float} (h : x.isFinite = true) :
    plainText x = (numeral x).text := by
  have hlt := magnitude_lt_infinity h
  rw [plainText, textWith]
  simp only [Nat.not_lt.2 hlt.le, hlt.ne, if_false]
  rfl

/-- The digits of the printed numeral have the value of the shortest decimal, which is read as the
number's own magnitude. -/
theorem magnitude_numeral {x : Float} (h : x.isFinite = true) :
    (Decimal.ofDigits (numeral x).whole (numeral x).fraction).magnitude = magnitude x := by
  have hdecimal : Decimal.ofDigits (numeral x).whole (numeral x).fraction = (numeral x).decimal := by
    rw [Decimal.ofDigits, Numeral.decimal, (isPlain_numeral x).exponent_eq, Option.getD_none,
      Int.zero_sub]
  have hvalue : (numeral x).decimal.value = (Decimal.shortest (magnitude x)).value := by
    rw [numeral, Numeral.value_plain, Numeral.value_ofDecimal]
  rw [hdecimal, Decimal.magnitude_congr hvalue, Decimal.magnitude_shortest (magnitude_lt_infinity h)]

theorem mem_plainText {x : Float} (h : x.isFinite = true) {c : Char}
    (hc : c ∈ (plainText x).toList) : c.isDigit ∨ c = '-' ∨ c = '.' := by
  rw [plainText_of_isFinite h, Numeral.text, String.toList_ofList] at hc
  exact (isPlain_numeral x).mem_chars hc

/-- A finite number is printed as an expression whose value it is. -/
theorem evaluate_numeral {x : Float} (h : x.isFinite = true) {room : Nat}
    (hroom : Nesting.compound ≤ room) (scope : Scope) :
    (numeral x).expr.evaluate room scope = .ok (some (.number x)) scope := by
  rw [Numeral.evaluate_expr _ hroom, magnitude_numeral h, negative_numeral, ← eq_ofMagnitude h]

/-- Two finite numbers are never printed alike, as what is printed has one value. -/
theorem eq_of_plainText_eq {x y : Float} (hx : x.isFinite = true) (hy : y.isFinite = true)
    (h : plainText x = plainText y) : x = y := by
  rw [plainText_of_isFinite hx, plainText_of_isFinite hy] at h
  have hread : (.ok (numeral x).expr : Except Diagnostic Expr) = .ok (numeral y).expr := by
    rw [← (isPlain_numeral x).ofText_text, ← (isPlain_numeral y).ofText_text, h]
  have hvalue := evaluate_numeral hx (Nat.le_refl _) .empty
  rw [Except.ok.inj hread, evaluate_numeral hy (Nat.le_refl _)] at hvalue
  cases hvalue
  rfl

/-- What a program prints for a finite number has no exponent and no superfluous `.0`, and as an
expression it has that number as its value, bit for bit, in every scope. -/
theorem plainText_reads_back (x : Float) (h : x.isFinite = true) :
    (∀ c ∈ (plainText x).toList, c.isDigit ∨ c = '-' ∨ c = '.') ∧
      ¬['.', '0'] <:+ (plainText x).toList ∧
      ∃ e, Expr.ofText (plainText x) = .ok e ∧
        ∀ room, Nesting.compound ≤ room → ∀ scope,
          e.evaluate room scope = .ok (some (.number x)) scope := by
  have hplain := isPlain_numeral x
  refine ⟨fun c => mem_plainText h, ?_, (numeral x).expr, ?_,
    fun _ hroom scope => evaluate_numeral h hroom scope⟩
  · rw [plainText_of_isFinite h, Numeral.text, String.toList_ofList]
    exact hplain.not_endsInZeroFraction
  · rw [plainText_of_isFinite h]
    exact hplain.ofText_text

/-- The negative number nearest to zero prints as `-0.`, 323 zeros and a `5`. -/
theorem plainText_reads_back_subnormal :
    let x := Float.ofBits 0x8000000000000001
    x.isFinite = true ∧
      plainText x = String.ofList ("-0.".toList ++ List.replicate 323 '0' ++ ['5']) ∧
      ∃ e, Expr.ofText (plainText x) = .ok e ∧
        ∀ room, Nesting.compound ≤ room → ∀ scope,
          e.evaluate room scope = .ok (some (.number x)) scope :=
  ⟨by decide +kernel, by decide +kernel, (plainText_reads_back _ (by decide +kernel)).2.2⟩

end Binary64

end Scriptlet
