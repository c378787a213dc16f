import Scriptlet.Proofs.Decimal.ReadBack

/-!
# Decimal notation

A decimal text is a sign, digits, perhaps a point with more digits, and perhaps an exponent. It
spells one numeral (`Numeral.Spells`), which `ofChars?` reads. The plain form of the text is that of
the numeral (`plainOf`); a program prints the plain form of a number's exact text
(`Binary64.plainText_eq_plainOf`). The plain form of a decimal text has no exponent and denotes the
same fraction with the same sign, however far the point has to move (`Numeral.plainOf_exact`).
-/

namespace Scriptlet

namespace Numeral

open Element (dropWhile_append_eq takeWhile_append_eq)
open Nat (ofDigitChars toDigits)

/-- The fraction that a numeral denotes. -/
def toRat (n : Numeral) : ℚ := if n.negative then -n.decimal.value else n.decimal.value

/-- The plain form denotes what the numeral denotes, with the sign. -/
theorem toRat_plain (n : Numeral) : n.plain.toRat = n.toRat := by
  rw [toRat, toRat, value_plain, negative_plain]

/-- One digit or more, and nothing else. -/
def IsDigits (text : List Char) : Prop := text ≠ [] ∧ ∀ c ∈ text, c.isDigit

instance : DecidablePred IsDigits := fun text =>
  decidable_of_iff (text ≠ [] ∧ text.all Char.isDigit) (by rw [IsDigits, List.all_eq_true])

/-- The texts of an exponent. It may be missing, and a positive one may go without its sign. -/
inductive SpellsExponent : Option Int → List Char → Prop
  | absent : SpellsExponent none []
  | unsigned {digits : List Char} :
      IsDigits digits → SpellsExponent (some (ofDigitChars 10 digits 0)) ('e' :: digits)
  | plus {digits : List Char} :
      IsDigits digits → SpellsExponent (some (ofDigitChars 10 digits 0)) ('e' :: '+' :: digits)
  | minus {digits : List Char} :
      IsDigits digits → SpellsExponent (some (-ofDigitChars 10 digits 0)) ('e' :: '-' :: digits)

/-- The texts of a numeral: its sign, its digits with a point between them, and its exponent. -/
inductive Spells (n : Numeral) : List Char → Prop
  | intro {tail : List Char} : n.WellFormed → SpellsExponent n.exponent tail →
      Spells n ((if n.negative then ['-'] else []) ++ n.unsigned ++ tail)

/-! ## Reading a numeral -/

/-- Whether a text starts with a minus sign, and what follows the sign. -/
def splitSign : List Char → Bool × List Char
  | '-' :: rest => (true, rest)
  | rest => (false, rest)

/-- The digits after a point that a text starts with, and what follows them. -/
def splitFraction : List Char → List Char × List Char
  | '.' :: rest =>
    if rest.takeWhile Char.isDigit = [] then ([], '.' :: rest)
    else (rest.takeWhile Char.isDigit, rest.dropWhile Char.isDigit)
  | rest => ([], rest)

/-- The exponent that a text consists of, which may be missing. -/
def exponent? : List Char → Option (Option Int)
  | [] => some none
  | 'e' :: '+' :: digits =>
    if IsDigits digits then some (some (ofDigitChars 10 digits 0)) else none
  | 'e' :: '-' :: digits =>
    if IsDigits digits then some (some (-ofDigitChars 10 digits 0)) else none
  | 'e' :: digits => if IsDigits digits then some (some (ofDigitChars 10 digits 0)) else none
  | _ => none

/-- The numeral that a text spells, if it spells one. -/
def ofChars? (text : List Char) : Option Numeral :=
  let signed := splitSign text
  let whole := signed.2.takeWhile Char.isDigit
  let split := splitFraction (signed.2.dropWhile Char.isDigit)
  if whole = [] then none
  else (exponent? split.2).map
    ({ negative := signed.1, whole, fraction := split.1, exponent := · })

/-- The plain form of a text. A text that spells no numeral stays as it is. -/
def plainOf (text : String) : String := ((ofChars? text.toList).map (·.plain.text)).getD text

section Digits

variable {digits rest tail : List Char} {c : Char}

theorem isDigit_ne_sign (h : c.isDigit) : c ≠ '-' ∧ c ≠ '+' := by
  constructor <;>
  · rintro rfl
    exact absurd h (by decide)

/-! ### Exponents -/

/-- Reading an exponent finds exactly what its text spells, and it finds nothing in other texts. -/
theorem exponent?_eq_some_iff {e : Option Int} : exponent? tail = some e ↔ SpellsExponent e tail := by
  constructor
  · intro h
    unfold exponent? at h
    split at h
    · cases h
      exact .absent
    · split at h
      · cases h
        exact .plus ‹_›
      · cases h
    · split at h
      · cases h
        exact .minus ‹_›
      · cases h
    · split at h
      · cases h
        exact .unsigned ‹_›
      · cases h
    · cases h
  · rintro (_ | h | h | h)
    · rfl
    · -- A digit is no sign, so the last of the three cases is the one that applies.
      obtain ⟨c, digits, rfl⟩ := List.exists_cons_of_ne_nil h.1
      obtain ⟨hminus, hplus⟩ := isDigit_ne_sign (h.2 c List.mem_cons_self)
      unfold exponent?
      split <;> simp_all
    · exact if_pos h
    · exact if_pos h

/-- An exponent that is there starts with its letter, which ends the digits before it. -/
theorem SpellsExponent.head?_eq {e : Option Int} (h : SpellsExponent e tail) :
    ∀ c, tail.head? = some c → c = 'e' := by
  intro c hc
  cases h with
  | absent => cases hc
  | unsigned | plus | minus => exact (Option.some.inj hc).symm

/-- An exponent is written with its sign and at least two digits, which is one of its texts. -/
theorem spellsExponent_exponentText (e : Int) : SpellsExponent (some e) (exponentText e) := by
  let digits := List.replicate (2 - (toDigits 10 e.natAbs).length) '0' ++ toDigits 10 e.natAbs
  have hdigits : IsDigits digits := by
    refine ⟨List.append_ne_nil_of_right_ne_nil _ Nat.toDigits_ne_nil, ?_⟩
    intro c hc
    rcases List.mem_append.1 hc with hc | hc
    · rw [List.eq_of_mem_replicate hc]
      rfl
    · exact Nat.isDigit_of_mem_toDigits (by decide) (by decide) hc
  have hvalue : ofDigitChars 10 digits 0 = e.natAbs := by
    rw [Nat.ofDigitChars_append, Nat.ofDigitChars_replicate_zero, Nat.mul_zero,
      Nat.ofDigitChars_ten_toDigits]
  by_cases hneg : e < 0
  · have he : e = -ofDigitChars 10 digits 0 := by omega
    have htext : exponentText e = 'e' :: '-' :: digits := by rw [exponentText, if_pos hneg]
    rw [htext, he]
    exact .minus hdigits
  · have he : e = ofDigitChars 10 digits 0 := by omega
    have htext : exponentText e = 'e' :: '+' :: digits := by rw [exponentText, if_neg hneg]
    rw [htext, he]
    exact .plus hdigits

/-! ### Signs and fractions -/

/-- A sign before digits is split off, as no digit is taken for one. -/
theorem splitSign_append (negative : Bool) (h : IsDigits digits) :
    splitSign ((if negative then ['-'] else []) ++ (digits ++ rest)) = (negative, digits ++ rest) := by
  cases negative with
  | true => rfl
  | false =>
    obtain ⟨c, digits, rfl⟩ := List.exists_cons_of_ne_nil h.1
    have hminus := (isDigit_ne_sign (h.2 c List.mem_cons_self)).1
    unfold splitSign
    split <;> simp_all

theorem eq_append_splitSign (text : List Char) :
    text = (if (splitSign text).1 then ['-'] else []) ++ (splitSign text).2 := by
  unfold splitSign
  split <;> rfl

/-- What follows the digits before the point starts with the point or with an exponent. -/
theorem isDigit_eq_false_of_head? (htail : ∀ c, tail.head? = some c → c = 'e') (c : Char)
    (hc : ((if digits.isEmpty then [] else '.' :: digits) ++ tail).head? = some c) :
    c.isDigit = false := by
  split at hc
  · rw [htail c hc]
    rfl
  · rw [← Option.some.inj hc]
    rfl

/-- The fraction is split off as it was written, up to the exponent. -/
theorem splitFraction_append (h : ∀ c ∈ digits, c.isDigit)
    (htail : ∀ c, tail.head? = some c → c = 'e') :
    splitFraction ((if digits.isEmpty then [] else '.' :: digits) ++ tail) = (digits, tail) := by
  have hstop : ∀ c, tail.head? = some c → c.isDigit = false := by
    intro c hc
    rw [htail c hc]
    rfl
  by_cases hempty : digits = []
  · rw [hempty, List.isEmpty_nil, if_pos rfl, List.nil_append]
    unfold splitFraction
    split
    · exact absurd (htail _ rfl) (by decide)
    · rfl
  · rw [if_neg (by rwa [List.isEmpty_iff]), List.cons_append, splitFraction,
      takeWhile_append_eq h hstop, dropWhile_append_eq h hstop, if_neg hempty]

/-- A point without digits after it is left with the rest of the text. -/
theorem eq_append_splitFraction (text : List Char) :
    text = (if (splitFraction text).1.isEmpty then [] else '.' :: (splitFraction text).1) ++
      (splitFraction text).2 := by
  unfold splitFraction
  split
  · rename_i rest
    split
    · rfl
    · rename_i hne
      rw [if_neg (by rwa [List.isEmpty_iff]), List.cons_append, List.takeWhile_append_dropWhile]
  · rfl

theorem isDigit_of_mem_splitFraction {text : List Char} (h : c ∈ (splitFraction text).1) :
    c.isDigit := by
  unfold splitFraction at h
  split at h
  · split at h
    · cases h
    · exact List.mem_takeWhile_imp h
  · cases h

end Digits

/-! ### Whole texts -/

section Spelling

variable {n : Numeral} {text : List Char}

/-- What is read is spelt by the text it was read from. -/
theorem spells_of_ofChars? (h : ofChars? text = some n) : n.Spells text := by
  have hsign := eq_append_splitSign text
  unfold ofChars? at h
  dsimp only at h
  generalize splitSign text = signed at h hsign
  have hrest := eq_append_splitFraction (signed.2.dropWhile Char.isDigit)
  have hfraction : ∀ c ∈ (splitFraction (signed.2.dropWhile Char.isDigit)).1, c.isDigit :=
    fun c => isDigit_of_mem_splitFraction
  generalize splitFraction (signed.2.dropWhile Char.isDigit) = split at h hrest hfraction
  split at h
  · cases h
  · rename_i hwhole
    obtain ⟨e, he, rfl⟩ := Option.map_eq_some_iff.1 h
    have htext : text = (if signed.1 then ['-'] else []) ++ (signed.2.takeWhile Char.isDigit ++
        if split.1.isEmpty then [] else '.' :: split.1) ++ split.2 := by
      rw [List.append_assoc, List.append_assoc, ← hrest, List.takeWhile_append_dropWhile, ← hsign]
    rw [htext]
    exact .intro ⟨hwhole, fun c => List.mem_takeWhile_imp, hfraction⟩ (exponent?_eq_some_iff.1 he)

/-- A text spells one numeral at most: the one that is read from it. -/
theorem Spells.ofChars?_eq (h : n.Spells text) : ofChars? text = some n := by
  obtain ⟨hn, htail⟩ := h
  have hhead := htail.head?_eq
  have hwhole := hn.whole_isDigit
  rw [unsigned, List.append_assoc, List.append_assoc, ofChars?,
    splitSign_append _ ⟨hn.whole_ne_nil, hwhole⟩]
  dsimp only
  rw [takeWhile_append_eq hwhole (isDigit_eq_false_of_head? hhead),
    dropWhile_append_eq hwhole (isDigit_eq_false_of_head? hhead),
    splitFraction_append hn.fraction_isDigit hhead, if_neg hn.whole_ne_nil,
    exponent?_eq_some_iff.2 htail]
  rfl

/-- A text spells a numeral exactly when it is read as that numeral. -/
theorem ofChars?_eq_some_iff : ofChars? text = some n ↔ n.Spells text :=
  ⟨spells_of_ofChars?, Spells.ofChars?_eq⟩

theorem Spells.wellFormed (h : n.Spells text) : n.WellFormed := by
  cases h
  assumption

/-- Each well-formed numeral has a text, the one that it is written as. -/
theorem WellFormed.spells_chars (h : n.WellFormed) : n.Spells n.chars := by
  have hchars : n.chars = (if n.negative then ['-'] else []) ++ n.unsigned ++
      (n.exponent.map exponentText).getD [] := by
    rw [chars, unsigned, List.append_assoc _ n.whole]
  rw [hchars]
  refine .intro h ?_
  cases n.exponent with
  | none => exact .absent
  | some e => exact spellsExponent_exponentText e

theorem WellFormed.spells_text (h : n.WellFormed) : n.Spells n.text.toList := by
  rw [text, String.toList_ofList]
  exact h.spells_chars

theorem Spells.plainOf_eq {text : String} (h : n.Spells text.toList) :
    plainOf text = n.plain.text := by
  rw [plainOf, ofChars?_eq_some_iff.2 h]
  rfl

end Spelling

end Numeral

open Numeral (plainOf wellFormed_ofDecimal)

/-- What a program prints for a number is the plain form of the number's exact text. -/
theorem Binary64.plainText_eq_plainOf (x : Float) : plainText x = plainOf (exactText x) := by
  unfold plainText exactText textWith
  dsimp only
  by_cases hnan : infinity < magnitude x
  · rw [if_pos hnan, if_pos hnan]
    rfl
  rw [if_neg hnan, if_neg hnan]
  by_cases hinfinite : magnitude x = infinity
  · rw [if_pos hinfinite, if_pos hinfinite]
    cases isNegative x <;> rfl
  · rw [if_neg hinfinite, if_neg hinfinite]
    have hspells := (wellFormed_ofDecimal (isNegative x) (Decimal.shortest (magnitude x))).spells_text
    exact hspells.plainOf_eq.symm

namespace Numeral

/-- The plain form of a decimal text is a decimal text without an exponent and without a superfluous
`.0`. It has the same sign and denotes exactly the same fraction, and it is what a program prints
for a number with that exact text. -/
theorem plainOf_exact {n : Numeral} {text : String} (h : n.Spells text.toList) :
    (∀ x, Binary64.exactText x = text → Binary64.plainText x = plainOf text) ∧
      ∃ m : Numeral, m.Spells (plainOf text).toList ∧ m.exponent = none ∧
        'e' ∉ (plainOf text).toList ∧ ¬['.', '0'] <:+ (plainOf text).toList ∧
        m.negative = n.negative ∧ m.toRat = n.toRat := by
  have hplain := h.wellFormed.isPlain_plain
  have htext : (plainOf text).toList = n.plain.chars := by
    rw [h.plainOf_eq, Numeral.text, String.toList_ofList]
  refine ⟨?_, n.plain, ?_, hplain.exponent_eq, ?_, ?_, negative_plain n, toRat_plain n⟩
  · intro x hx
    rw [← hx, Binary64.plainText_eq_plainOf]
  · rw [htext]
    exact hplain.toWellFormed.spells_chars
  · intro he
    rw [htext] at he
    have hchar := hplain.mem_chars he
    exact absurd hchar (by decide)
  · rw [htext]
    exact hplain.not_endsInZeroFraction

/-- The point moves past the first two of three digits after it, and the zero left behind goes. -/
theorem plainOf_exact_integral :
    let n : Numeral :=
      { negative := true, whole := ['1', '2'], fraction := ['5', '0', '0'], exponent := some 2 }
    n.Spells "-12.500e+02".toList ∧ plainOf "-12.500e+02" = "-1250" ∧
      ∃ m : Numeral, m.Spells (plainOf "-12.500e+02").toList ∧ m.exponent = none ∧
        'e' ∉ (plainOf "-12.500e+02").toList ∧ ¬['.', '0'] <:+ (plainOf "-12.500e+02").toList ∧
        m.negative = n.negative ∧ m.toRat = n.toRat := by
  intro n
  have hspells : n.Spells "-12.500e+02".toList := ofChars?_eq_some_iff.1 (by decide +kernel)
  exact ⟨hspells, by decide +kernel, (plainOf_exact hspells).2⟩

end Numeral

end Scriptlet
