import Scriptlet.Operator

/-!
# What operators come to

Whatever its operands are, an operator gives a datum of a type that the language knows, or complains
of them. A complaint never reads like that of a name without a value, so the wording of a stop tells
which of the two it was.
-/

namespace Scriptlet

/-- A text starts as its first part does. -/
theorem Text.head?_append_of_head? {s t : String} {c : Char} (h : s.toList.head? = some c) :
    (s ++ t).toList.head? = some c := by
  rw [String.toList_append, List.head?_append, h]
  rfl

/-- The data that programs can make: all but those of foreign types. -/
inductive Datum.Native : Datum → Prop
  | number (x : Float) : Native (.number x)
  | string (text : String) : Native (.string text)
  | boolean (flag : Bool) : Native (.boolean flag)
  | nan : Native .nan

/-- The values that programs can make: nil, and the data that they can make. -/
def Value.Native (v : Value) : Prop := ∀ d ∈ v, d.Native

theorem Value.native_none : Value.Native none := by
  intro d hd
  cases hd

theorem Value.native_some {d : Datum} (h : d.Native) : Value.Native (some d) := by
  intro d' hd'
  cases hd'
  exact h

namespace RuntimeCause

open Text (head?_append_of_head?)

/-- What applying an operator may complain of. -/
inductive OfOperator : RuntimeCause → Prop
  | nilOperand {side : String} : side = "Left" ∨ side = "Right" → OfOperator (.nilOperand side)
  | wrongType {expected actual : String} :
      expected = Expected.number ∨ expected = Expected.numbers ∨ expected = Expected.boolean →
      OfOperator (.wrongType expected actual)
  | unlikeOperands (left right : String) : OfOperator (.unlikeOperands left right)
  | unaryOperator : OfOperator .unaryOperator
  | binaryOperator : OfOperator .binaryOperator

/-- The first letter tells the complaints of operators from those of names. -/
theorem OfOperator.head?_message {cause : RuntimeCause} (h : cause.OfOperator) :
    cause.message.toList.head? ≠ some 'U' := by
  have hne {c : Char} (hhead : cause.message.toList.head? = some c) (hc : c ≠ 'U') :
      cause.message.toList.head? ≠ some 'U' := by
    rw [hhead]
    exact fun heq => hc (Option.some.inj heq)
  cases h with
  | nilOperand hside =>
    rcases hside with rfl | rfl
    · exact hne (head?_append_of_head? (c := 'L') rfl) (by decide)
    · exact hne (head?_append_of_head? (c := 'R') rfl) (by decide)
  | wrongType hexpected =>
    have hstart (expected : String) (hO : expected.toList.head? = some 'O') (actual : String) :
        (RuntimeCause.wrongType expected actual).message.toList.head? = some 'O' :=
      head?_append_of_head? (head?_append_of_head? (head?_append_of_head? hO))
    rcases hexpected with rfl | rfl | rfl <;> exact hne (hstart _ rfl _) (by decide)
  | unlikeOperands left right =>
    exact hne (head?_append_of_head? (head?_append_of_head? (head?_append_of_head?
      (head?_append_of_head? (c := 'O') rfl)))) (by decide)
  | unaryOperator => decide
  | binaryOperator => decide

theorem head?_message_undefinedVariable (name : String) :
    (undefinedVariable name).message.toList.head? = some 'U' :=
  head?_append_of_head? (head?_append_of_head? rfl)

/-- The wording of a name without a value gives the name. -/
theorem message_undefinedVariable_inj {name other : String}
    (h : (undefinedVariable name).message = (undefinedVariable other).message) : name = other := by
  change "Undefined variable '" ++ name ++ "'." = "Undefined variable '" ++ other ++ "'." at h
  rwa [String.append_left_inj, String.append_right_inj] at h

end RuntimeCause

/-- An attempt gives something good, or fails as an operator does. -/
def Attempts {α : Type} (Good : α → Prop) : Except RuntimeCause α → Prop
  | .ok a => Good a
  | .error cause => cause.OfOperator

namespace Attempts

variable {α β : Type} {Good : α → Prop} {Good' : β → Prop}

/-- The second attempt may rely on what the first one has given. -/
theorem bind {r : Except RuntimeCause α} {next : α → Except RuntimeCause β} (hr : Attempts Good r)
    (hnext : ∀ a, Good a → Attempts Good' (next a)) : Attempts Good' (r >>= next) := by
  cases r with
  | ok a => exact hnext a hr
  | error cause => exact hr

end Attempts

/-! ## Operands -/

/-- A missing operand is complained of by its side. -/
theorem Value.attempts_require (v : Value) {side : String} (hside : side = "Left" ∨ side = "Right") :
    Attempts (fun _ => True) (v.require side) := by
  cases v with
  | none => exact .nilOperand hside
  | some d => trivial

namespace Datum

theorem attempts_asNumber (d : Datum) {expected : String}
    (h : expected = Expected.number ∨ expected = Expected.numbers ∨ expected = Expected.boolean) :
    Attempts (fun _ => True) (d.asNumber expected) := by
  cases d with
  | number x => trivial
  | _ => exact .wrongType h

theorem attempts_asBoolean (d : Datum) {expected : String}
    (h : expected = Expected.number ∨ expected = Expected.numbers ∨ expected = Expected.boolean) :
    Attempts (fun _ => True) (d.asBoolean expected) := by
  cases d with
  | boolean flag => trivial
  | _ => exact .wrongType h

theorem attempts_asNumbers (x y : Datum) : Attempts (fun _ => True) (x.asNumbers y) :=
  (x.attempts_asNumber (.inr (.inl rfl))).bind fun _ _ =>
    (y.attempts_asNumber (.inr (.inl rfl))).bind fun _ _ => trivial

end Datum

/-! ## Operators -/

/-- What an operator gives is a datum that it makes itself, never an operand as it was. -/
theorem UnaryOperator.attempts_apply (operator : UnaryOperator) (x : Datum) :
    Attempts Datum.Native (operator.apply x) := by
  cases operator with
  | negate => exact (x.attempts_asNumber (.inl rfl)).bind fun y _ => Datum.Native.number (-y)
  | not =>
    exact (x.attempts_asBoolean (.inr (.inr rfl))).bind fun flag _ => Datum.Native.boolean !flag

namespace BinaryOperator

/-- A sum of strings is a string, and no sum of mixed operands is tried. -/
theorem attempts_sum (x y : Datum) : Attempts Datum.Native (sum x y) := by
  unfold sum
  split
  · exact .number _
  · exact .string _
  · exact .unlikeOperands _ _

/-- Dividing by zero gives native data too. -/
theorem native_quotient (x y : Float) : (quotient x y).Native := by
  unfold quotient
  split
  · exact .nan
  · exact .number _

theorem attempts_apply (operator : BinaryOperator) (x y : Datum) :
    Attempts Datum.Native (operator.apply x y) := by
  -- What is done with two numbers, once both operands are known to be numbers.
  have hnumbers {f : Float × Float → Datum} (hf : ∀ p, (f p).Native) :
      Attempts Datum.Native (x.asNumbers y >>= fun p => pure (f p)) :=
    (x.attempts_asNumbers y).bind fun p _ => hf p
  cases operator with
  | add => exact attempts_sum x y
  | subtract => exact hnumbers fun p => .number (p.1 - p.2)
  | multiply => exact hnumbers fun p => .number (p.1 * p.2)
  | divide => exact hnumbers fun p => native_quotient p.1 p.2
  | equal => exact Datum.Native.boolean _
  | unequal => exact Datum.Native.boolean _
  | less => exact hnumbers fun p => .boolean (p.1 < p.2)
  | greater => exact hnumbers fun p => .boolean (p.2 < p.1)
  | lessEqual => exact hnumbers fun p => .boolean (p.1 ≤ p.2)
  | greaterEqual => exact hnumbers fun p => .boolean (p.2 ≤ p.1)

end BinaryOperator

end Scriptlet
