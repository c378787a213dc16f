import Scriptlet.Diagnostic

/-!
# Operators

What operators do to data, and what goes wrong when a program runs. Arithmetic is that of binary64,
except that a quotient of two zeros is the datum that is not a number.
-/

namespace Scriptlet

/-- What goes wrong when a program runs. Types are given by name. -/
inductive RuntimeCause where
  | undefinedVariable (name : String)
  | nilOperand (side : String)
  | wrongType (expected : String) (actual : String)
  | unlikeOperands (left right : String)
  | unaryOperator
  | binaryOperator
  deriving DecidableEq, Repr

def RuntimeCause.message : RuntimeCause → String
  | undefinedVariable name => "Undefined variable '" ++ name ++ "'."
  | nilOperand side => side ++ " operand must not be nil."
  | wrongType expected actual => expected ++ ", got " ++ actual ++ "."
  | unlikeOperands left right =>
    "Operands must be two numbers or two strings, got " ++ left ++ " and " ++ right ++ "."
  | unaryOperator => "Invalid operator for unary expression."
  | binaryOperator => "Invalid operator for binary expression."

namespace Expected

/-- What a lone operand must be to be negated. -/
def number : String := "Operand must be a number"

/-- What both operands of arithmetic and comparison must be. -/
def numbers : String := "Operands must be numbers"

/-- What an operand must be to be inverted. -/
def boolean : String := "Operand must be a boolean"

end Expected

namespace Datum

/-- The number of a datum, which must be one; `expected` says so. -/
def asNumber (d : Datum) (expected : String) : Except RuntimeCause Float :=
  match d with
  | number x => .ok x
  | d => .error (.wrongType expected d.typeName)

/-- The truth value of a datum, which must be a boolean; `expected` says so. -/
def asBoolean (d : Datum) (expected : String) : Except RuntimeCause Bool :=
  match d with
  | boolean flag => .ok flag
  | d => .error (.wrongType expected d.typeName)

/-- Two numbers; of two operands that are not, the left one is blamed. -/
def asNumbers (x y : Datum) : Except RuntimeCause (Float × Float) := do
  let left ← x.asNumber Expected.numbers
  let right ← y.asNumber Expected.numbers
  pure (left, right)

end Datum

/-- The datum of a value on one side of an operator; operators do not work on nil. -/
def Value.require (v : Value) (side : String) : Except RuntimeCause Datum :=
  match v with
  | some d => .ok d
  | none => .error (.nilOperand side)

namespace Binary64

/-- Division that has an infinite result for every divisor zero, with the sign of the quotient,
unless the dividend is not a number. -/
def divide (x y : Float) : Float :=
  if y != 0.0 then x / y
  else if x.isNaN then x
  else if isNegative x = isNegative y then ofMagnitude infinity
  else -ofMagnitude infinity

end Binary64

inductive UnaryOperator where
  | negate
  | not
  deriving DecidableEq, Repr

namespace UnaryOperator

/-- The operator that a kind of token stands for. -/
def ofKind? : Token.Kind → Option UnaryOperator
  | .minus => some negate
  | .bang => some not
  | _ => none

/-- What an operator does. -/
def apply : UnaryOperator → Datum → Except RuntimeCause Datum
  | negate, x => do pure (.number (-(← x.asNumber Expected.number)))
  | not, x => do pure (.boolean !(← x.asBoolean Expected.boolean))

end UnaryOperator

inductive BinaryOperator where
  | add | subtract | multiply | divide
  | equal | unequal | less | greater | lessEqual | greaterEqual
  deriving DecidableEq, Repr

namespace BinaryOperator

/-- The operator that a kind of token stands for. -/
def ofKind? : Token.Kind → Option BinaryOperator
  | .plus => some add
  | .minus => some subtract
  | .star => some multiply
  | .slash => some divide
  | .equalEqual => some equal
  | .bangEqual => some unequal
  | .less => some less
  | .greater => some greater
  | .lessEqual => some lessEqual
  | .greaterEqual => some greaterEqual
  | _ => none

/-- The sum of numbers, or the strings one after the other. -/
def sum : Datum → Datum → Except RuntimeCause Datum
  | .number x, .number y => .ok (.number (x + y))
  | .string s, .string t => .ok (.string (s ++ t))
  | x, y => .error (.unlikeOperands x.typeName y.typeName)

/-- The quotient of numbers; no number is a quotient of zeros. -/
def quotient (x y : Float) : Datum :=
  if x == 0.0 && y == 0.0 then .nan else .number (Binary64.divide x y)

/-- What an operator does. -/
def apply (operator : BinaryOperator) (x y : Datum) : Except RuntimeCause Datum :=
  match operator with
  | add => sum x y
  | subtract => do let (x, y) ← x.asNumbers y; pure (.number (x - y))
  | multiply => do let (x, y) ← x.asNumbers y; pure (.number (x * y))
  | divide => do let (x, y) ← x.asNumbers y; pure (quotient x y)
  | equal => .ok (.boolean (x.same y))
  | unequal => .ok (.boolean !(x.same y))
  | less => do let (x, y) ← x.asNumbers y; pure (.boolean (x < y))
  | greater => do let (x, y) ← x.asNumbers y; pure (.boolean (y < x))
  | lessEqual => do let (x, y) ← x.asNumbers y; pure (.boolean (x ≤ y))
  | greaterEqual => do let (x, y) ← x.asNumbers y; pure (.boolean (y ≤ x))

end BinaryOperator

end Scriptlet
