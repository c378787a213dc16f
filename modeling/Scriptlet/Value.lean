import Scriptlet.Decimal.Numeral
import Scriptlet.Text.Quoted

/-!
# Values

A value is nil or a datum. Data are numbers, strings, booleans and one datum that is not a number;
the last is the quotient of two zeros and is not the same as a number whose bits are a NaN. Tokens
and trees built by hand may hold data of a type the language does not know.
-/

namespace Scriptlet

/-- A value other than nil. -/
inductive Datum where
  | number (x : Float)
  | string (text : String)
  | boolean (flag : Bool)
  | nan
  | foreign (typeName : String) (text : Option String)
  deriving DecidableEq

/-- A value of the language; `none` is nil. -/
abbrev Value := Option Datum

namespace Datum

/-- The name of a datum's type, as messages give it. -/
def typeName : Datum → String
  | number _ => "Number"
  | string _ => "String"
  | boolean _ => "Boolean"
  | nan => "NaN"
  | foreign name _ => name

/-- The text a program prints for a datum. -/
def display : Datum → String
  | number x => Binary64.plainText x
  | string text => text
  | boolean flag => if flag then "true" else "false"
  | nan => "NaN"
  | foreign name _ => "<" ++ name ++ ">"

/-- The content of a datum as a listing writes it. -/
def content : Datum → String
  | number x => Binary64.exactText x
  | string text => Text.quoted text
  | boolean flag => if flag then "True" else "False"
  | foreign _ (some text) => Text.quoted text
  | nan | foreign _ none => "None"

/-- The unambiguous form of a datum, its type with its content. -/
def describe (d : Datum) : String :=
  match d with
  | nan => "NaN"
  | d => d.typeName ++ "(" ++ d.content ++ ")"

/-- Equality within the language: equal types and equal content. Numbers compare as numbers, and
the datum that is not a number equals nothing. -/
def same : Datum → Datum → Bool
  | number x, number y => x == y
  | string s, string t => s == t
  | boolean a, boolean b => a == b
  | foreign n s, foreign m t => n == m && s == t
  | _, _ => false

end Datum

namespace Value

def typeName (v : Value) : String := (v.map Datum.typeName).getD "nil"

def display (v : Value) : String := (v.map Datum.display).getD "nil"

end Value

end Scriptlet
