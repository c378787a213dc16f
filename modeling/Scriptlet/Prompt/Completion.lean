import Scriptlet.Token

/-!
# Completion

The words that can complete what has been typed: the keywords, then the words the prompt knows.
Asking with the numbers 0, 1, 2, … gives one completion after the other.
-/

namespace Scriptlet.Completion

/-- The words that only the prompt knows. -/
def promptWords : List String := [":tokens", ":ast", ":env", ":help", "exit"]

/-- Every word that can be completed. -/
def words : List String := Token.keywords.map (·.1) ++ promptWords

def options (text : String) : List String :=
  words.filter fun word => text.toList.isPrefixOf word.toList

/-- There is no completion so far before the last. -/
inductive Fault where
  | outOfRange
  deriving DecidableEq, Repr

/-- The completion with a given number, or none if there are not so many. Negative numbers count
from the end, and must not go beyond the first. -/
def candidate (text : String) (number : Int) : Except Fault (Option String) :=
  let found := options text
  let index := if number < 0 then number + found.length else number
  if index < 0 then .error .outOfRange else .ok found[index.toNat]?

end Scriptlet.Completion
