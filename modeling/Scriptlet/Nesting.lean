/-!
# How deep programs may nest

Reading, running and writing a program each open levels as they go into it, and each may have only
so many open at once. What needs more is refused rather than attempted.
-/

namespace Scriptlet.Nesting

/-- How many grammar rules may be open while a program is read. A rule for a binary operator opens
two levels, one of them for its chain of operands; every other rule opens one. -/
def reading : Nat := 986

/-- How many levels may be open while a program runs. -/
def running : Nat := 988

/-- The levels that an expression with parts opens while it is evaluated. Literals and names open
none, but a search for a name opens one for every frame that it looks into. -/
def compound : Nat := 3

/-- The levels that a statement other than a block opens while it runs. -/
def statement : Nat := 3

/-- The levels that a block opens while it runs. -/
def block : Nat := 4

/-- How high a tree may be that is written as an s-expression. -/
def writing : Nat := 247

end Scriptlet.Nesting
