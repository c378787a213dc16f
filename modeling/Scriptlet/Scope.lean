import Scriptlet.Value

/-!
# Scopes

A frame binds names to values and remembers the order in which the names came. A scope is a frame
within an enclosing scope, or the outermost, global frame.
-/

namespace Scriptlet

/-- Names with their values, in the order in which the names were first bound. -/
structure Frame where
  entries : List (String × Value) := []
  deriving DecidableEq

namespace Frame

/-- The value bound to a name. -/
def find? (frame : Frame) (name : String) : Option Value := frame.entries.lookup name

/-- Rebinds a name among entries, keeping its place, or adds it at the end. -/
def setEntry (name : String) (value : Value) : List (String × Value) → List (String × Value)
  | [] => [(name, value)]
  | entry :: rest =>
    if entry.1 = name then (name, value) :: rest else entry :: setEntry name value rest

/-- Binds a name; one that is bound already keeps its place. -/
def set (frame : Frame) (name : String) (value : Value) : Frame :=
  { entries := setEntry name value frame.entries }

/-- A name that was set has its new value, and no other name changes. -/
theorem find?_set (frame : Frame) (name other : String) (value : Value) :
    (frame.set name value).find? other = if other = name then some value else frame.find? other := by
  unfold set find?
  generalize frame.entries = entries
  induction entries with
  | nil => grind [setEntry]
  | cons entry rest ih => grind [setEntry]

/-- One frame seen through another: the inner one's values win, the outer one's order stays. -/
def overlay (outer inner : Frame) : Frame :=
  inner.entries.foldl (fun frame entry => frame.set entry.1 entry.2) outer

end Frame

/-- A frame within its enclosing scope; the outermost frame is the global one. -/
inductive Scope where
  | global (own : Frame)
  | inner (own : Frame) (outer : Scope)
  deriving DecidableEq

namespace Scope

/-- A global scope without names. -/
def empty : Scope := global {}

def own : Scope → Frame
  | global own | inner own _ => own

def globals : Scope → Frame
  | global own => own
  | inner _ outer => outer.globals

def depth : Scope → Nat
  | global _ => 1
  | inner _ outer => outer.depth + 1

/-- The value of a name, from the innermost frame that binds it. -/
def find? : Scope → String → Option Value
  | global own, name => own.find? name
  | inner own outer, name => own.find? name <|> outer.find? name

/-- How many frames a search for a name looks into: those up to the innermost one that binds it, or
all of them. -/
def reach : Scope → String → Nat
  | global _, _ => 1
  | inner own outer, name => if (own.find? name).isSome then 1 else outer.reach name + 1

/-- A search looks into no frame twice. -/
theorem reach_le_depth (scope : Scope) (name : String) : scope.reach name ≤ scope.depth := by
  induction scope with
  | global own => exact Nat.le_refl 1
  | inner own outer ih =>
    simp only [reach, depth]
    split <;> omega

/-- Binds a name in the innermost frame. -/
def define (scope : Scope) (name : String) (value : Value) : Scope :=
  match scope with
  | global own => global (own.set name value)
  | inner own outer => inner (own.set name value) outer

/-- Rebinds a name in the innermost frame that binds it; `none` if no frame does. -/
def assign? (scope : Scope) (name : String) (value : Value) : Option Scope :=
  match scope with
  | global own => if (own.find? name).isSome then some (global (own.set name value)) else none
  | inner own outer =>
    if (own.find? name).isSome then some (inner (own.set name value) outer)
    else (outer.assign? name value).map (inner own)

/-- Every visible name with its value: outer names first, inner values winning. -/
def bindings : Scope → Frame
  | global own => Frame.overlay {} own
  | inner own outer => outer.bindings.overlay own

/-- A new scope within this one. -/
def enter (scope : Scope) : Scope := inner {} scope

/-- The enclosing scope; the global scope has none and stays. -/
def leave : Scope → Scope
  | global own => global own
  | inner _ outer => outer

end Scope

end Scriptlet
