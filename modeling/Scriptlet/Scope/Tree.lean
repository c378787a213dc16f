import Scriptlet.Scope

/-!
# Trees of scopes

Many scopes may share enclosing scopes. A tree numbers its scopes in the order in which they were
made; the first is the global one, and every other is enclosed by one made before it. Each scope of a
tree comes down to a `Scope`, its chain.

A search in a tree goes outwards as far as it has to. The limit on open levels, which a running program
pays for every frame that it looks into (`Evaluation.read`), is not part of trees: with a thousand
scopes or so around one another, a search that opens a level for each of them may be given up.
-/

namespace Scriptlet

/-- A frame with the number of its enclosing scope; the global scope has none. -/
structure ScopeTree.Node where
  own : Frame := {}
  outer : Option Nat := none
  deriving DecidableEq

/-- Scopes by number. -/
structure ScopeTree where
  nodes : List ScopeTree.Node := [{}]
  deriving DecidableEq

namespace ScopeTree

/-- The numbers of a scope and the scopes around it, innermost first. Numbers decrease outwards. -/
def path (tree : ScopeTree) (scope : Nat) : List Nat :=
  match tree.nodes[scope]? with
  | none => []
  | some node =>
    match node.outer with
    | none => [scope]
    | some outer => if outer < scope then scope :: path tree outer else [scope]
termination_by scope

def own (tree : ScopeTree) (scope : Nat) : Frame :=
  (tree.nodes[scope]?.map (·.own)).getD {}

/-- The frames of a scope and the scopes around it, innermost first. -/
def frames (tree : ScopeTree) (scope : Nat) : List Frame := (tree.path scope).map tree.own

/-- The innermost scope around `scope` that binds a name. -/
def owner? (tree : ScopeTree) (scope : Nat) (name : String) : Option Nat :=
  (tree.path scope).find? fun number => ((tree.own number).find? name).isSome

def find? (tree : ScopeTree) (scope : Nat) (name : String) : Option Value :=
  (tree.frames scope).findSome? (·.find? name)

/-- The number of scopes from `scope` outwards. -/
def depth (tree : ScopeTree) (scope : Nat) : Nat := (tree.path scope).length

/-- Every name visible in a scope: outer names first, inner values winning. -/
def bindings (tree : ScopeTree) (scope : Nat) : Frame :=
  (tree.frames scope).foldr (fun inner outer => outer.overlay inner) {}

/-- A new scope within `scope`; its number is the number of scopes before it. -/
def push (tree : ScopeTree) (scope : Nat) : ScopeTree :=
  { nodes := tree.nodes ++ [{ outer := some scope }] }

/-- Binds a name in the frame of a scope. -/
def define (tree : ScopeTree) (scope : Nat) (name : String) (value : Value) : ScopeTree :=
  { nodes := tree.nodes.modify scope fun node => { node with own := node.own.set name value } }

/-- Rebinds a name in the innermost scope around `scope` that binds it; `none` if there is none. -/
def assign? (tree : ScopeTree) (scope : Nat) (name : String) (value : Value) :
    Option ScopeTree :=
  (tree.owner? scope name).map fun owner => tree.define owner name value

end ScopeTree

end Scriptlet
