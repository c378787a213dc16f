import Scriptlet.Execution
import Scriptlet.Scope.Tree

/-!
# Requests to scopes

What can be asked of the scopes of a tree. A request names its scope by number. Some requests change
the tree and some only look at it; one that is refused leaves the tree as it is. As in trees, there is
no limit on how many scopes a request may look into.
-/

namespace Scriptlet.ScopeTree

/-- Something asked of a scope. -/
inductive Request where
  /-- A new scope within this one. -/
  | push (scope : Nat)
  | define (scope : Nat) (name : String) (value : Value)
  | assign (scope : Nat) (name : Token) (value : Value)
  | get (scope : Nat) (name : Token)
  | bindings (scope : Nat)
  | depth (scope : Nat)
  deriving DecidableEq

namespace Request

def scope : Request → Nat
  | push scope | define scope _ _ | assign scope _ _ | get scope _ | bindings scope
  | depth scope => scope

/-- Requests that are there to look, not to change. -/
def isQuery : Request → Bool
  | get _ _ | bindings _ | depth _ => true
  | push _ | define _ _ _ | assign _ _ _ => false

end Request

/-- What a request is answered with. -/
inductive Answer where
  | done
  /-- The number of a new scope. -/
  | scope (number : Nat)
  | value (value : Value)
  | bindings (visible : Frame)
  | depth (count : Nat)
  deriving DecidableEq

/-- Does what a request asks for. A name must be bound to be read, and to be assigned. -/
def respond : Request → EStateM Stop ScopeTree Answer
  | .push scope => fun tree => .ok (.scope tree.nodes.length) (tree.push scope)
  | .define scope name value => fun tree => .ok .done (tree.define scope name value)
  | .assign scope name value => fun tree =>
    match tree.assign? scope name.lexeme value with
    | some changed => .ok .done changed
    | none => .error (.fault (.undefinedVariable name.lexeme) name) tree
  | .get scope name => fun tree =>
    match tree.find? scope name.lexeme with
    | some value => .ok (.value value) tree
    | none => .error (.fault (.undefinedVariable name.lexeme) name) tree
  | .bindings scope => fun tree => .ok (.bindings (tree.bindings scope)) tree
  | .depth scope => fun tree => .ok (.depth (tree.depth scope)) tree

section Names

variable {tree : ScopeTree} {scope : Nat} {name : Token}

theorem respond_get_of_some {value : Value} (h : tree.find? scope name.lexeme = some value) :
    respond (.get scope name) tree = .ok (.value value) tree := by
  simp only [respond, h]

theorem respond_get_of_none (h : tree.find? scope name.lexeme = none) :
    respond (.get scope name) tree =
      .error (.fault (.undefinedVariable name.lexeme) name) tree := by
  simp only [respond, h]

theorem respond_assign_of_some {value : Value} {changed : ScopeTree}
    (h : tree.assign? scope name.lexeme value = some changed) :
    respond (.assign scope name value) tree = .ok .done changed := by
  simp only [respond, h]

theorem respond_assign_of_none {value : Value}
    (h : tree.assign? scope name.lexeme value = none) :
    respond (.assign scope name value) tree =
      .error (.fault (.undefinedVariable name.lexeme) name) tree := by
  simp only [respond, h]

end Names

end Scriptlet.ScopeTree
