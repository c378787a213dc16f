import Scriptlet.Proofs.Scope.Visibility

/-!
# What an assignment changes

Scopes share the scopes around them, so a value that is assigned through one scope may be seen from
others. A name *resolves* to the first scope outwards that binds it. An assignment rewrites the name
there and nowhere else, so it is seen from exactly the scopes from which the name resolves to the
same one. All this holds of every tree.
-/

namespace Scriptlet.ScopeTree

/-- Seen from a scope, a name belongs to the first scope outwards that binds it. -/
def Resolves (tree : ScopeTree) (scope : Nat) (x : String) (owner : Nat) : Prop :=
  ∃ inside outside, tree.path scope = inside ++ owner :: outside ∧
    (∀ k ∈ inside, x ∉ (tree.own k).names) ∧ x ∈ (tree.own owner).names

variable {tree : ScopeTree} {scope owner : Nat} {x : String}

/-- The search outwards finds the scope that a name resolves to, and there is one at most. -/
theorem owner?_eq_some_iff : tree.owner? scope x = some owner ↔ tree.Resolves scope x owner := by
  unfold owner? Resolves
  rw [List.find?_eq_some_iff_append, Frame.isSome_find?_iff]
  simp only [Bool.not_eq_true', ← Bool.not_eq_true, Frame.isSome_find?_iff]
  constructor
  · rintro ⟨hbound, inside, outside, hpath, hinside⟩
    exact ⟨inside, outside, hpath, hinside, hbound⟩
  · rintro ⟨inside, outside, hpath, hinside, hbound⟩
    exact ⟨hbound, inside, outside, hpath, hinside⟩

/-- The value of a name is the one that its owner gives it. -/
theorem find?_eq_bind_owner? (tree : ScopeTree) (scope : Nat) (x : String) :
    tree.find? scope x = (tree.owner? scope x).bind fun owner => (tree.own owner).find? x := by
  unfold find? frames owner?
  induction tree.path scope with
  | nil => rfl
  | cons k path ih =>
    rw [List.map_cons, List.findSome?_cons, List.find?_cons]
    cases hk : (tree.own k).find? x with
    | none => simpa using ih
    | some value => simp [hk]

/-- A name has a value where it resolves to some scope. -/
theorem isSome_find?_iff_resolves :
    (tree.find? scope x).isSome ↔ ∃ owner, tree.Resolves scope x owner := by
  simp only [← owner?_eq_some_iff]
  rw [find?_eq_bind_owner?]
  cases howner : tree.owner? scope x with
  | none => simp
  | some owner => simpa using isSome_of_owner? howner

/-! ## Trees of one shape -/

/-- The way outwards from a scope depends only on which scope encloses which. -/
theorem path_congr {tree other : ScopeTree}
    (h : tree.nodes.map Node.outer = other.nodes.map Node.outer) (scope : Nat) :
    tree.path scope = other.path scope := by
  induction scope using Nat.strongRecOn with
  | ind scope ih =>
    have hscope : tree.nodes[scope]?.map Node.outer = other.nodes[scope]?.map Node.outer := by
      rw [← List.getElem?_map, h, List.getElem?_map]
    rw [path.eq_def tree, path.eq_def other]
    cases hnode : tree.nodes[scope]? with
    | none =>
      rw [hnode] at hscope
      rw [Option.map_eq_none_iff.1 hscope.symm]
    | some node =>
      rw [hnode] at hscope
      obtain ⟨node', hnode', houter⟩ := Option.map_eq_some_iff.1 hscope.symm
      rw [hnode']
      dsimp only
      rw [houter]
      cases node.outer with
      | none => rfl
      | some outer =>
        dsimp only
        split
        · next hlt => rw [ih outer hlt]
        · rfl

/-- Where the ways outwards and the names stay, names belong where they did. -/
theorem owner?_congr {tree other : ScopeTree} (hpath : ∀ k, other.path k = tree.path k)
    (hnames : ∀ k, (other.own k).names = (tree.own k).names) (scope : Nat) (x : String) :
    other.owner? scope x = tree.owner? scope x := by
  have hbound (k : Nat) : ((other.own k).find? x).isSome = ((tree.own k).find? x).isSome := by
    rw [Bool.eq_iff_iff, Frame.isSome_find?_iff, Frame.isSome_find?_iff, hnames]
  unfold owner?
  simp only [hpath, hbound]

/-! ## Assignment -/

section Assign

variable {changed : ScopeTree} {value : Value}

theorem path_assign? (h : tree.assign? scope x value = some changed) (k : Nat) :
    changed.path k = tree.path k := by
  unfold assign? at h
  obtain ⟨owner, -, rfl⟩ := Option.map_eq_some_iff.1 h
  exact path_congr (outers_define ..) k

/-- The cell of the name in its owner is rewritten, and no other cell is. -/
theorem find?_own_assign? (h : tree.assign? scope x value = some changed)
    (howner : tree.owner? scope x = some owner) (k : Nat) (z : String) :
    (changed.own k).find? z =
      if k = owner ∧ z = x then some value else (tree.own k).find? z := by
  unfold assign? at h
  rw [howner] at h
  cases h
  rw [own_define (lt_length_of_isSome (isSome_of_owner? howner))]
  by_cases hk : owner = k
  · subst hk
    simp only [if_true, true_and, Frame.find?_set]
  · rw [if_neg hk, if_neg fun hcell => hk hcell.1.symm]

/-- A name is seen with its new value from where it belongs to the rewritten cell. -/
theorem find?_assign? (h : tree.assign? scope x value = some changed)
    (howner : tree.owner? scope x = some owner) (k : Nat) (z : String) :
    changed.find? k z =
      if z = x ∧ tree.owner? k x = some owner then some value else tree.find? k z := by
  have hsame : changed.owner? k z = tree.owner? k z :=
    owner?_congr (path_assign? h) (names_own_assign? h) k z
  rw [find?_eq_bind_owner?, hsame, find?_eq_bind_owner? tree k z]
  cases hz : tree.owner? k z with
  | none =>
    rw [if_neg]
    · rfl
    · rintro ⟨rfl, hx⟩
      rw [hx] at hz
      cases hz
  | some other =>
    rw [Option.bind_some, Option.bind_some, find?_own_assign? h howner]
    by_cases hzx : z = x
    · subst hzx
      simp [hz]
    · rw [if_neg fun hcell => hzx hcell.2, if_neg fun hcell => hzx hcell.1]

theorem isSome_assign?_iff_resolves (value : Value) :
    (tree.assign? scope x value).isSome ↔ ∃ owner, tree.Resolves scope x owner := by
  simp only [assign?, Option.isSome_map, Option.isSome_iff_exists, owner?_eq_some_iff]

/-! ## Requests -/

variable {name : Token}

/-- An assignment is refused where the name resolves to no scope, and only there. -/
theorem outcome_assign_eq_ok_iff :
    (∃ answer, Ending.outcome (respond (.assign scope name value) tree) = .ok answer) ↔
      ∃ owner, tree.Resolves scope name.lexeme owner := by
  rw [← isSome_assign?_iff_resolves value]
  cases hassign : tree.assign? scope name.lexeme value with
  | none => simp [respond_assign_of_none hassign, Ending.outcome]
  | some changed => simp [respond_assign_of_some hassign, Ending.outcome]

/-- An assignment that is refused leaves the tree as it was. -/
theorem state_respond_assign :
    Ending.state (respond (.assign scope name value) tree) =
      (tree.assign? scope name.lexeme value).getD tree := by
  cases hassign : tree.assign? scope name.lexeme value with
  | none =>
    rw [respond_assign_of_none hassign]
    rfl
  | some changed =>
    rw [respond_assign_of_some hassign]
    rfl

/-- What is read after an assignment: the new value through the rewritten cell, and otherwise what was
read before. -/
theorem outcome_get_assign? (h : tree.assign? scope x value = some changed)
    (hresolves : tree.Resolves scope x owner) (k : Nat) (z : Token) :
    (z.lexeme = x ∧ tree.Resolves k x owner →
        Ending.outcome (respond (.get k z) changed) = .ok (.value value)) ∧
      (¬(z.lexeme = x ∧ tree.Resolves k x owner) →
        Ending.outcome (respond (.get k z) changed) =
          Ending.outcome (respond (.get k z) tree)) := by
  have hfind := find?_assign? h (owner?_eq_some_iff.2 hresolves) k z.lexeme
  rw [← owner?_eq_some_iff]
  constructor
  · intro hcell
    rw [outcome_get_eq_value_iff, hfind, if_pos hcell]
  · intro hcell
    rw [if_neg hcell] at hfind
    exact outcome_get_congr hfind

end Assign

/-- An assignment succeeds where the name can be read, which is where it resolves to some scope. One
that fails changes nothing. One that succeeds rewrites the cell that the name resolves to and no other:
scopes, their enclosing scopes and their names stay, and reading any name from any scope gives the new
value where it resolves to that cell, and what it gave before where it does not. -/
theorem respond_assign_frame (tree : ScopeTree) (scope : Nat) (name : Token) (value : Value) :
    let x := name.lexeme
    let after := respond (.assign scope name value) tree
    let changed := Ending.state after
    ((∃ answer, Ending.outcome after = .ok answer) ↔
      ∃ answer, Ending.outcome (respond (.get scope name) tree) = .ok answer) ∧
    ((∃ answer, Ending.outcome after = .ok answer) ↔ ∃ owner, tree.Resolves scope x owner) ∧
    ((∀ answer, Ending.outcome after ≠ .ok answer) → changed = tree) ∧
    ((∃ answer, Ending.outcome after = .ok answer) →
      ∃ owner, tree.Resolves scope x owner ∧
        changed.nodes.length = tree.nodes.length ∧
        (∀ k, changed.path k = tree.path k) ∧
        (∀ k, (changed.own k).names = (tree.own k).names) ∧
        (∀ k z, (changed.own k).find? z =
          if k = owner ∧ z = x then some value else (tree.own k).find? z) ∧
        ∀ (k : Nat) (z : Token),
          (z.lexeme = x ∧ tree.Resolves k x owner →
            Ending.outcome (respond (.get k z) changed) = .ok (.value value)) ∧
          (¬(z.lexeme = x ∧ tree.Resolves k x owner) →
            Ending.outcome (respond (.get k z) changed) =
              Ending.outcome (respond (.get k z) tree))) := by
  intro x after changed
  have hassigned : (∃ answer, Ending.outcome after = .ok answer) ↔
      ∃ owner, tree.Resolves scope x owner := outcome_assign_eq_ok_iff
  have hread : (∃ answer, Ending.outcome (respond (.get scope name) tree) = .ok answer) ↔
      ∃ owner, tree.Resolves scope x owner :=
    outcome_get_eq_ok_iff.trans isSome_find?_iff_resolves
  have hchanged : changed = (tree.assign? scope x value).getD tree := state_respond_assign
  refine ⟨hassigned.trans hread.symm, hassigned, fun hfails => ?_, fun hok => ?_⟩
  · have hunresolved : ¬∃ owner, tree.Resolves scope x owner := by
      rw [← hassigned]
      rintro ⟨answer, hok⟩
      exact hfails answer hok
    rw [← isSome_assign?_iff_resolves value, Option.not_isSome_iff_eq_none] at hunresolved
    rw [hchanged, hunresolved, Option.getD_none]
  · obtain ⟨owner, hresolves⟩ := hassigned.1 hok
    have howner := owner?_eq_some_iff.2 hresolves
    have hassign : tree.assign? scope x value = some changed := by
      rw [hchanged, assign?, howner]
      rfl
    refine ⟨owner, hresolves, ?_, path_assign? hassign, names_own_assign? hassign,
      find?_own_assign? hassign howner, outcome_get_assign? hassign hresolves⟩
    rw [hchanged, assign?, howner]
    exact List.length_modify ..

/-- Two scopes within the global one, of which the second has an `x` of its own. An assignment from the
first is seen from the global scope and not from the second, and one to `y` is refused. -/
theorem respond_assign_frame_shared :
    let x : Token := ⟨.identifier, "x", none, 1⟩
    let y : Token := ⟨.identifier, "y", none, 1⟩
    let yes : Value := some (.boolean true)
    let tree : ScopeTree := ⟨[⟨⟨[("x", none)]⟩, none⟩, ⟨{}, some 0⟩, ⟨⟨[("x", none)]⟩, some 0⟩]⟩
    let changed := Ending.state (respond (.assign 1 x yes) tree)
    tree.Resolves 1 "x" 0 ∧
      Ending.outcome (respond (.get 0 x) changed) = .ok (.value yes) ∧
      Ending.outcome (respond (.get 2 x) changed) = .ok (.value none) ∧
      Ending.state (respond (.assign 1 y yes) tree) = tree := by
  intro x y yes tree changed
  have hresolves : tree.Resolves 1 "x" 0 := owner?_eq_some_iff.1 (by decide +kernel)
  obtain ⟨-, hiff, -, hframe⟩ := respond_assign_frame tree 1 x yes
  obtain ⟨owner, howner, -, -, -, -, hget⟩ := hframe (hiff.2 ⟨0, hresolves⟩)
  obtain rfl : 0 = owner :=
    Option.some.inj ((owner?_eq_some_iff.2 hresolves).symm.trans (owner?_eq_some_iff.2 howner))
  refine ⟨hresolves, (hget 0 x).1 ⟨rfl, owner?_eq_some_iff.1 (by decide +kernel)⟩, ?_, ?_⟩
  · refine ((hget 2 x).2 ?_).trans (outcome_get_eq_value_iff.2 (by decide +kernel))
    rintro ⟨-, hcell⟩
    exact absurd (owner?_eq_some_iff.2 hcell) (by decide +kernel)
  · obtain ⟨-, hunbound, hkept, -⟩ := respond_assign_frame tree 1 y yes
    apply hkept
    intro answer hok
    obtain ⟨owner, howner⟩ := hunbound.1 ⟨answer, hok⟩
    have hnone : tree.owner? 1 "y" = none := by decide +kernel
    cases hnone.symm.trans (owner?_eq_some_iff.2 howner)

end Scriptlet.ScopeTree
