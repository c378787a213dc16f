import Mathlib.Data.List.Nodup
import Scriptlet.Proofs.Scope.Assignment

/-!
# Scopes of a tree as scopes

A program runs in one scope, which has its enclosing scopes inside it. The scopes of a tree share
theirs. Seen from one of them, the way outwards is a scope of the first kind, its *chain*, and what is
asked of a scope of a tree is answered as by its chain (`ScopeTree.respond_chain`): names have the same
values, the same ones are visible, a definition and an assignment turn the chain into what they turn
the scope into, and a new scope is one that is entered.
-/

namespace Scriptlet

/-- The scope with these frames, innermost first. -/
def Scope.ofFrames : List Frame → Scope
  | [] => .empty
  | [own] => .global own
  | own :: outer :: rest => .inner own (ofFrames (outer :: rest))

namespace Scope

/-- A frame within others is a frame within their scope. -/
theorem ofFrames_cons (own : Frame) {outer : List Frame} (h : outer ≠ []) :
    ofFrames (own :: outer) = .inner own (ofFrames outer) := by
  obtain ⟨first, rest, rfl⟩ := List.exists_cons_of_ne_nil h
  rfl

theorem find?_ofFrames (frames : List Frame) (x : String) :
    (ofFrames frames).find? x = frames.findSome? (·.find? x) := by
  fun_induction ofFrames frames with
  | case1 => rfl
  | case2 own =>
    rw [find?, List.findSome?_cons, List.findSome?_nil]
    cases own.find? x <;> rfl
  | case3 own outer rest ih =>
    rw [find?, ih]
    generalize outer :: rest = frames
    rw [List.findSome?_cons]
    cases own.find? x <;> rfl

/-- The bindings are put together from the outside inwards, over an empty frame. -/
theorem bindings_ofFrames (frames : List Frame) :
    (ofFrames frames).bindings =
      frames.foldr (fun inner outer => Frame.overlay outer inner) {} := by
  fun_induction ofFrames frames with
  | case1 => rfl
  | case2 own => rfl
  | case3 own outer rest ih =>
    rw [bindings, ih]
    rfl

theorem depth_ofFrames {frames : List Frame} (h : frames ≠ []) :
    (ofFrames frames).depth = frames.length := by
  fun_induction ofFrames frames with
  | case1 => exact absurd rfl h
  | case2 own => rfl
  | case3 own outer rest ih =>
    rw [depth, ih (List.cons_ne_nil _ _)]
    rfl

theorem define_ofFrames (own : Frame) (outer : List Frame) (x : String) (value : Value) :
    (ofFrames (own :: outer)).define x value = ofFrames (own.set x value :: outer) := by
  cases outer <;> rfl

/-- An assignment passes the frames that do not bind the name. -/
theorem assign?_ofFrames {inside : List Frame} {x : String} (hinside : ∀ f ∈ inside, f.find? x = none)
    {own : Frame} (hown : (own.find? x).isSome) (outside : List Frame) (value : Value) :
    (ofFrames (inside ++ own :: outside)).assign? x value =
      some (ofFrames (inside ++ own.set x value :: outside)) := by
  induction inside with
  | nil =>
    cases outside with
    | nil => exact if_pos hown
    | cons first rest => exact if_pos hown
  | cons f inside ih =>
    obtain ⟨hf, hinside⟩ := List.forall_mem_cons.1 hinside
    rw [List.cons_append, List.cons_append, ofFrames_cons f (by simp), ofFrames_cons f (by simp),
      assign?, hf, ih hinside]
    rfl

/-- Without a frame to assign in, the search goes outwards in vain. -/
theorem assign?_ofFrames_of_unbound {frames : List Frame} {x : String}
    (h : ∀ f ∈ frames, f.find? x = none) (value : Value) :
    (ofFrames frames).assign? x value = none := by
  fun_induction ofFrames frames with
  | case1 => rfl
  | case2 own =>
    rw [assign?, h own (List.mem_singleton_self own)]
    rfl
  | case3 own outer rest ih =>
    obtain ⟨hown, houter⟩ := List.forall_mem_cons.1 h
    rw [assign?, hown, ih houter]
    rfl

end Scope

namespace ScopeTree

/-- A scope of a tree with all that encloses it. -/
def chain (tree : ScopeTree) (scope : Nat) : Scope := .ofFrames (tree.frames scope)

variable {tree : ScopeTree} {scope : Nat}

/-! ## Ways outwards lead to smaller numbers -/

theorem path_eq_nil (h : tree.nodes.length ≤ scope) : tree.path scope = [] := by
  rw [path, List.getElem?_eq_none h]

/-- A scope is the first on its own way outwards, and smaller numbers follow, none of them twice. -/
theorem exists_path_eq_cons (h : scope < tree.nodes.length) :
    ∃ outside, tree.path scope = scope :: outside ∧ (∀ k ∈ outside, k < scope) ∧ outside.Nodup := by
  induction scope using Nat.strongRecOn with
  | ind scope ih =>
    have houtermost : (∀ k ∈ ([] : List Nat), k < scope) ∧ ([] : List Nat).Nodup :=
      ⟨List.forall_mem_nil _, List.nodup_nil⟩
    rw [path, List.getElem?_eq_getElem h]
    dsimp only
    cases tree.nodes[scope].outer with
    | none => exact ⟨[], rfl, houtermost⟩
    | some outer =>
      dsimp only
      by_cases hlt : outer < scope
      · obtain ⟨outside, hpath, hless, hnodup⟩ := ih outer hlt (Nat.lt_trans hlt h)
        refine ⟨outer :: outside, by rw [if_pos hlt, hpath], ?_, ?_⟩
        · intro k hk
          rcases List.mem_cons.1 hk with rfl | hk
          · exact hlt
          · exact Nat.lt_trans (hless k hk) hlt
        · exact List.nodup_cons.2 ⟨fun hmem => Nat.lt_irrefl _ (hless outer hmem), hnodup⟩
      · exact ⟨[], if_neg hlt, houtermost⟩

/-- Numbers decrease on the way outwards, so it meets no scope twice. -/
theorem nodup_path (tree : ScopeTree) (scope : Nat) : (tree.path scope).Nodup := by
  by_cases h : scope < tree.nodes.length
  · obtain ⟨outside, hpath, hless, hnodup⟩ := exists_path_eq_cons h
    rw [hpath]
    exact List.nodup_cons.2 ⟨fun hmem => Nat.lt_irrefl _ (hless scope hmem), hnodup⟩
  · rw [path_eq_nil (Nat.not_lt.1 h)]
    exact List.nodup_nil

/-- A new scope is on the way outwards from no other. -/
theorem path_push {k : Nat} (outer : Nat) (h : k < tree.nodes.length) :
    (tree.push outer).path k = tree.path k := by
  induction k using Nat.strongRecOn with
  | ind k ih =>
    have hnode : (tree.push outer).nodes[k]? = tree.nodes[k]? := List.getElem?_append_left h
    rw [path, hnode, path.eq_def tree]
    cases tree.nodes[k]? with
    | none => rfl
    | some node =>
      dsimp only
      cases node.outer with
      | none => rfl
      | some enclosing =>
        dsimp only
        split
        · next hlt => rw [ih enclosing hlt (Nat.lt_trans hlt h)]
        · rfl

/-! ## Chains -/

theorem find?_chain (tree : ScopeTree) (scope : Nat) (x : String) :
    (tree.chain scope).find? x = tree.find? scope x := Scope.find?_ofFrames ..

theorem bindings_chain (tree : ScopeTree) (scope : Nat) :
    (tree.chain scope).bindings = tree.bindings scope := Scope.bindings_ofFrames _

theorem frames_ne_nil (h : scope < tree.nodes.length) : tree.frames scope ≠ [] := by
  obtain ⟨outside, hpath, -⟩ := exists_path_eq_cons h
  rw [frames, hpath]
  exact List.cons_ne_nil _ _

/-- A scope that there is has at least its own frame. One that there is not has no frame at all,
while a chain always has one. -/
theorem depth_chain (h : scope < tree.nodes.length) :
    (tree.chain scope).depth = tree.depth scope := by
  rw [chain, Scope.depth_ofFrames (frames_ne_nil h), frames, List.length_map]
  rfl

/-- A definition is seen in the frame of its own scope only. -/
theorem map_own_define (h : scope < tree.nodes.length) (x : String) (value : Value)
    {numbers : List Nat} (hnot : scope ∉ numbers) :
    numbers.map (tree.define scope x value).own = numbers.map tree.own := by
  apply List.map_congr_left
  intro k hk
  have hne : scope ≠ k := (ne_of_mem_of_not_mem hk hnot).symm
  rw [own_define h, if_neg hne]

/-- A definition does the same to a scope and to its chain. -/
theorem chain_define (h : scope < tree.nodes.length) (x : String) (value : Value) :
    (tree.define scope x value).chain scope = (tree.chain scope).define x value := by
  obtain ⟨outside, hpath, hless, -⟩ := exists_path_eq_cons h
  have hnot : scope ∉ outside := fun hmem => Nat.lt_irrefl _ (hless scope hmem)
  unfold chain frames
  rw [path_congr (outers_define ..), hpath, List.map_cons, List.map_cons,
    map_own_define h x value hnot, Scope.define_ofFrames, own_define h, if_pos rfl]

/-- An assignment does the same to a scope and to its chain. -/
theorem chain_assign? (tree : ScopeTree) (scope : Nat) (x : String) (value : Value) :
    (tree.assign? scope x value).map (·.chain scope) = (tree.chain scope).assign? x value := by
  cases howner : tree.owner? scope x with
  | none =>
    have hunbound : ∀ f ∈ tree.frames scope, f.find? x = none := by
      intro f hf
      obtain ⟨k, hk, rfl⟩ := List.mem_map.1 hf
      simpa using List.find?_eq_none.1 howner k hk
    rw [assign?, howner, chain, Scope.assign?_ofFrames_of_unbound hunbound]
    rfl
  | some owner =>
    obtain ⟨inside, outside, hpath, hinside, hbound⟩ := owner?_eq_some_iff.1 howner
    -- The owner is met once on the way outwards, so no other frame of the chain is rewritten.
    have hnodup := tree.nodup_path scope
    rw [hpath, List.nodup_middle, List.nodup_cons, List.mem_append, not_or] at hnodup
    obtain ⟨⟨hnotInside, hnotOutside⟩, -⟩ := hnodup
    have hlength := lt_length_of_isSome (Frame.isSome_find?_iff.2 hbound)
    have hkept {numbers : List Nat} (hnot : owner ∉ numbers) := map_own_define hlength x value hnot
    have hunbound : ∀ f ∈ inside.map tree.own, f.find? x = none := by
      intro f hf
      obtain ⟨k, hk, rfl⟩ := List.mem_map.1 hf
      rw [← Option.not_isSome_iff_eq_none, Frame.isSome_find?_iff]
      exact hinside k hk
    have hchain : tree.chain scope =
        .ofFrames (inside.map tree.own ++ tree.own owner :: outside.map tree.own) := by
      rw [chain, frames, hpath, List.map_append, List.map_cons]
    rw [hchain, Scope.assign?_ofFrames hunbound (Frame.isSome_find?_iff.2 hbound), assign?, howner,
      Option.map_some, Option.map_some, chain, frames, path_congr (outers_define ..), hpath,
      List.map_append, List.map_cons, hkept hnotInside, hkept hnotOutside, own_define hlength,
      if_pos rfl]

/-- The chain of a new scope is the one that it is made in, entered. -/
theorem chain_push (h : scope < tree.nodes.length) :
    (tree.push scope).chain tree.nodes.length = (tree.chain scope).enter := by
  have hnode : (tree.push scope).nodes[tree.nodes.length]?.map Node.outer = some (some scope) := by
    simp [push]
  have hempty : (tree.push scope).own tree.nodes.length = {} := by
    simp [push, own]
  have hframes : (tree.push scope).frames tree.nodes.length = {} :: tree.frames scope := by
    rw [frames, path_of_outer hnode h, path_push scope h, List.map_cons, hempty,
      List.map_congr_left fun k _ => own_push tree scope k]
    rfl
  rw [chain, hframes, Scope.ofFrames_cons _ (frames_ne_nil h)]
  rfl

/-- What is asked of a scope of a tree is answered as by its chain, and what changes the scope changes
its chain in the same way. A program that has a level for every frame reads and assigns a name as the
requests do. -/
theorem respond_chain (h : scope < tree.nodes.length) :
    let chain := tree.chain scope
    (∀ name : Token, Ending.outcome (respond (.get scope name) tree) =
      (Ending.outcome (Evaluation.read chain.depth name chain)).map .value) ∧
    Ending.outcome (respond (.bindings scope) tree) = .ok (.bindings chain.bindings) ∧
    Ending.outcome (respond (.depth scope) tree) = .ok (.depth chain.depth) ∧
    (∀ (x : String) (value : Value),
      (Ending.state (respond (.define scope x value) tree)).chain scope = chain.define x value) ∧
    (∀ (name : Token) (value : Value),
      let after := respond (.assign scope name value) tree
      let ran := Evaluation.assign chain.depth name value chain
      Ending.outcome after = (Ending.outcome ran).map (fun _ => .done) ∧
        (Ending.state after).chain scope = Ending.state ran) ∧
    (Ending.state (respond (.push scope) tree)).chain tree.nodes.length = chain.enter := by
  intro chain
  have hreach (name : Token) : chain.reach name.lexeme ≤ chain.depth :=
    chain.reach_le_depth name.lexeme
  refine ⟨fun name => ?_, ?_, ?_, chain_define h, fun name value => ?_, chain_push h⟩
  · have hchain : chain.find? name.lexeme = tree.find? scope name.lexeme := find?_chain ..
    cases hfind : tree.find? scope name.lexeme with
    | none =>
      rw [respond_get_of_none hfind]
      simp only [Evaluation.read, hreach, if_true, hchain, hfind]
      rfl
    | some value =>
      rw [respond_get_of_some hfind]
      simp only [Evaluation.read, hreach, if_true, hchain, hfind]
      rfl
  · exact congrArg (Except.ok ∘ Answer.bindings) (bindings_chain tree scope).symm
  · exact congrArg (Except.ok ∘ Answer.depth) (depth_chain h).symm
  · have hchain : (tree.assign? scope name.lexeme value).map (·.chain scope) =
        chain.assign? name.lexeme value := chain_assign? ..
    cases hassign : tree.assign? scope name.lexeme value with
    | none =>
      rw [hassign] at hchain
      rw [respond_assign_of_none hassign]
      simp only [Evaluation.assign, hreach, if_true, ← hchain]
      exact ⟨rfl, rfl⟩
    | some changed =>
      rw [hassign] at hchain
      rw [respond_assign_of_some hassign]
      simp only [Evaluation.assign, hreach, if_true, ← hchain]
      exact ⟨rfl, rfl⟩

end ScopeTree

end Scriptlet
