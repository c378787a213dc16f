import Mathlib.Tactic.ByContra
import Scriptlet.Proofs.Execution.Effect
import Scriptlet.Scope.Request

/-!
# What is visible in a scope

A name is looked up from the inside outwards and the first frame that binds it wins. The bindings of
a scope are merged from the outside inwards and the last frame that binds a name wins. Both come to
the same (`ScopeTree.find?_bindings`), provided that no frame binds a name twice; and no frame of a
tree that requests have built does, because a name that is bound again keeps its place. The places
of the names follow from this: a frame has its names in the order in which they were first defined
in it, and the bindings have those of the outermost frame first. Which frames these are follows from
the requests too: a scope keeps the scope that it was made in.
-/

namespace Scriptlet

theorem nodup_eraseDups : (l : List String) → l.eraseDups.Nodup
  | [] => List.nodup_nil
  | x :: l => by
    rw [List.eraseDups_cons, List.nodup_cons]
    refine ⟨fun hmem => ?_, nodup_eraseDups _⟩
    simpa using (List.mem_filter.1 (List.mem_eraseDups.1 hmem)).2
termination_by l => l.length
decreasing_by
  rw [List.length_cons]
  exact Nat.lt_succ_of_le (List.length_filter_le ..)

/-! ## Frames -/

namespace Frame

variable {f : Frame} {l : List String}

/-- A name that is set comes after those that were there, unless it is one of them. -/
theorem names_set (h : f.names = l.eraseDups) (x : String) (value : Value) :
    (f.set x value).names = (l ++ [x]).eraseDups := by
  have hmem : x ∈ f.names ↔ x ∈ l := by rw [h, List.mem_eraseDups]
  rw [List.eraseDups_append]
  by_cases hx : x ∈ l
  · have hnone : [x].removeAll l = [] := by simp [List.removeAll, hx]
    rw [names_set_of_isSome value (isSome_find?_iff.2 (hmem.2 hx)), h, hnone, List.eraseDups_nil,
      List.append_nil]
  · have hsome : [x].removeAll l = [x] := by simp [List.removeAll, hx]
    have hunbound : f.find? x = none :=
      Option.not_isSome_iff_eq_none.1 fun hbound => hx (hmem.1 (isSome_find?_iff.1 hbound))
    rw [names_set_of_eq_none value hunbound, h, hsome]
    rfl

/-- The names of the outer frame come first, and a name of both keeps its outer place. -/
theorem names_overlay (h : f.names = l.eraseDups) (inner : Frame) :
    (f.overlay inner).names = (l ++ inner.names).eraseDups := by
  obtain ⟨entries⟩ := inner
  unfold overlay names
  dsimp only
  induction entries generalizing f l with
  | nil => rw [List.foldl_nil, List.map_nil, List.append_nil]; exact h
  | cons entry rest ih =>
    rw [List.foldl_cons, ih (names_set h entry.1 entry.2), List.map_cons, List.append_assoc]
    rfl

/-- Where the inner frame binds no name twice, its values win. -/
theorem find?_overlay {inner : Frame} (h : inner.names.Nodup) (x : String) :
    (f.overlay inner).find? x = (inner.find? x <|> f.find? x) := by
  obtain ⟨entries⟩ := inner
  unfold names at h
  dsimp only at h
  unfold overlay
  dsimp only
  induction entries generalizing f with
  | nil => rfl
  | cons entry rest ih =>
    obtain ⟨y, value⟩ := entry
    obtain ⟨hnew, hrest⟩ := List.nodup_cons.1 h
    have hcons : Frame.find? ⟨(y, value) :: rest⟩ x =
        if x = y then some value else Frame.find? ⟨rest⟩ x := by
      unfold find?
      rw [List.lookup_cons]
      by_cases hx : x = y
      · rw [if_pos hx, beq_iff_eq.2 hx]
      · rw [if_neg hx, beq_eq_false_iff_ne.2 hx]
    rw [List.foldl_cons, ih hrest, find?_set, hcons]
    by_cases hx : x = y
    · -- The rest of the frame does not bind this name again.
      subst hx
      have hnone : Frame.find? ⟨rest⟩ x = none :=
        Option.not_isSome_iff_eq_none.1 fun hbound => hnew (isSome_find?_iff.1 hbound)
      rw [if_pos rfl, if_pos rfl, hnone]
      rfl
    · rw [if_neg hx, if_neg hx]

end Frame

namespace ScopeTree

/-! ## Lookup and bindings -/

/-- Frames merged from the outside inwards have the outermost names first. -/
theorem names_merged (frames : List Frame) :
    (frames.foldr (fun inner outer => Frame.overlay outer inner) {}).names =
      (frames.reverse.flatMap Frame.names).eraseDups := by
  induction frames with
  | nil => rfl
  | cons inner frames ih =>
    rw [List.foldr_cons, Frame.names_overlay ih, List.reverse_cons, List.flatMap_append,
      List.flatMap_singleton]

/-- The innermost value of a name is the last one that a merge from the outside gives it. -/
theorem find?_merged {frames : List Frame} (h : ∀ f ∈ frames, f.names.Nodup) (x : String) :
    (frames.foldr (fun inner outer => Frame.overlay outer inner) {}).find? x =
      frames.findSome? (·.find? x) := by
  induction frames with
  | nil => rfl
  | cons inner frames ih =>
    obtain ⟨hinner, hframes⟩ := List.forall_mem_cons.1 h
    rw [List.foldr_cons, Frame.find?_overlay hinner, ih hframes, List.findSome?_cons]
    cases inner.find? x <;> rfl

/-- The names come outermost frame first, each where it is met first on the way in. -/
theorem names_bindings (tree : ScopeTree) (scope : Nat) :
    (tree.bindings scope).names =
      ((tree.path scope).reverse.flatMap fun k => (tree.own k).names).eraseDups := by
  unfold bindings frames
  rw [names_merged, ← List.map_reverse, List.flatMap_map]

/-- The value of a name in the bindings is that of the innermost frame that binds it. -/
theorem find?_bindings {tree : ScopeTree} (h : ∀ k, (tree.own k).names.Nodup) (scope : Nat)
    (x : String) : (tree.bindings scope).find? x = tree.find? scope x := by
  refine find?_merged (fun f hf => ?_) x
  obtain ⟨k, -, rfl⟩ := List.mem_map.1 hf
  exact h k

/-! ## Ways outwards -/

theorem path_of_outermost {tree : ScopeTree} {scope : Nat}
    (h : tree.nodes[scope]?.map Node.outer = some none) : tree.path scope = [scope] := by
  obtain ⟨node, hnode, houter⟩ := Option.map_eq_some_iff.1 h
  rw [path, hnode]
  dsimp only
  rw [houter]

theorem path_of_outer {tree : ScopeTree} {scope outer : Nat}
    (h : tree.nodes[scope]?.map Node.outer = some (some outer)) (hlt : outer < scope) :
    tree.path scope = scope :: tree.path outer := by
  obtain ⟨node, hnode, houter⟩ := Option.map_eq_some_iff.1 h
  rw [path, hnode]
  dsimp only
  rw [houter]
  exact if_pos hlt

theorem outers_define (tree : ScopeTree) (scope : Nat) (x : String) (value : Value) :
    (tree.define scope x value).nodes.map Node.outer = tree.nodes.map Node.outer := by
  refine List.ext_getElem? fun k => ?_
  unfold define
  dsimp only
  rw [List.getElem?_map, List.getElem?_map, List.getElem?_modify]
  cases tree.nodes[k]? with
  | none => rfl
  | some node =>
    by_cases hk : scope = k
    · simp [hk]
    · simp [hk]

/-! ## Trees that requests build -/

/-- A tree that a new tree becomes by requests to scopes that there are. A request that is refused
belongs to the history too. -/
inductive Reached : List Request → ScopeTree → Prop
  | new : Reached [] {}
  | request {history : List Request} {tree : ScopeTree} {r : Request} :
      Reached history tree → r.scope < tree.nodes.length →
      Reached (history ++ [r]) (Ending.state (respond r tree))

def Request.definition? (scope : Nat) : Request → Option String
  | define k name _ => if k = scope then some name else none
  | push _ | assign _ _ _ | get _ _ | bindings _ | depth _ => none

/-- The names that a history defines in a scope, each as often as it does. -/
def definitions (scope : Nat) (history : List Request) : List String :=
  history.filterMap (Request.definition? scope)

/-- The scope in which a request makes a new one. -/
def Request.enclosing? : Request → Option Nat
  | push k => some k
  | define _ _ _ | assign _ _ _ | get _ _ | bindings _ | depth _ => none

/-- The scopes around those that a history makes, in the order in which it makes them. -/
def enclosing (history : List Request) : List Nat := history.filterMap Request.enclosing?

theorem own_push (tree : ScopeTree) (scope k : Nat) : (tree.push scope).own k = tree.own k := by
  unfold push own
  dsimp only
  rw [List.getElem?_append]
  split
  · rfl
  · next hk =>
    rw [List.getElem?_eq_none (Nat.not_lt.1 hk), List.getElem?_singleton]
    split <;> rfl

/-- A definition changes one frame. The frames of all other scopes stay, those within it
included. -/
theorem own_define {tree : ScopeTree} {scope : Nat} (h : scope < tree.nodes.length) (x : String)
    (value : Value) (k : Nat) :
    (tree.define scope x value).own k =
      if scope = k then (tree.own k).set x value else tree.own k := by
  unfold define own
  dsimp only
  rw [List.getElem?_modify]
  by_cases hk : scope = k
  · subst hk
    rw [List.getElem?_eq_getElem h]
    simp
  · simp only [hk, if_false]
    cases tree.nodes[k]? <;> rfl

/-- A scope that binds a name is one of the tree. -/
theorem lt_length_of_isSome {tree : ScopeTree} {k : Nat} {x : String}
    (h : ((tree.own k).find? x).isSome) : k < tree.nodes.length := by
  by_contra hk
  unfold own at h
  rw [List.getElem?_eq_none (Nat.not_lt.1 hk)] at h
  cases h

theorem isSome_of_owner? {tree : ScopeTree} {scope owner : Nat} {x : String}
    (h : tree.owner? scope x = some owner) : ((tree.own owner).find? x).isSome = true := by
  unfold owner? at h
  exact (List.find?_eq_some_iff_append.1 h).1

/-- An assignment binds no new name, in any scope. -/
theorem names_own_assign? {tree changed : ScopeTree} {scope : Nat} {x : String} {value : Value}
    (h : tree.assign? scope x value = some changed) (k : Nat) :
    (changed.own k).names = (tree.own k).names := by
  unfold assign? at h
  obtain ⟨owner, howner, rfl⟩ := Option.map_eq_some_iff.1 h
  have hbound := isSome_of_owner? howner
  rw [own_define (lt_length_of_isSome hbound)]
  split
  · next hk =>
    subst hk
    exact Frame.names_set_of_isSome value hbound
  · rfl

section Outcome

variable {tree : ScopeTree} {scope : Nat} {name : Token}

/-- A read fails only where no scope outwards binds the name. -/
theorem outcome_get_eq_ok_iff :
    (∃ answer, Ending.outcome (respond (.get scope name) tree) = .ok answer) ↔
      (tree.find? scope name.lexeme).isSome := by
  cases hfind : tree.find? scope name.lexeme with
  | none => rw [respond_get_of_none hfind]; simp [Ending.outcome]
  | some value => rw [respond_get_of_some hfind]; simp [Ending.outcome]

theorem outcome_get_eq_value_iff {value : Value} :
    Ending.outcome (respond (.get scope name) tree) = .ok (.value value) ↔
      tree.find? scope name.lexeme = some value := by
  cases hfind : tree.find? scope name.lexeme with
  | none => rw [respond_get_of_none hfind]; simp [Ending.outcome]
  | some found => rw [respond_get_of_some hfind]; simp [Ending.outcome]

theorem outcome_get_congr {other : ScopeTree}
    (h : other.find? scope name.lexeme = tree.find? scope name.lexeme) :
    Ending.outcome (respond (.get scope name) other) =
      Ending.outcome (respond (.get scope name) tree) := by
  cases hfind : tree.find? scope name.lexeme with
  | none => rw [respond_get_of_none hfind, respond_get_of_none (h.trans hfind)]; rfl
  | some value => rw [respond_get_of_some hfind, respond_get_of_some (h.trans hfind)]; rfl

end Outcome

theorem state_respond_of_isQuery {r : Request} (h : r.isQuery = true) (tree : ScopeTree) :
    Ending.state (respond r tree) = tree := by
  cases r with
  | get scope name =>
    cases hfind : tree.find? scope name.lexeme with
    | none => rw [respond_get_of_none hfind]; rfl
    | some value => rw [respond_get_of_some hfind]; rfl
  | bindings scope => rfl
  | depth scope => rfl
  | push scope => cases h
  | define scope x value => cases h
  | assign scope name value => cases h

/-- What one request does to the names of the frames. -/
theorem names_own_respond {tree : ScopeTree} {history : List Request}
    (h : ∀ k, (tree.own k).names = (definitions k history).eraseDups) {r : Request}
    (hr : r.scope < tree.nodes.length) (k : Nat) :
    ((Ending.state (respond r tree)).own k).names =
      (definitions k (history ++ [r])).eraseDups := by
  have happend : definitions k (history ++ [r]) =
      definitions k history ++ definitions k [r] := List.filterMap_append
  -- Only a definition has anything to add.
  have hkept (hnone : definitions k [r] = [])
      (hnames : ((Ending.state (respond r tree)).own k).names = (tree.own k).names) :
      ((Ending.state (respond r tree)).own k).names =
        (definitions k (history ++ [r])).eraseDups := by
    rw [happend, hnone, List.append_nil, hnames, h]
  cases r with
  | push scope => exact hkept rfl (congrArg Frame.names (own_push tree scope k))
  | define scope x value =>
    have hown : (Ending.state (respond (.define scope x value) tree)).own k =
        if scope = k then (tree.own k).set x value else tree.own k := own_define hr x value k
    by_cases hk : scope = k
    · have hone : definitions k [.define scope x value] = [x] := by
        simp [definitions, Request.definition?, hk]
      rw [hown, if_pos hk, happend, hone, Frame.names_set (h k)]
    · exact hkept (by simp [definitions, Request.definition?, hk]) (by rw [hown, if_neg hk])
  | assign scope name value =>
    refine hkept rfl ?_
    cases hassign : tree.assign? scope name.lexeme value with
    | none => rw [respond_assign_of_none hassign]; rfl
    | some changed => rw [respond_assign_of_some hassign]; exact names_own_assign? hassign k
  | get scope name => exact hkept rfl (by rw [state_respond_of_isQuery rfl])
  | bindings scope => exact hkept rfl rfl
  | depth scope => exact hkept rfl rfl

/-- What one request does to the scopes around scopes. -/
theorem outers_respond (tree : ScopeTree) (r : Request) :
    (Ending.state (respond r tree)).nodes.map Node.outer =
      tree.nodes.map Node.outer ++ (enclosing [r]).map some := by
  have hkept {changed : ScopeTree} (hnone : enclosing [r] = [])
      (houters : changed.nodes.map Node.outer = tree.nodes.map Node.outer) :
      changed.nodes.map Node.outer = tree.nodes.map Node.outer ++ (enclosing [r]).map some := by
    rw [houters, hnone, List.map_nil, List.append_nil]
  cases r with
  | push scope => exact List.map_append
  | define scope x value => exact hkept rfl (outers_define ..)
  | assign scope name value =>
    refine hkept rfl ?_
    cases hassign : tree.assign? scope name.lexeme value with
    | none => rw [respond_assign_of_none hassign]; rfl
    | some changed =>
      rw [respond_assign_of_some hassign]
      unfold assign? at hassign
      obtain ⟨owner, -, rfl⟩ := Option.map_eq_some_iff.1 hassign
      exact outers_define ..
  | get scope name => exact hkept rfl (by rw [state_respond_of_isQuery rfl])
  | bindings scope => exact hkept rfl rfl
  | depth scope => exact hkept rfl rfl

theorem enclosing_append (history : List Request) (r : Request) :
    enclosing (history ++ [r]) = enclosing history ++ enclosing [r] := List.filterMap_append

namespace Reached

variable {history : List Request} {tree : ScopeTree}

/-- A frame has the names that were defined in it, each where it came first. -/
theorem names_own (h : Reached history tree) (k : Nat) :
    (tree.own k).names = (definitions k history).eraseDups := by
  induction h generalizing k with
  | new =>
    cases k <;> rfl
  | request _ hr ih => exact names_own_respond ih hr k

/-- Around the scopes of a tree are those that they were made in. -/
theorem outers (h : Reached history tree) :
    tree.nodes.map Node.outer = none :: (enclosing history).map some := by
  induction h with
  | new => rfl
  | request _ _ ih => rw [outers_respond, ih, enclosing_append, List.map_append]; rfl

/-- A scope is made in one that was there before it. -/
theorem enclosing_le (h : Reached history tree) {k outer : Nat}
    (houter : (enclosing history)[k]? = some outer) : outer ≤ k := by
  induction h with
  | new => cases houter
  | @request history tree r hbefore hr ih =>
    rw [enclosing_append, List.getElem?_append] at houter
    split at houter
    · exact ih houter
    · next hk =>
      have hlength : tree.nodes.length = (enclosing history).length + 1 := by
        simpa using congrArg List.length hbefore.outers
      cases r with
      | push scope =>
        have hmem : outer ∈ [scope] := List.mem_of_getElem? houter
        obtain rfl := List.mem_singleton.1 hmem
        have houter : outer < tree.nodes.length := hr
        omega
      | _ => cases houter

theorem path_zero (h : Reached history tree) : tree.path 0 = [0] := by
  refine path_of_outermost ?_
  rw [← List.getElem?_map, h.outers]
  rfl

/-- A scope keeps the way outwards that it had when it was made, whatever was requested since. -/
theorem path_succ (h : Reached history tree) {k outer : Nat}
    (houter : (enclosing history)[k]? = some outer) :
    tree.path (k + 1) = (k + 1) :: tree.path outer := by
  refine path_of_outer ?_ (Nat.lt_succ_of_le (h.enclosing_le houter))
  rw [← List.getElem?_map, h.outers, List.getElem?_cons_succ, List.getElem?_map, houter]
  rfl

/-- Looking changes nothing, so a history may do without it. -/
theorem filter (h : Reached history tree) : Reached (history.filter fun r => !r.isQuery) tree := by
  induction h with
  | new => exact .new
  | @request history tree r _ hr ih =>
    rw [List.filter_append]
    cases hquery : r.isQuery with
    | true =>
      have hnone : [r].filter (fun r => !r.isQuery) = [] := by simp [hquery]
      rw [state_respond_of_isQuery hquery, hnone, List.append_nil]
      exact ih
    | false =>
      have hone : [r].filter (fun r => !r.isQuery) = [r] := by simp [hquery]
      rw [hone]
      exact .request ih hr

end Reached

/-- In a tree that requests have built, reading a name succeeds where the name is among the
bindings, and gives the value that they give it. The bindings have every visible name once: those of
the outermost frame first, and those of a frame in the order of their first definitions in it. The
way outwards from a scope leads through the scopes that it was made in. Looking at a scope changes
none. -/
theorem respond_lookup_agrees {history : List Request} {tree : ScopeTree}
    (h : Reached history tree) (scope : Nat) :
    ∃ visible : Frame,
      Ending.outcome (respond (.bindings scope) tree) = .ok (.bindings visible) ∧
      (∀ name : Token, (∃ answer, Ending.outcome (respond (.get scope name) tree) = .ok answer) ↔
        name.lexeme ∈ visible.names) ∧
      (∀ (name : Token) (value : Value),
        Ending.outcome (respond (.get scope name) tree) = .ok (.value value) ↔
          visible.find? name.lexeme = some value) ∧
      visible.names.Nodup ∧
      visible.names = ((tree.path scope).reverse.flatMap fun k => (tree.own k).names).eraseDups ∧
      tree.path 0 = [0] ∧
      (∀ k outer : Nat, (enclosing history)[k]? = some outer →
        tree.path (k + 1) = (k + 1) :: tree.path outer) ∧
      (∀ k, (tree.own k).names = (definitions k history).eraseDups) ∧
      (∀ r : Request, r.isQuery → Ending.state (respond r tree) = tree) ∧
      Reached (history.filter fun r => !r.isQuery) tree := by
  have hnames := h.names_own
  have hnodup : ∀ k, (tree.own k).names.Nodup := fun k => by
    rw [hnames]
    exact nodup_eraseDups _
  have hfind := find?_bindings hnodup scope
  refine ⟨tree.bindings scope, rfl, fun name => ?_, fun name value => ?_, ?_,
    names_bindings tree scope, h.path_zero, fun k outer => h.path_succ, hnames,
    fun r hr => state_respond_of_isQuery hr tree, h.filter⟩
  · rw [outcome_get_eq_ok_iff, ← hfind, Frame.isSome_find?_iff]
  · rw [outcome_get_eq_value_iff, hfind]
  · rw [names_bindings]
    exact nodup_eraseDups _

/-- The inner scope rebinds `b`, which keeps the place that the outer one gave it; the scope beside
it is not seen, and the assignment to a name that is unbound is refused. -/
theorem respond_lookup_agrees_shadowing :
    let c : Token := ⟨.identifier, "c", none, 1⟩
    let b : Token := ⟨.identifier, "b", none, 1⟩
    let yes : Value := some (.boolean true)
    let history : List Request :=
      [.define 0 "b" yes, .define 0 "a" none, .push 0, .assign 1 c yes, .push 0, .define 2 "d" yes,
        .define 1 "c" yes, .define 1 "b" none, .get 1 b, .define 0 "b" yes]
    ∃ tree, Reached history tree ∧
      ∃ visible : Frame, Ending.outcome (respond (.bindings 1) tree) = .ok (.bindings visible) ∧
        visible.names = ["b", "a", "c"] ∧
        Ending.outcome (respond (.get 1 b) tree) = .ok (.value none) ∧
        visible.find? "b" = some none := by
  intro c b yes history
  have hreached : Reached history _ :=
    Reached.new.request (r := .define 0 "b" yes) (by decide)
      |>.request (r := .define 0 "a" none) (by decide)
      |>.request (r := .push 0) (by decide)
      |>.request (r := .assign 1 c yes) (by decide)
      |>.request (r := .push 0) (by decide +kernel)
      |>.request (r := .define 2 "d" yes) (by decide +kernel)
      |>.request (r := .define 1 "c" yes) (by decide +kernel)
      |>.request (r := .define 1 "b" none) (by decide +kernel)
      |>.request (r := .get 1 b) (by decide +kernel)
      |>.request (r := .define 0 "b" yes) (by decide +kernel)
  obtain ⟨visible, hvisible, -, hget, -, hnames, -⟩ := respond_lookup_agrees hreached 1
  refine ⟨_, hreached, visible, hvisible, ?_, ?_, (hget b none).1 ?_⟩
  · rw [hnames]
    decide +kernel
  · exact outcome_get_eq_value_iff.2 (by decide +kernel)
  · exact outcome_get_eq_value_iff.2 (by decide +kernel)

end ScopeTree

end Scriptlet
