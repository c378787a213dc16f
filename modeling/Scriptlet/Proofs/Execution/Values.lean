import Scriptlet.Proofs.Execution.Effect
import Scriptlet.Proofs.Grammar.Contents

/-!
# The values that a run leaves behind

A program whose literals are native works on native values only: names give back what they were
given, and operators give native data whatever they work on. So a run leaves native values in every
frame, and every name in a frame once, also when it stops on the way.
-/

namespace Scriptlet

/-! ## Frames and scopes -/

/-- A frame that binds every name once, and to a native value. -/
structure Frame.Tidy (f : Frame) : Prop where
  nodup : f.names.Nodup
  native : ∀ entry ∈ f.entries, Value.Native entry.2

namespace Frame.Tidy

variable {f : Frame}

theorem empty : Frame.Tidy {} := ⟨List.nodup_nil, List.forall_mem_nil _⟩

theorem native_of_find? (h : f.Tidy) {x : String} {value : Value} (hfind : f.find? x = some value) :
    value.Native := by
  obtain ⟨before, after, hentries, -⟩ := List.lookup_eq_some_iff.1 hfind
  exact h.native (x, value) (by rw [hentries]; simp)

/-- The entries after a binding are the new one and entries that were there. -/
theorem mem_setEntry {x : String} {value : Value} {entries : List (String × Value)}
    {entry : String × Value} (h : entry ∈ setEntry x value entries) :
    entry = (x, value) ∨ entry ∈ entries := by
  induction entries with
  | nil => exact .inl (List.mem_singleton.1 h)
  | cons first rest ih =>
    rw [setEntry] at h
    split at h
    · exact (List.mem_cons.1 h).imp id (List.mem_cons_of_mem first)
    · rcases List.mem_cons.1 h with rfl | h
      · exact .inr List.mem_cons_self
      · exact (ih h).imp id (List.mem_cons_of_mem first)

/-- A name that is bound again replaces its entry, so no name is there twice. -/
theorem set (h : f.Tidy) (x : String) {value : Value} (hvalue : value.Native) :
    (f.set x value).Tidy := by
  constructor
  · cases hfind : f.find? x with
    | some old =>
      rw [names_set_of_isSome value (by rw [hfind]; rfl)]
      exact h.nodup
    | none =>
      have hnew : x ∉ f.names := by
        rw [← isSome_find?_iff, hfind]
        decide
      rw [names_set_of_eq_none value hfind]
      refine List.nodup_append.2 ⟨h.nodup, by simp, fun y hy z hz heq => ?_⟩
      rw [heq, List.mem_singleton.1 hz] at hy
      exact hnew hy
  · intro entry hentry
    rcases mem_setEntry hentry with rfl | hentry
    · exact hvalue
    · exact h.native entry hentry

end Frame.Tidy

namespace Scope

def Tidy : Scope → Prop
  | global f => f.Tidy
  | inner f s => f.Tidy ∧ s.Tidy

variable {s t : Scope}

theorem Tidy.native_of_find? (h : s.Tidy) {x : String} {value : Value}
    (hfind : s.find? x = some value) : value.Native := by
  induction s with
  | global f => exact Frame.Tidy.native_of_find? h hfind
  | inner f s ih =>
    rw [find?] at hfind
    cases hown : f.find? x with
    | some own =>
      rw [hown] at hfind
      cases hfind
      exact h.1.native_of_find? hown
    | none =>
      rw [hown] at hfind
      exact ih h.2 hfind

/-- The value goes into the frame that binds the name, wherever that is. -/
theorem Tidy.assign? (h : s.Tidy) {x : String} {value : Value} (hvalue : value.Native)
    (hassign : s.assign? x value = some t) : t.Tidy := by
  induction s generalizing t with
  | global f =>
    rw [Scope.assign?] at hassign
    split at hassign
    · cases hassign
      exact Frame.Tidy.set h x hvalue
    · cases hassign
  | inner f s ih =>
    rw [Scope.assign?] at hassign
    split at hassign
    · cases hassign
      exact ⟨h.1.set x hvalue, h.2⟩
    · obtain ⟨u, hu, rfl⟩ := Option.map_eq_some_iff.1 hassign
      exact ⟨h.1, ih h.2 hu⟩

theorem Tidy.define (h : s.Tidy) (x : String) {value : Value} (hvalue : value.Native) :
    (s.define x value).Tidy := by
  cases s with
  | global f => exact Frame.Tidy.set h x hvalue
  | inner f s => exact ⟨h.1.set x hvalue, h.2⟩

theorem Tidy.leave (h : s.Tidy) : s.leave.Tidy := by
  cases s with
  | global f => exact h
  | inner f s => exact h.2

end Scope

/-! ## Computations that keep an invariant -/

/-- A computation has left a state with `Inv`, and something good if it got to its end. -/
inductive Kept {σ α : Type} (Inv : σ → Prop) (Good : α → Prop) : EStateM.Result Stop σ α → Prop
  | ok {a : α} {t : σ} : Inv t → Good a → Kept Inv Good (.ok a t)
  | error {stop : Stop} {t : σ} : Inv t → Kept Inv Good (.error stop t)

/-- From a state with `Inv`, a computation leaves one with `Inv`, and gives something good if it gets
to its end. -/
def Maintains {σ α : Type} (Inv : σ → Prop) (Good : α → Prop) (x : EStateM Stop σ α) : Prop :=
  ∀ s, Inv s → Kept Inv Good (x s)

namespace Maintains

variable {σ α β : Type} {Inv : σ → Prop} {Good : α → Prop} {Good' : β → Prop}

theorem pure {a : α} (h : Good a) : Maintains Inv Good (pure a : EStateM Stop σ α) :=
  fun _ hs => .ok hs h

theorem throw (stop : Stop) : Maintains Inv Good (throw stop : EStateM Stop σ α) :=
  fun _ hs => .error hs

/-- The second part may rely on what the first one gives it. -/
theorem bind {x : EStateM Stop σ α} {next : α → EStateM Stop σ β} (hx : Maintains Inv Good x)
    (hnext : ∀ a, Good a → Maintains Inv Good' (next a)) : Maintains Inv Good' (x >>= next) := by
  intro s hs
  have hfirst := hx s hs
  change Kept Inv Good' (EStateM.bind x next s)
  unfold EStateM.bind
  generalize x s = r at hfirst ⊢
  cases hfirst with
  | ok ht ha => exact hnext _ ha _ ht
  | error ht => exact .error ht

/-- The invariant holds on both ways out. -/
theorem state {x : EStateM Stop σ α} (h : Maintains Inv Good x) {s : σ} (hs : Inv s) :
    Inv (Ending.state (x s)) := by
  have hx := h s hs
  generalize x s = r at hx ⊢
  cases hx with
  | ok ht _ => exact ht
  | error ht => exact ht

end Maintains

/-! ## Evaluation -/

namespace Evaluation

theorem maintains_opening {α : Type} {Inv : Scope → Prop} {Good : α → Prop}
    {inside : Nat → Evaluation α} (levels room : Nat)
    (h : ∀ room, Maintains Inv Good (inside room)) :
    Maintains Inv Good (opening levels room inside) := by
  unfold opening
  split
  · exact h _
  · exact .throw _

theorem maintains_blaming {α : Type} {Inv : Scope → Prop} {Good : α → Prop} (site : Token)
    {result : Except RuntimeCause α} (h : Attempts Good result) :
    Maintains Inv Good (blaming site result) := by
  cases result with
  | ok value => exact .pure h
  | error cause => exact .throw _

theorem maintains_read (room : Nat) (name : Token) :
    Maintains Scope.Tidy Value.Native (Evaluation.read room name) := by
  intro s hs
  unfold Evaluation.read
  split
  · cases hfind : s.find? name.lexeme with
    | some value => exact .ok hs (hs.native_of_find? hfind)
    | none => exact .error hs
  · exact .error hs

theorem maintains_assign (room : Nat) (name : Token) {value : Value} (hvalue : value.Native) :
    Maintains Scope.Tidy (fun _ => True) (Evaluation.assign room name value) := by
  intro s hs
  unfold Evaluation.assign
  split
  · cases hassign : s.assign? name.lexeme value with
    | some t => exact .ok (hs.assign? hvalue hassign) trivial
    | none => exact .error hs
  · exact .error hs

/-- Operators give native data even for operands that are not. -/
theorem maintains_applyUnary (operator : Token) (right : Value) :
    Maintains Scope.Tidy Value.Native (applyUnary operator right) := by
  refine (maintains_blaming operator (right.attempts_require (.inr rfl))).bind fun right _ => ?_
  cases UnaryOperator.ofKind? operator.kind with
  | none => exact .throw _
  | some op =>
    exact (maintains_blaming operator (op.attempts_apply right)).bind fun _ h =>
      .pure (Value.native_some h)

theorem maintains_applyBinary (left : Value) (operator : Token) (right : Value) :
    Maintains Scope.Tidy Value.Native (applyBinary left operator right) := by
  refine (maintains_blaming operator (left.attempts_require (.inl rfl))).bind fun left _ =>
    (maintains_blaming operator (right.attempts_require (.inr rfl))).bind fun right _ => ?_
  cases BinaryOperator.ofKind? operator.kind with
  | none => exact .throw _
  | some op =>
    exact (maintains_blaming operator (op.attempts_apply left right)).bind fun _ h =>
      .pure (Value.native_some h)

end Evaluation

open Evaluation in
/-- Literals are the only values that an expression brings with it. -/
theorem Expr.maintains_evaluate (e : Expr) (he : ∀ v ∈ e.literals, Value.Native v) (room : Nat) :
    Maintains Scope.Tidy Value.Native (e.evaluate room) := by
  induction e generalizing room with
  | literal value => exact .pure (List.forall_mem_singleton.1 he)
  | read name => exact maintains_read room name
  | grouping inner ih => exact maintains_opening _ _ (ih he)
  | unary operator right ih =>
    exact maintains_opening _ _ fun room =>
      (ih he room).bind fun right _ => maintains_applyUnary operator right
  | binary left operator right ihleft ihright =>
    obtain ⟨hleft, hright⟩ := List.forall_mem_append.1 he
    exact maintains_opening _ _ fun room =>
      (ihleft hleft room).bind fun left _ => (ihright hright room).bind fun right _ =>
        maintains_applyBinary left operator right
  | assign name value ih =>
    exact maintains_opening _ _ fun inside =>
      (ih he inside).bind fun value hvalue =>
        (maintains_assign room name hvalue).bind fun _ _ => .pure hvalue

/-! ## Execution -/

def State.Tidy (s : State) : Prop := s.scope.Tidy

namespace Execution

theorem maintains_evaluating {α : Type} {Good : α → Prop} {x : Evaluation α}
    (h : Maintains Scope.Tidy Good x) : Maintains State.Tidy Good (evaluating x) := by
  intro s hs
  have hx := h s.scope hs
  unfold evaluating
  generalize x s.scope = r at hx ⊢
  cases hx with
  | ok ht ha => exact .ok ht ha
  | error ht => exact .error ht

theorem maintains_opening {α : Type} {Inv : State → Prop} {Good : α → Prop}
    {inside : Nat → Execution α} (levels room : Nat)
    (h : ∀ room, Maintains Inv Good (inside room)) :
    Maintains Inv Good (opening levels room inside) := by
  unfold opening
  split
  · exact h _
  · exact .throw _

theorem maintains_write (channel : Channel) (line : String) :
    Maintains State.Tidy (fun _ => True) (write channel line) := fun _ hs => .ok hs trivial

theorem maintains_announce (traced : Bool) (form : String) :
    Maintains State.Tidy (fun _ => True) (announce traced form) := by
  unfold announce
  split
  · exact maintains_write _ _
  · exact .pure trivial

theorem maintains_define (name : Token) {value : Value} (hvalue : value.Native) :
    Maintains State.Tidy (fun _ => True) (define name value) :=
  fun _ hs => .ok (hs.define name.lexeme hvalue) trivial

/-- A new frame has no entries that could break the invariant, and leaving one keeps the others. -/
theorem maintains_nested {α : Type} {Good : α → Prop} {body : Execution α}
    (h : Maintains State.Tidy Good body) : Maintains State.Tidy Good (nested body) := by
  intro s hs
  have hbody := h { s with scope := s.scope.enter } ⟨.empty, hs⟩
  unfold nested
  generalize body { s with scope := s.scope.enter } = r at hbody ⊢
  cases hbody with
  | ok ht ha => exact .ok ht.leave ha
  | error ht => exact .error ht.leave

end Execution

open Execution in
mutual

/-- A declaration without an initial value binds the name to nil, which is native. -/
theorem Stmt.maintains_execute (traced : Bool) : (room : Nat) → (s : Stmt) →
    (∀ v ∈ s.literals, Value.Native v) →
    Maintains State.Tidy (fun _ => True) (s.execute traced room)
  | _, .expression value, hs =>
    (maintains_announce _ _).bind fun _ _ => maintains_opening _ _ fun room =>
      (maintains_evaluating (value.maintains_evaluate hs room)).bind fun _ _ => .pure trivial
  | _, .print value, hs =>
    (maintains_announce _ _).bind fun _ _ => maintains_opening _ _ fun room =>
      (maintains_evaluating (value.maintains_evaluate hs room)).bind fun _ _ => maintains_write _ _
  | _, .declare name none, _ =>
    (maintains_announce _ _).bind fun _ _ => maintains_opening _ _ fun _ =>
      maintains_define name Value.native_none
  | _, .declare name (some initial), hs =>
    (maintains_announce _ _).bind fun _ _ => maintains_opening _ _ fun room =>
      (maintains_evaluating (initial.maintains_evaluate hs room)).bind fun _ hvalue =>
        maintains_define name hvalue
  | _, .block body, hs =>
    (maintains_announce _ _).bind fun _ _ => maintains_opening _ _ fun room =>
      maintains_nested (Program.maintains_execute traced room body hs)

theorem Program.maintains_execute (traced : Bool) : (room : Nat) → (body : List Stmt) →
    (∀ v ∈ Program.literals body, Value.Native v) →
    Maintains State.Tidy (fun _ => True) (Program.execute traced room body)
  | _, [], _ => .pure trivial
  | room, statement :: rest, hs =>
    have ⟨hfirst, hrest⟩ := List.forall_mem_append.1 hs
    (statement.maintains_execute traced room hfirst).bind fun _ _ =>
      Program.maintains_execute traced room rest hrest

end

/-- An echoed expression binds nothing but what it assigns, which is native. -/
theorem Session.maintains_perform (debug echo : Bool) (body : Program)
    (h : ∀ v ∈ Program.literals body, Value.Native v) :
    Maintains State.Tidy (fun _ => True) (Session.perform debug echo body) := by
  unfold Session.perform
  split
  · next value =>
    split
    · have hvalue : ∀ v ∈ value.literals, Value.Native v := (List.forall_mem_append.1 h).1
      exact (Execution.maintains_evaluating (value.maintains_evaluate hvalue _)).bind fun _ _ =>
        Execution.maintains_write _ _
    · exact Program.maintains_execute _ _ _ h
  · exact Program.maintains_execute _ _ _ h

end Scriptlet
