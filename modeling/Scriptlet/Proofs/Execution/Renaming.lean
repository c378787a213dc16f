import Scriptlet.Proofs.Execution.Composition
import Scriptlet.Proofs.Execution.Lockstep

/-!
# Renaming a local name

From its declaration on, a name that is declared in a block can be exchanged for any other name that
does not occur in the rest of the block. Nothing outside the block can tell, whatever the two names
stand for there or in the block before the declaration.

The two runs of the rest are in step. Their blocks' own frames differ in where the two names are
bound, but there the old name is bound in the one and the new name in the other, so a search for
either ends in that frame at the latest; the scopes around the block are the same.
-/

namespace Scriptlet

/-- Exchanges one name for another and keeps all others. -/
def exchange (old new : String) (x : String) : String := if x = old then new else x

namespace Scope

/-- The scopes in a block after the declaration of `old`, and of `new` in its place. -/
inductive Exchanged (old new : String) : Scope → Scope → Prop
  | inner {f g : Frame} {outer : Scope} : f.Alike (exchange old new) {new}ᶜ g →
      (f.find? old).isSome → Exchanged old new (inner f outer) (inner g outer)

theorem Exchanged.leave_eq {old new : String} {s s' : Scope} (h : Exchanged old new s s') :
    s.leave = s'.leave := by
  cases h
  rfl

/-- The exchange is one-to-one on names other than the new one, which does not occur where it is
applied. -/
theorem injOn_exchange (old new : String) : Set.InjOn (exchange old new) {new}ᶜ := by
  intro x hx z hz h
  unfold exchange at h
  split at h <;> split at h
  · next hxold hzold => rw [hxold, hzold]
  · exact absurd h.symm hz
  · exact absurd h hx
  · exact h

/-- A name that the block's own frame does not bind is not the declared one. -/
theorem exchange_of_unbound {old new x : String} {f : Frame} (hold : (f.find? old).isSome)
    (hx : f.find? x = none) : exchange old new x = x := by
  refine if_neg ?_
  rintro rfl
  rw [hx] at hold
  cases hold

theorem isSome_find?_set {f : Frame} {old : String} (hold : (f.find? old).isSome) (x : String)
    (value : Value) : ((f.set x value).find? old).isSome := by
  rw [Frame.find?_set]
  split
  · rfl
  · exact hold

/-- A search for the old name and a search for the new one both end in the block's own frame, and
all other searches go on alike. -/
theorem indistinct_exchanged (old new : String) :
    Indistinct (exchange old new) {new}ᶜ (Exchanged old new) where
  injOn := injOn_exchange old new
  find? := by
    rintro _ _ x ⟨halike, hold⟩ hx
    rw [Scope.find?, Scope.find?, halike x hx]
    cases hf : Frame.find? _ x with
    | some value => rfl
    | none => rw [exchange_of_unbound hold hf]
  reach := by
    rintro _ _ x ⟨halike, hold⟩ hx
    rw [Scope.reach, Scope.reach, halike x hx]
    cases hf : Frame.find? _ x with
    | some value => rfl
    | none => rw [exchange_of_unbound hold hf]
  unbound := by
    rintro _ _ x ⟨_, hold⟩ _ hnone
    exact exchange_of_unbound hold (find?_inner_eq_none.1 hnone).1
  assign? := by
    rintro _ _ x ⟨halike, hold⟩ hx value
    have hset := halike.set (injOn_exchange old new) hx value
    rw [Scope.assign?, Scope.assign?, halike x hx]
    cases hf : Frame.find? _ x with
    | some _ => exact .some (.inner hset (isSome_find?_set hold x value))
    | none =>
      -- The search goes on in the scope around the block, for the same name in both runs.
      rw [exchange_of_unbound hold hf]
      cases Scope.assign? _ x value with
      | some _ => exact .some (.inner halike hold)
      | none => exact .none
  define := by
    rintro _ _ x ⟨halike, hold⟩ hx value
    exact .inner (halike.set (injOn_exchange old new) hx value) (isSome_find?_set hold x value)

/-- Where the declaration is, the two runs have the same frame still. -/
theorem exchanged_define (old new : String) (f : Frame) (outer : Scope) (value : Value) :
    Exchanged old new ((inner f outer).define old value) ((inner f outer).define new value) := by
  refine .inner (fun x hx => ?_) (by simp [Frame.find?_set])
  rw [Frame.find?_set, Frame.find?_set]
  by_cases hold : x = old
  · rw [hold, exchange, if_pos rfl, if_pos rfl, if_pos rfl]
  · have hnew : x ≠ new := hx
    rw [exchange, if_neg hold, if_neg hold, if_neg hnew]

end Scope

/-! ## Blocks -/

/-- Two states that differ at most in their innermost frames. -/
def State.SameOutside (s s' : State) : Prop := s.scope.leave = s'.scope.leave ∧ s.log = s'.log

instance : Std.Refl State.SameOutside := ⟨fun _ => ⟨rfl, rfl⟩⟩

theorem State.InStep.sameOutside {old new : String} {s s' : State}
    (h : State.InStep (Scope.Exchanged old new) [] [] s s') : s.SameOutside s' := by
  obtain ⟨hscope, written, hlog, hlog'⟩ := h
  exact ⟨hscope.leave_eq, hlog.trans hlog'.symm⟩

/-- Computations that begin alike end alike if they do so from where they part. -/
theorem EndsAlike.bind_of_ok {σ α β : Type} {R : σ → σ → Prop} [Std.Refl R] {x : EStateM Stop σ α}
    {next next' : α → EStateM Stop σ β} {s : σ}
    (h : ∀ a t, x s = .ok a t → EndsAlike R (next a t) (next' a t)) :
    EndsAlike R ((x >>= next) s) ((x >>= next') s) := by
  change EndsAlike R (EStateM.bind x next s) (EStateM.bind x next' s)
  unfold EStateM.bind
  cases hx : x s with
  | ok a t => exact h a t hx
  | error stop t => exact .error (refl_of R t)

namespace Execution

theorem opening_bind {α β : Type} (levels room : Nat) (inside : Nat → Execution α)
    (next : α → Execution β) :
    (opening levels room inside >>= next) =
      opening levels room fun room => inside room >>= next := by
  unfold opening
  split <;> rfl

/-- Nothing of the innermost frame is left after a block. -/
theorem nested_eq_of_endsAlike {α : Type} {x y : Execution α} {s : State}
    (h : EndsAlike State.SameOutside (x { s with scope := s.scope.enter })
      (y { s with scope := s.scope.enter })) : nested x s = nested y s := by
  unfold nested
  generalize x { s with scope := s.scope.enter } = r at h ⊢
  generalize y { s with scope := s.scope.enter } = r' at h ⊢
  cases h with
  | ok ht => simp only [ht.1, ht.2]
  | error ht => simp only [ht.1, ht.2]

/-- What a declaration does before it binds its name. -/
def initialValue (traced : Bool) (room : Nat) (initial : Option Expr) : Execution Value := do
  announce traced "Var"
  opening Nesting.statement room fun room =>
    match initial with
    | none => pure none
    | some initial => evaluating (initial.evaluate room)

/-- Up to the binding of its name, a declaration changes only what its initial value assigns. -/
theorem leads_initialValue (traced : Bool) (room : Nat) (initial : Option Expr) :
    Leads (State.Changed traced ((initial.map Expr.targets).getD []) [])
      (initialValue traced room initial) := by
  refine (leads_announce _).bind fun _ => leads_opening _ _ fun room => ?_
  cases initial with
  | none => exact .pure none
  | some initial => exact leads_evaluating (initial.leads_evaluate room)

end Execution

open Execution in
/-- A declaration in two parts, of which the first does not mention the name. -/
theorem Stmt.execute_declare (traced : Bool) (room : Nat) (name : Token) (initial : Option Expr) :
    (Stmt.declare name initial).execute traced room =
      initialValue traced room initial >>= define name := by
  unfold initialValue
  rw [Stmt.execute, bind_assoc]
  simp only [opening_bind]
  cases initial <;> rfl

theorem Scope.Changed.exists_eq_inner {targets declared : List String} {f : Frame} {s t : Scope}
    (h : (Scope.inner f s).Changed targets declared t) : ∃ g outer, t = Scope.inner g outer := by
  cases h
  exact ⟨_, _, rfl⟩

/-- A computation that changes scopes only in allowed ways does not leave the block that it is in. -/
theorem Leads.exists_eq_inner {α : Type} {traced : Bool} {targets declared : List String}
    {x : Execution α} (h : Leads (State.Changed traced targets declared) x) {s t : State} {a : α}
    (hx : x s = .ok a t) {f : Frame} {outer : Scope} (hs : s.scope = .inner f outer) :
    ∃ g outer', t.scope = .inner g outer' := by
  have hscope := (h s).scope
  rw [hx, hs] at hscope
  exact hscope.exists_eq_inner

open Execution in
/-- Up to the declaration the two blocks are one program, and from there on they are in step. -/
theorem Program.endsAlike_exchange (traced : Bool) (room : Nat) (before : List Stmt) (name : Token)
    (initial : Option Expr) (rest : List Stmt) {new : String} (hnew : new ∉ Program.names rest)
    {s : State} {f : Frame} {outer : Scope} (hs : s.scope = .inner f outer) :
    EndsAlike State.SameOutside
      (Program.execute traced room (before ++ .declare name initial :: rest) s)
      (Program.execute traced room (before ++
        .declare (name.rename (exchange name.lexeme new)) initial ::
          Program.rename (exchange name.lexeme new) rest) s) := by
  have hnames : ∀ x ∈ Program.names rest, x ∈ ({new}ᶜ : Set String) := by
    rintro x hx rfl
    exact hnew hx
  simp only [Program.execute_append, Program.execute, Stmt.execute_declare, bind_assoc]
  -- Up to the declaration the two runs are the same.
  refine EndsAlike.bind_of_ok fun _ u hu => EndsAlike.bind_of_ok fun value t ht => ?_
  obtain ⟨g, around, hu⟩ := (Program.leads_execute traced room before).exists_eq_inner hu hs
  obtain ⟨g, around, ht⟩ := (leads_initialValue traced room initial).exists_eq_inner ht hu
  have hstart : State.InStep (Scope.Exchanged name.lexeme new) [] []
      { t with scope := t.scope.define name.lexeme value }
      { t with scope := t.scope.define (exchange name.lexeme new name.lexeme) value } := by
    rw [exchange, if_pos rfl, ht]
    exact ⟨Scope.exchanged_define .., t.log, rfl, rfl⟩
  exact (Program.keepsStep_execute (Scope.indistinct_exchanged name.lexeme new) traced [] [] room rest
    hnames _ _ hstart).mono fun _ _ => State.InStep.sameOutside

/-- A name that is declared in a block may be exchanged, from its declaration on, for any name that
does not occur after it. The block does the same from every state: it ends alike, with the same token
to blame if it stops, and leaves the same scopes and the same lines. -/
theorem Stmt.execute_block_exchange (traced : Bool) (room : Nat) (before : List Stmt) (name : Token)
    (initial : Option Expr) (rest : List Stmt) (new : String) (hnew : new ∉ Program.names rest) :
    (Stmt.block (before ++ .declare (name.rename (exchange name.lexeme new)) initial ::
        Program.rename (exchange name.lexeme new) rest)).execute traced room =
      (Stmt.block (before ++ .declare name initial :: rest)).execute traced room := by
  have hnested (room : Nat) := funext fun s : State =>
    Execution.nested_eq_of_endsAlike (s := s)
      (Program.endsAlike_exchange traced room before name initial rest hnew rfl)
  simp only [Stmt.execute, Stmt.form, hnested]

/-- An inner block that declares the name again, a use of it before the declaration and an
initial value that reads it; both names stand for something around the block, and the block
stops in the end. -/
theorem Stmt.execute_block_exchange_shadowing :
    let x : Token := { kind := .identifier, lexeme := "x" }
    let z : Token := { kind := .identifier, lexeme := "z" }
    let minus : Token := { kind := .minus, lexeme := "-" }
    let rest : List Stmt :=
      [.block [.print (.read x), .declare x (some (.read x)),
        .expression (.assign x (.literal (some (.boolean true)))), .print (.read x)],
        .print (.read x), .print (.unary minus (.read z))]
    let state : State :=
      { scope := .global { entries := [("x", some (.string "outer")), ("y", none),
        ("z", some (.boolean false))] } }
    let original := Stmt.block ([.print (.read x)] ++ .declare x (some (.read x)) :: rest)
    let renamed := Stmt.block ([.print (.read x)] ++
      .declare (x.rename (exchange "x" "y")) (some (.read x)) ::
        Program.rename (exchange "x" "y") rest)
    "y" ∉ Program.names rest ∧
    (Ending.state (renamed.execute false Nesting.running state)).log.map (·.line) =
      ["outer", "outer", "true", "outer"] ∧
    renamed.execute false Nesting.running = original.execute false Nesting.running :=
  ⟨by decide, by decide +kernel,
    Stmt.execute_block_exchange false Nesting.running _ _ _ _ "y" (by decide)⟩

end Scriptlet
