import Scriptlet.Session
import Scriptlet.Proofs.Program.Tokens

/-!
# Stops blame tokens of the program

Whatever stops a program, other than want of room, is blamed on a token that the program keeps.
Values hold no tokens, so what earlier programs left behind has no part in it. The statement passes
through sequences of computations, whatever their state is.
-/

namespace Scriptlet

/-- A computation that stops blames one of these tokens, or nothing. -/
def Blames {σ α : Type} (tokens : List Token) (x : EStateM Stop σ α) : Prop :=
  ∀ s t cause site, x s = .error (.fault cause site) t → site ∈ tokens

namespace Blames

variable {σ α β : Type} {tokens more : List Token}

theorem mono {x : EStateM Stop σ α} (h : Blames tokens x) (hsub : tokens ⊆ more) :
    Blames more x :=
  fun s t cause site hx => hsub (h s t cause site hx)

theorem pure (a : α) : Blames tokens (pure a : EStateM Stop σ α) := by
  intro s t cause site h
  cases h

theorem exhausted : Blames tokens (throw Stop.exhausted : EStateM Stop σ α) := by
  intro s t cause site h
  cases h

theorem fault {cause : RuntimeCause} {site : Token} (hsite : site ∈ tokens) :
    Blames tokens (throw (Stop.fault cause site) : EStateM Stop σ α) := by
  intro s t cause' site' h
  cases h
  exact hsite

/-- In a sequence either part may stop it, and both are held to the same tokens. -/
theorem bind {x : EStateM Stop σ α} {next : α → EStateM Stop σ β} (hx : Blames tokens x)
    (hnext : ∀ a, Blames tokens (next a)) : Blames tokens (x >>= next) := by
  intro s t cause site h
  change EStateM.bind x next s = _ at h
  unfold EStateM.bind at h
  cases hxs : x s with
  | ok a u =>
    rw [hxs] at h
    exact hnext a u t cause site h
  | error stop u =>
    rw [hxs] at h
    cases h
    exact hx s t cause site hxs

end Blames

/-! ## Evaluation -/

namespace Evaluation

variable {tokens : List Token}

theorem blames_opening {α : Type} {inside : Nat → Evaluation α} (levels room : Nat)
    (h : ∀ room, Blames tokens (inside room)) : Blames tokens (opening levels room inside) := by
  unfold opening
  split
  · exact h _
  · exact .exhausted

/-- What goes wrong with values is blamed on the token at hand, since values have none of their
own. -/
theorem blames_blaming {α : Type} {site : Token} (hsite : site ∈ tokens)
    (result : Except RuntimeCause α) : Blames tokens (blaming site result) := by
  cases result with
  | ok value => exact .pure value
  | error cause => exact .fault hsite

theorem blames_read {name : Token} (hname : name ∈ tokens) (room : Nat) :
    Blames tokens (Evaluation.read room name) := by
  intro s t cause site h
  unfold Evaluation.read at h
  split at h
  · split at h
    · cases h
    · cases h
      exact hname
  · cases h

theorem blames_assign {name : Token} (hname : name ∈ tokens) (room : Nat) (value : Value) :
    Blames tokens (Evaluation.assign room name value) := by
  intro s t cause site h
  unfold Evaluation.assign at h
  split at h
  · split at h
    · cases h
    · cases h
      exact hname
  · cases h

theorem blames_applyUnary {operator : Token} (hoperator : operator ∈ tokens) (right : Value) :
    Blames tokens (applyUnary operator right) := by
  refine (blames_blaming hoperator _).bind fun right => ?_
  cases UnaryOperator.ofKind? operator.kind with
  | none => exact .fault hoperator
  | some op => exact (blames_blaming hoperator _).bind fun _ => .pure _

theorem blames_applyBinary {operator : Token} (hoperator : operator ∈ tokens)
    (left right : Value) : Blames tokens (applyBinary left operator right) := by
  refine (blames_blaming hoperator _).bind fun left =>
    (blames_blaming hoperator _).bind fun right => ?_
  cases BinaryOperator.ofKind? operator.kind with
  | none => exact .fault hoperator
  | some op => exact (blames_blaming hoperator _).bind fun _ => .pure _

end Evaluation

open Evaluation in
/-- An operand blames tokens of its own, which the whole expression has too. -/
theorem Expr.blames_evaluate (e : Expr) (room : Nat) : Blames e.tokens (e.evaluate room) := by
  induction e generalizing room with
  | literal value => exact .pure value
  | read name => exact blames_read List.mem_cons_self room
  | grouping inner ih => exact blames_opening _ _ ih
  | unary operator right ih =>
    refine blames_opening _ _ fun room => ?_
    exact ((ih room).mono (List.subset_cons_self ..)).bind fun right =>
      blames_applyUnary List.mem_cons_self right
  | binary left operator right ihleft ihright =>
    have hoperator : operator ∈ left.tokens ++ operator :: right.tokens := by simp
    have hright : right.tokens ⊆ left.tokens ++ operator :: right.tokens :=
      List.Subset.trans (List.subset_cons_self ..) (List.subset_append_right ..)
    refine blames_opening _ _ fun room => ?_
    exact ((ihleft room).mono (List.subset_append_left ..)).bind fun left =>
      ((ihright room).mono hright).bind fun right => blames_applyBinary hoperator left right
  | assign name value ih =>
    refine blames_opening _ _ fun inside => ?_
    exact ((ih inside).mono (List.subset_cons_self ..)).bind fun value =>
      (blames_assign List.mem_cons_self room value).bind fun _ => .pure value

/-! ## Execution -/

namespace Execution

variable {tokens : List Token}

theorem blames_evaluating {α : Type} {evaluation : Evaluation α} (h : Blames tokens evaluation) :
    Blames tokens (evaluating evaluation) := by
  intro s t cause site hs
  unfold evaluating at hs
  cases hscope : evaluation s.scope with
  | ok value scope => simp [hscope] at hs
  | error stop scope =>
    simp only [hscope, EStateM.Result.error.injEq] at hs
    obtain ⟨rfl, -⟩ := hs
    exact h _ _ _ _ hscope

theorem blames_opening {α : Type} {inside : Nat → Execution α} (levels room : Nat)
    (h : ∀ room, Blames tokens (inside room)) : Blames tokens (opening levels room inside) := by
  unfold opening
  split
  · exact h _
  · exact .exhausted

theorem blames_write (channel : Channel) (line : String) : Blames tokens (write channel line) := by
  intro s t cause site h
  cases h

theorem blames_define (name : Token) (value : Value) : Blames tokens (define name value) := by
  intro s t cause site h
  cases h

theorem blames_announce (traced : Bool) (form : String) :
    Blames tokens (announce traced form) := by
  unfold announce
  split
  · exact blames_write _ _
  · exact .pure ()

/-- Leaving a block does not change what stopped it. -/
theorem blames_nested {α : Type} {body : Execution α} (h : Blames tokens body) :
    Blames tokens (nested body) := by
  intro s t cause site hs
  unfold nested at hs
  cases hbody : body { s with scope := s.scope.enter } with
  | ok value state => simp [hbody] at hs
  | error stop state =>
    simp only [hbody, EStateM.Result.error.injEq] at hs
    obtain ⟨rfl, -⟩ := hs
    exact h _ _ _ _ hbody

end Execution

open Execution in
mutual

/-- What a statement prints or declares has no part in what stops it. -/
theorem Stmt.blames_execute (traced : Bool) : (room : Nat) → (s : Stmt) →
    Blames s.tokens (s.execute traced room)
  | _, .expression value =>
    (blames_announce _ _).bind fun _ => blames_opening _ _ fun room =>
      (blames_evaluating (value.blames_evaluate room)).bind fun _ => .pure ()
  | _, .print value =>
    (blames_announce _ _).bind fun _ => blames_opening _ _ fun room =>
      (blames_evaluating (value.blames_evaluate room)).bind fun _ => blames_write _ _
  | _, .declare _ none =>
    (blames_announce _ _).bind fun _ => blames_opening _ _ fun _ => blames_define _ _
  | _, .declare _ (some initial) =>
    (blames_announce _ _).bind fun _ => blames_opening _ _ fun room =>
      (blames_evaluating
        ((initial.blames_evaluate room).mono (List.subset_cons_self ..))).bind fun _ =>
          blames_define _ _
  | _, .block body =>
    (blames_announce _ _).bind fun _ => blames_opening _ _ fun room =>
      blames_nested (Program.blames_execute traced room body)

theorem Program.blames_execute (traced : Bool) : (room : Nat) → (body : List Stmt) →
    Blames (Program.tokens body) (Program.execute traced room body)
  | _, [] => .pure ()
  | room, statement :: rest =>
    ((statement.blames_execute traced room).mono (List.subset_append_left ..)).bind fun _ =>
      (Program.blames_execute traced room rest).mono (List.subset_append_right ..)

end

/-- An echoed expression is evaluated in place of being executed, and blames its own tokens all the
same. -/
theorem Session.blames_perform (debug echo : Bool) (body : Program) :
    Blames (Program.tokens body) (Session.perform debug echo body) := by
  unfold Session.perform
  split
  · next value =>
    split
    · refine (Execution.blames_evaluating ((value.blames_evaluate _).mono ?_)).bind fun _ =>
        Execution.blames_write _ _
      exact List.subset_append_left ..
    · exact Program.blames_execute _ _ _
  · exact Program.blames_execute _ _ _

end Scriptlet
