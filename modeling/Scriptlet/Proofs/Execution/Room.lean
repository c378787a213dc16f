import Scriptlet.Proofs.Execution.Effect
import Scriptlet.Proofs.Operator.Results

/-!
# Room to run in

A computation looks at its room only to see whether there is enough of it. So if it does not stop for
want of room, it does the same with more (`Expr.extends_evaluate`). A grouping takes room and does
nothing else, so two expressions that differ in their groupings only do the same wherever both have
room (`Expr.evaluate_eq_of_ungrouped_eq`).

Nothing stops for want of room if there is enough: an expression needs some room for its own levels and
one level for every frame that a search for a name may look into (`Expr.exists_room`), and a program
needs what its statements need, each in the depth of the blocks around it (`Program.exists_room`).
-/

namespace Scriptlet

/-! ## More room -/

/-- Wherever the first computation does not stop for want of room, the second one does the same. -/
def Extends {σ α : Type} (x y : EStateM Stop σ α) : Prop :=
  ∀ s, Ending.outcome (x s) ≠ .error .exhausted → y s = x s

namespace Extends

variable {σ α β : Type}

theorem refl (x : EStateM Stop σ α) : Extends x x := fun _ _ => rfl

theorem exhausted (y : EStateM Stop σ α) : Extends (throw Stop.exhausted) y :=
  fun _ h => absurd rfl h

/-- The second part runs only if the first one had enough room, and then it starts from one state. -/
theorem bind {x y : EStateM Stop σ α} {next next' : α → EStateM Stop σ β} (hx : Extends x y)
    (hnext : ∀ a, Extends (next a) (next' a)) : Extends (x >>= next) (y >>= next') := by
  intro s h
  change Ending.outcome (EStateM.bind x next s) ≠ .error .exhausted at h
  change EStateM.bind y next' s = EStateM.bind x next s
  unfold EStateM.bind at h ⊢
  cases hxs : x s with
  | ok a t =>
    have hroom : Ending.outcome (x s) ≠ .error .exhausted := by
      rw [hxs]
      intro heq
      cases heq
    rw [hxs] at h
    rw [hx s hroom, hxs]
    exact hnext a t h
  | error stop t =>
    have hroom : Ending.outcome (x s) ≠ .error .exhausted := by
      rw [hxs] at h ⊢
      intro heq
      cases heq
      exact h rfl
    rw [hx s hroom, hxs]

end Extends

namespace Evaluation

variable {room more : Nat}

/-- Where the levels can be opened with less room, they can with more. -/
theorem extends_opening {α : Type} {inside inside' : Nat → Evaluation α} (hroom : room ≤ more)
    (levels : Nat) (h : ∀ {room more}, room ≤ more → Extends (inside room) (inside' more)) :
    Extends (opening levels room inside) (opening levels more inside') := by
  unfold opening
  by_cases hlevels : levels ≤ room
  · rw [if_pos hlevels, if_pos (Nat.le_trans hlevels hroom)]
    exact h (Nat.sub_le_sub_right hroom levels)
  · rw [if_neg hlevels]
    exact .exhausted _

/-- A search needs one level for every frame that it looks into, however many are left over. -/
theorem extends_read (hroom : room ≤ more) (name : Token) :
    Extends (Evaluation.read room name) (Evaluation.read more name) := by
  intro s h
  unfold Evaluation.read at h ⊢
  by_cases hreach : s.reach name.lexeme ≤ room
  · rw [if_pos hreach, if_pos (Nat.le_trans hreach hroom)]
  · rw [if_neg hreach] at h
    exact absurd rfl h

theorem extends_assign (hroom : room ≤ more) (name : Token) (value : Value) :
    Extends (Evaluation.assign room name value) (Evaluation.assign more name value) := by
  intro s h
  unfold Evaluation.assign at h ⊢
  by_cases hreach : s.reach name.lexeme ≤ room
  · rw [if_pos hreach, if_pos (Nat.le_trans hreach hroom)]
  · rw [if_neg hreach] at h
    exact absurd rfl h

end Evaluation

open Evaluation in
/-- An expression that has enough room has the same value with more. -/
theorem Expr.extends_evaluate (e : Expr) {room more : Nat} (hroom : room ≤ more) :
    Extends (e.evaluate room) (e.evaluate more) := by
  induction e generalizing room more with
  | literal value => exact .refl _
  | read name => exact extends_read hroom name
  | grouping inner ih => exact extends_opening hroom _ ih
  | unary operator right ih =>
    exact extends_opening hroom _ fun hroom => (ih hroom).bind fun _ => .refl _
  | binary left operator right ihleft ihright =>
    exact extends_opening hroom _ fun hroom =>
      (ihleft hroom).bind fun _ => (ihright hroom).bind fun _ => .refl _
  | assign name value ih =>
    -- The search for the name has the room of the whole assignment, not that of its value.
    exact extends_opening hroom _ fun hinside => (ih hinside).bind fun value =>
      (extends_assign hroom name value).bind fun _ => .refl _

/-! ## Groupings -/

/-- An expression with all its groupings erased. -/
def Expr.ungrouped : Expr → Expr
  | literal value => literal value
  | read name => read name
  | grouping inner => inner.ungrouped
  | unary operator right => unary operator right.ungrouped
  | binary left operator right => binary left.ungrouped operator right.ungrouped
  | assign name value => assign name value.ungrouped

open Evaluation in
/-- Wherever an expression has room, it does the same without its groupings. -/
theorem Expr.extends_ungrouped (e : Expr) {room more : Nat} (hroom : room ≤ more) :
    Extends (e.evaluate room) (e.ungrouped.evaluate more) := by
  induction e generalizing room more with
  | literal value => exact .refl _
  | read name => exact extends_read hroom name
  | grouping inner ih =>
    -- Only here is there less to open on the other side.
    simp only [evaluate, opening, ungrouped]
    split
    · exact ih (Nat.le_trans (Nat.sub_le ..) hroom)
    · exact .exhausted _
  | unary operator right ih =>
    exact extends_opening hroom _ fun hroom => (ih hroom).bind fun _ => .refl _
  | binary left operator right ihleft ihright =>
    exact extends_opening hroom _ fun hroom =>
      (ihleft hroom).bind fun _ => (ihright hroom).bind fun _ => .refl _
  | assign name value ih =>
    exact extends_opening hroom _ fun hinside => (ih hinside).bind fun value =>
      (extends_assign hroom name value).bind fun _ => .refl _

/-- Expressions that differ in their groupings only do the same, if neither runs out of room. -/
theorem Expr.evaluate_eq_of_ungrouped_eq {e e' : Expr} (h : e'.ungrouped = e.ungrouped)
    {room room' : Nat} {scope : Scope}
    (hroom : Ending.outcome (e.evaluate room scope) ≠ .error .exhausted)
    (hroom' : Ending.outcome (e'.evaluate room' scope) ≠ .error .exhausted) :
    e'.evaluate room' scope = e.evaluate room scope :=
  calc e'.evaluate room' scope
      = e'.ungrouped.evaluate (max room room') scope :=
        (e'.extends_ungrouped (Nat.le_max_right ..) scope hroom').symm
    _ = e.ungrouped.evaluate (max room room') scope := by rw [h]
    _ = e.evaluate room scope := e.extends_ungrouped (Nat.le_max_left ..) scope hroom

/-! ## Operators -/

/-- An operator at work: the scope stays as it is, and what goes wrong is blamed on the operator. -/
def Operates {α : Type} (operator : Token) (x : Evaluation α) : Prop :=
  ∀ s, (∃ a, x s = .ok a s) ∨
    ∃ cause : RuntimeCause, cause.OfOperator ∧ x s = .error (.fault cause operator) s

namespace Operates

variable {α β : Type} {operator : Token}

theorem pure (a : α) : Operates operator (pure a) := fun _ => .inl ⟨a, rfl⟩

theorem throw {cause : RuntimeCause} (h : cause.OfOperator) :
    Operates (α := α) operator (throw (Stop.fault cause operator)) :=
  fun _ => .inr ⟨cause, h, rfl⟩

theorem bind {x : Evaluation α} {next : α → Evaluation β} (hx : Operates operator x)
    (hnext : ∀ a, Operates operator (next a)) : Operates operator (x >>= next) := by
  intro s
  change (∃ b, EStateM.bind x next s = .ok b s) ∨
    ∃ cause : RuntimeCause, cause.OfOperator ∧ EStateM.bind x next s = .error (.fault cause operator) s
  unfold EStateM.bind
  obtain ⟨a, ha⟩ | ⟨cause, hcause, hstop⟩ := hx s
  · rw [ha]
    exact hnext a s
  · rw [hstop]
    exact .inr ⟨cause, hcause, rfl⟩

theorem blaming {Good : α → Prop} {result : Except RuntimeCause α} (h : Attempts Good result) :
    Operates operator (Evaluation.blaming operator result) := by
  cases result with
  | ok a => exact .pure a
  | error cause => exact .throw h

end Operates

namespace Evaluation

theorem operates_applyUnary (operator : Token) (right : Value) :
    Operates operator (applyUnary operator right) := by
  refine (Operates.blaming (right.attempts_require (.inr rfl))).bind fun right => ?_
  cases UnaryOperator.ofKind? operator.kind with
  | none => exact .throw .unaryOperator
  | some op => exact (Operates.blaming (op.attempts_apply right)).bind fun _ => .pure _

/-- Both operands are at hand here. They are checked, and the operator is blamed for either of
them. -/
theorem operates_applyBinary (left : Value) (operator : Token) (right : Value) :
    Operates operator (applyBinary left operator right) := by
  refine (Operates.blaming (left.attempts_require (.inl rfl))).bind fun left =>
    (Operates.blaming (right.attempts_require (.inr rfl))).bind fun right => ?_
  cases BinaryOperator.ofKind? operator.kind with
  | none => exact .throw .binaryOperator
  | some op => exact (Operates.blaming (op.attempts_apply left right)).bind fun _ => .pure _

end Evaluation

/-! ## Enough room for expressions -/

/-- From a state with `Inv`, a computation does not stop for want of room, and leaves a state with
`Inv`. -/
def Fits {σ α : Type} (Inv : σ → Prop) (x : EStateM Stop σ α) : Prop :=
  ∀ s, Inv s → Ending.outcome (x s) ≠ .error .exhausted ∧ Inv (Ending.state (x s))

namespace Fits

variable {σ α β : Type} {Inv : σ → Prop}

theorem pure (a : α) : Fits Inv (pure a : EStateM Stop σ α) := by
  intro s hs
  exact ⟨by rintro ⟨⟩, hs⟩

/-- The first part leaves the second one a state in which there is enough room as well. -/
theorem bind {x : EStateM Stop σ α} {next : α → EStateM Stop σ β} (hx : Fits Inv x)
    (hnext : ∀ a, Fits Inv (next a)) : Fits Inv (x >>= next) := by
  intro s hs
  have hfirst := hx s hs
  change Ending.outcome (EStateM.bind x next s) ≠ .error .exhausted ∧
    Inv (Ending.state (EStateM.bind x next s))
  unfold EStateM.bind
  cases hxs : x s with
  | ok a t =>
    rw [hxs] at hfirst
    exact hnext a t hfirst.2
  | error stop t =>
    rw [hxs] at hfirst
    refine ⟨?_, hfirst.2⟩
    rintro ⟨⟩
    exact hfirst.1 rfl

end Fits

def Scope.HasDepth (depth : Nat) (s : Scope) : Prop := s.depth = depth

def State.HasDepth (depth : Nat) (s : State) : Prop := s.scope.HasDepth depth

theorem Scope.depth_pos (s : Scope) : 0 < s.depth := by
  cases s with
  | global own => exact Nat.one_pos
  | inner own outer => exact Nat.succ_pos _

/-- A run that changes values and declares names leaves the depth as it is. -/
theorem Scope.Changed.depth_eq {targets declared : List String} {s t : Scope}
    (h : s.Changed targets declared t) : t.depth = s.depth := by
  induction h with
  | global _ => rfl
  | inner _ _ ih => simp only [depth, ih]

/-- A search for a name looks into all frames at most. -/
theorem Scope.HasDepth.reach_le {depth room : Nat} {s : Scope} (hs : s.HasDepth depth)
    (hroom : depth ≤ room) (x : String) : s.reach x ≤ room :=
  calc s.reach x
      ≤ s.depth := s.reach_le_depth x
    _ = depth := hs
    _ ≤ room := hroom

namespace Evaluation

variable {α : Type} {depth room : Nat}

/-- An operator takes no room. -/
theorem fits_of_operates {Inv : Scope → Prop} {operator : Token} {x : Evaluation α}
    (h : Operates operator x) : Fits Inv x := by
  intro s hs
  obtain ⟨a, ha⟩ | ⟨cause, -, hstop⟩ := h s
  · rw [ha]
    exact ⟨by rintro ⟨⟩, hs⟩
  · rw [hstop]
    exact ⟨by rintro ⟨⟩, hs⟩

theorem fits_opening {Inv : Scope → Prop} {levels n : Nat} {inside : Nat → Evaluation α}
    (hroom : n + levels ≤ room) (h : ∀ inner, n ≤ inner → inner ≤ room → Fits Inv (inside inner)) :
    Fits Inv (opening levels room inside) := by
  rw [opening, if_pos (by omega)]
  exact h _ (by omega) (Nat.sub_le ..)

theorem fits_read (hroom : depth ≤ room) (name : Token) :
    Fits (Scope.HasDepth depth) (Evaluation.read room name) := by
  intro s hs
  unfold Evaluation.read
  rw [if_pos (hs.reach_le hroom name.lexeme)]
  cases s.find? name.lexeme with
  | none => exact ⟨by rintro ⟨⟩, hs⟩
  | some value => exact ⟨by rintro ⟨⟩, hs⟩

/-- An assignment looks as far as a read, and leaves as many frames as there were. -/
theorem fits_assign (hroom : depth ≤ room) (name : Token) (value : Value) :
    Fits (Scope.HasDepth depth) (Evaluation.assign room name value) := by
  intro s hs
  refine ⟨?_, (leads_assign room name value s).depth_eq.trans hs⟩
  unfold Evaluation.assign
  rw [if_pos (hs.reach_le hroom name.lexeme)]
  cases s.assign? name.lexeme value with
  | none => rintro ⟨⟩
  | some t => rintro ⟨⟩

end Evaluation

open Evaluation in
/-- For every depth there is room enough for an expression. -/
theorem Expr.exists_fits (e : Expr) (depth : Nat) :
    ∃ n, ∀ room, n ≤ room → Fits (Scope.HasDepth depth) (e.evaluate room) := by
  induction e with
  | literal value => exact ⟨0, fun _ _ => .pure value⟩
  | read name => exact ⟨depth, fun _ hroom => fits_read hroom name⟩
  | grouping inner ih =>
    obtain ⟨n, hn⟩ := ih
    exact ⟨n + Nesting.compound, fun room hroom => fits_opening hroom fun room hinner _ =>
      hn room hinner⟩
  | unary operator right ih =>
    obtain ⟨n, hn⟩ := ih
    exact ⟨n + Nesting.compound, fun room hroom => fits_opening hroom fun room hinner _ =>
      (hn room hinner).bind fun right => fits_of_operates (operates_applyUnary operator right)⟩
  | binary left operator right ihleft ihright =>
    obtain ⟨n, hn⟩ := ihleft
    obtain ⟨k, hk⟩ := ihright
    refine ⟨max n k + Nesting.compound, fun room hroom => fits_opening hroom fun room hinner _ => ?_⟩
    exact (hn room (by omega)).bind fun left => (hk room (by omega)).bind fun right =>
      fits_of_operates (operates_applyBinary left operator right)
  | assign name value ih =>
    -- The name is looked for with the room of the whole assignment, of which there is no less.
    obtain ⟨n, hn⟩ := ih
    refine ⟨max n depth + Nesting.compound, fun room hroom =>
      fits_opening hroom fun inner hinner hle => ?_⟩
    exact (hn inner (by omega)).bind fun value =>
      (fits_assign (by omega) name value).bind fun _ => .pure value

/-- In every scope there is room enough for an expression. -/
theorem Expr.exists_room (e : Expr) (scope : Scope) :
    ∃ n, ∀ room, n ≤ room → Ending.outcome (e.evaluate room scope) ≠ .error .exhausted := by
  obtain ⟨n, hn⟩ := e.exists_fits scope.depth
  exact ⟨n, fun room hroom => (hn room hroom scope rfl).1⟩

/-! ## Enough room for programs -/

namespace Execution

variable {α : Type} {depth room : Nat}

/-- An evaluation inside a statement needs no room beyond its own. -/
theorem fits_evaluating {x : Evaluation α} (h : Fits (Scope.HasDepth depth) x) :
    Fits (State.HasDepth depth) (evaluating x) := by
  intro s hs
  have hx := h s.scope hs
  unfold evaluating
  cases hxs : x s.scope with
  | ok a t =>
    rw [hxs] at hx
    exact ⟨by rintro ⟨⟩, hx.2⟩
  | error stop t =>
    rw [hxs] at hx
    refine ⟨?_, hx.2⟩
    rintro ⟨⟩
    exact hx.1 rfl

theorem fits_opening {Inv : State → Prop} {levels n : Nat} {inside : Nat → Execution α}
    (hroom : n + levels ≤ room) (h : ∀ inner, n ≤ inner → Fits Inv (inside inner)) :
    Fits Inv (opening levels room inside) := by
  rw [opening, if_pos (by omega)]
  exact h _ (by omega)

theorem fits_write (channel : Channel) (line : String) :
    Fits (State.HasDepth depth) (write channel line) :=
  fun _ hs => ⟨by rintro ⟨⟩, hs⟩

theorem fits_announce (traced : Bool) (form : String) :
    Fits (State.HasDepth depth) (announce traced form) := by
  unfold announce
  split
  · exact fits_write _ _
  · exact .pure ()

theorem fits_define (name : Token) (value : Value) :
    Fits (State.HasDepth depth) (define name value) := by
  intro s hs
  refine ⟨by rintro ⟨⟩, ?_⟩
  change (s.scope.define name.lexeme value).depth = depth
  rw [← hs]
  cases s.scope <;> rfl

/-- A block has one frame more inside. -/
theorem fits_nested {body : Execution α} (h : Fits (State.HasDepth (depth + 1)) body) :
    Fits (State.HasDepth depth) (nested body) := by
  intro s hs
  have hinside : State.HasDepth (depth + 1) { s with scope := s.scope.enter } :=
    congrArg (· + 1) hs
  have hbody := h _ hinside
  have hleave {t : State} (ht : t.HasDepth (depth + 1)) : t.scope.leave.depth = depth := by
    have hpos := s.scope.depth_pos
    unfold State.HasDepth Scope.HasDepth at hs ht
    cases hscope : t.scope with
    | global own =>
      rw [hscope, Scope.depth] at ht
      omega
    | inner own outer =>
      rw [hscope, Scope.depth] at ht
      rw [Scope.leave]
      omega
  unfold nested
  cases hrun : body { s with scope := s.scope.enter } with
  | ok a t =>
    rw [hrun] at hbody
    exact ⟨by rintro ⟨⟩, hleave hbody.2⟩
  | error stop t =>
    rw [hrun] at hbody
    refine ⟨?_, hleave hbody.2⟩
    rintro ⟨⟩
    exact hbody.1 rfl

end Execution

open Execution in
mutual

/-- The body of a block is one frame deeper, so the room that a statement needs depends on the
depth. -/
theorem Stmt.exists_fits (traced : Bool) : (s : Stmt) → (depth : Nat) →
    ∃ n, ∀ room, n ≤ room → Fits (State.HasDepth depth) (s.execute traced room)
  | .expression value, depth => by
    obtain ⟨n, hn⟩ := value.exists_fits depth
    refine ⟨n + Nesting.statement, fun room hroom => (fits_announce _ _).bind fun _ => ?_⟩
    exact fits_opening hroom fun inner hinner =>
      (fits_evaluating (hn inner hinner)).bind fun _ => .pure ()
  | .print value, depth => by
    obtain ⟨n, hn⟩ := value.exists_fits depth
    refine ⟨n + Nesting.statement, fun room hroom => (fits_announce _ _).bind fun _ => ?_⟩
    exact fits_opening hroom fun inner hinner =>
      (fits_evaluating (hn inner hinner)).bind fun _ => fits_write _ _
  | .declare name none, depth =>
    ⟨0 + Nesting.statement, fun _ hroom => (fits_announce _ _).bind fun _ =>
      fits_opening hroom fun _ _ => fits_define name none⟩
  | .declare name (some initial), depth => by
    obtain ⟨n, hn⟩ := initial.exists_fits depth
    refine ⟨n + Nesting.statement, fun room hroom => (fits_announce _ _).bind fun _ => ?_⟩
    exact fits_opening hroom fun inner hinner =>
      (fits_evaluating (hn inner hinner)).bind fun value => fits_define name value
  | .block body, depth => by
    obtain ⟨n, hn⟩ := Program.exists_fits traced body (depth + 1)
    refine ⟨n + Nesting.block, fun room hroom => (fits_announce _ _).bind fun _ => ?_⟩
    exact fits_opening hroom fun inner hinner => fits_nested (hn inner hinner)

/-- As much room as the statement that needs most, since each gives back what it has taken. -/
theorem Program.exists_fits (traced : Bool) : (body : List Stmt) → (depth : Nat) →
    ∃ n, ∀ room, n ≤ room → Fits (State.HasDepth depth) (Program.execute traced room body)
  | [], _ => ⟨0, fun _ _ => .pure ()⟩
  | statement :: rest, depth => by
    obtain ⟨n, hn⟩ := statement.exists_fits traced depth
    obtain ⟨k, hk⟩ := Program.exists_fits traced rest depth
    refine ⟨max n k, fun room hroom => ?_⟩
    exact (hn room (by omega)).bind fun _ => hk room (by omega)

end

/-- In every state there is room enough for a program. -/
theorem Program.exists_room (traced : Bool) (body : Program) (s : State) :
    ∃ n, ∀ room, n ≤ room →
      Ending.outcome (Program.execute traced room body s) ≠ .error .exhausted := by
  obtain ⟨n, hn⟩ := Program.exists_fits traced body s.scope.depth
  exact ⟨n, fun room hroom => (hn room hroom s rfl).1⟩

end Scriptlet
