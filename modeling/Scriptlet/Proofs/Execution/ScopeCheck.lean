import Scriptlet.Proofs.Execution.Room

/-!
# A static scope check

Which variable a program finds unbound can be told from its text and from the names of the globals.
The check goes through a program in the order of evaluation and lists the points at which a run could
stop: uses of variables, and operators. It keeps the names that are bound in each frame, adds a name
where it is declared, and has a frame without names within a block. A use of a name that no frame has
is unresolved.

A run goes through the points of the check in order (`Program.walks_execute`). It gets to the end only
if all of them are resolved; it stops at an unresolved one, or before that at an operator; and what it
gives as its reason tells the two apart.
-/

namespace Scriptlet

/-- The names that are bound in each frame: in the innermost one, and in those around it from the
inside outwards. -/
structure Visible where
  own : List String
  outer : List (List String) := []

namespace Visible

/-- Some frame binds the name. -/
def sees (visible : Visible) (name : String) : Bool :=
  (visible.own :: visible.outer).any (·.contains name)

def enter (visible : Visible) : Visible := { own := [], outer := visible.own :: visible.outer }

def declare (visible : Visible) (name : String) : Visible :=
  { visible with own := name :: visible.own }

end Visible

/-- A point at which a run of a program may stop. -/
inductive Point where
  /-- A variable is read or assigned. It is resolved if some frame binds it. -/
  | use (name : Token) (resolved : Bool)
  /-- An operator is applied. -/
  | operation (operator : Token)

namespace Point

/-- The name at a point, if it is unresolved. -/
def unresolved? : Point → Option Token
  | use name false => some name
  | use _ true | operation _ => none

def unresolved (points : List Point) : List Token := points.filterMap unresolved?

@[simp]
theorem unresolved_append (xs ys : List Point) :
    unresolved (xs ++ ys) = unresolved xs ++ unresolved ys := List.filterMap_append

/-- Operators are points at which a run may stop, but not for an unbound name. -/
@[simp]
theorem unresolved_operation_cons (operator : Token) (points : List Point) :
    unresolved (operation operator :: points) = unresolved points := rfl

/-- Where the first unresolved name is. -/
theorem exists_eq_append_of_head? {points : List Point} {first : Token}
    (h : (unresolved points).head? = some first) :
    ∃ before after, points = before ++ use first false :: after ∧ unresolved before = [] := by
  rw [unresolved, List.head?_filterMap, List.findSome?_eq_some_iff] at h
  obtain ⟨before, point, after, rfl, hpoint, hbefore⟩ := h
  refine ⟨before, after, ?_, List.filterMap_eq_nil_iff.2 hbefore⟩
  unfold unresolved? at hpoint
  split at hpoint
  · cases hpoint
    rfl
  · cases hpoint
  · cases hpoint

end Point

/-- The points of an expression. Both operands come before their operator, and the value of an
assignment before its target. -/
def Expr.points (visible : Visible) : Expr → List Point
  | literal _ => []
  | read name => [.use name (visible.sees name.lexeme)]
  | grouping inner => inner.points visible
  | unary operator right => right.points visible ++ [.operation operator]
  | binary left operator right =>
    left.points visible ++ (right.points visible ++ [.operation operator])
  | assign name value => value.points visible ++ [.use name (visible.sees name.lexeme)]

/-- The names that are bound after a statement. Those of a block are gone with it. -/
def Stmt.visibleAfter (visible : Visible) : Stmt → Visible
  | .declare name _ => visible.declare name.lexeme
  | .expression _ | .print _ | .block _ => visible

mutual

/-- The points of a statement. A name is not yet declared in its own initial value. -/
def Stmt.points (visible : Visible) : Stmt → List Point
  | .expression value | .print value | .declare _ (some value) => value.points visible
  | .declare _ none => []
  | .block body => Program.points visible.enter body

def Program.points (visible : Visible) : List Stmt → List Point
  | [] => []
  | statement :: rest =>
    statement.points visible ++ Program.points (statement.visibleAfter visible) rest

end

/-- The names that are bound after the statements of a program. -/
def Program.visibleAfter (visible : Visible) (body : List Stmt) : Visible :=
  body.foldl Stmt.visibleAfter visible

/-- Statements declare names in the innermost frame only. -/
theorem Program.outer_visibleAfter (visible : Visible) (body : List Stmt) :
    (Program.visibleAfter visible body).outer = visible.outer := by
  induction body generalizing visible with
  | nil => rfl
  | cons statement rest ih =>
    refine (ih (statement.visibleAfter visible)).trans ?_
    cases statement <;> rfl

/-! ## Names and scopes -/

namespace Visible

/-- The names are those that the frames of a scope bind. -/
inductive Describes : Visible → Scope → Prop
  | global {own : List String} {f : Frame} : (∀ x, x ∈ own ↔ x ∈ f.names) →
      Describes ⟨own, []⟩ (.global f)
  | inner {own : List String} {visible : Visible} {f : Frame} {s : Scope} :
      (∀ x, x ∈ own ↔ x ∈ f.names) → Describes visible s →
      Describes ⟨own, visible.own :: visible.outer⟩ (.inner f s)

variable {visible : Visible} {s t : Scope}

/-- The check sees a name exactly where a run finds it. -/
theorem Describes.sees_eq (h : visible.Describes s) (x : String) :
    visible.sees x = (s.find? x).isSome := by
  have hframe {own : List String} {f : Frame} (hown : ∀ x, x ∈ own ↔ x ∈ f.names) :
      own.contains x = (f.find? x).isSome := by
    rw [Bool.eq_iff_iff, List.contains_iff_mem, hown, Frame.isSome_find?_iff]
  induction h with
  | global hown =>
    rw [sees, List.any_cons, List.any_nil, Bool.or_false, hframe hown, Scope.find?]
  | inner hown _ ih =>
    rw [sees, List.any_cons, hframe hown, Scope.find?]
    cases Frame.find? _ x with
    | some value => rfl
    | none => exact ih

/-- What changes only values leaves the names described. -/
theorem Describes.of_changed {targets : List String} (h : visible.Describes s)
    (hchanged : s.Changed targets [] t) : visible.Describes t := by
  have hframe {own targets : List String} {f g : Frame} (hown : ∀ x, x ∈ own ↔ x ∈ f.names)
      (hfg : f.Changed [] targets g) : ∀ x, x ∈ own ↔ x ∈ g.names := by
    obtain ⟨⟨added, hnames, hadded⟩, -⟩ := hfg
    rw [hnames, List.subset_nil.1 hadded, List.append_nil]
    exact hown
  induction h generalizing t with
  | global hown =>
    cases hchanged with
    | global hfg => exact .global (hframe hown hfg)
  | inner hown _ ih =>
    cases hchanged with
    | inner hfg houter => exact .inner (hframe hown hfg) (ih houter)

/-- A name that is declared twice is bound once, and either way it is bound. -/
theorem Describes.define (h : visible.Describes s) (x : String) (value : Value) :
    (visible.declare x).Describes (s.define x value) := by
  have hframe {own : List String} {f : Frame} (hown : ∀ x, x ∈ own ↔ x ∈ f.names) :
      ∀ z, z ∈ x :: own ↔ z ∈ (f.set x value).names := by
    intro z
    rw [← Frame.isSome_find?_iff, Frame.find?_set, List.mem_cons]
    split
    · next hzx => exact iff_of_true (.inl hzx) rfl
    · next hzx => rw [Frame.isSome_find?_iff, ← hown, or_iff_right hzx]
  cases h with
  | global hown => exact .global (hframe hown)
  | inner hown houter => exact .inner (hframe hown) houter

theorem Describes.enter (h : visible.Describes s) : visible.enter.Describes s.enter :=
  .inner (fun _ => Iff.rfl) h

/-- The frames around a block have the names that they had before it. -/
theorem Describes.leave {inside : Visible} (h : inside.Describes t)
    (houter : inside.outer = visible.enter.outer) : visible.Describes t.leave := by
  cases h with
  | global _ => cases houter
  | inner _ hs =>
    obtain ⟨hown, hrest⟩ := List.cons.inj houter
    rcases visible with ⟨own, outer⟩
    rcases hown
    rcases hrest
    exact hs

end Visible

/-! ## Computations that go through points -/

/-- A run may stop at this point for this reason. -/
inductive Point.Stops : Point → RuntimeCause → Token → Prop
  | unresolved (name : Token) : Stops (.use name false) (.undefinedVariable name.lexeme) name
  | operation {operator : Token} {cause : RuntimeCause} :
      cause.OfOperator → Stops (.operation operator) cause operator

/-- How a computation may end that goes through some points in order: after the last of them, in a
state with `After`, when all of them are resolved; at one of them, when those before it are; or for
want of room. -/
inductive Passes {σ α : Type} (points : List Point) (After : σ → Prop) :
    EStateM.Result Stop σ α → Prop
  | ok {a : α} {t : σ} : Point.unresolved points = [] → After t → Passes points After (.ok a t)
  | stopped {before after : List Point} {point : Point} {cause : RuntimeCause} {site : Token}
      {t : σ} : points = before ++ point :: after → Point.unresolved before = [] →
      point.Stops cause site → Passes points After (.error (.fault cause site) t)
  | exhausted {t : σ} : Passes points After (.error .exhausted t)

theorem Passes.of_stops {σ α : Type} {point : Point} {After : σ → Prop} {cause : RuntimeCause}
    {site : Token} {t : σ} (h : point.Stops cause site) :
    Passes [point] After (.error (.fault cause site) t : EStateM.Result Stop σ α) :=
  .stopped (List.nil_append [point]).symm rfl h

/-- From a state with `Before`, a computation goes through the points. -/
def Walks {σ α : Type} (Before : σ → Prop) (points : List Point) (After : σ → Prop)
    (x : EStateM Stop σ α) : Prop :=
  ∀ s, Before s → Passes points After (x s)

namespace Walks

variable {σ α β : Type} {P Q R : σ → Prop} {xs ys : List Point}

theorem pure (a : α) : Walks P [] P (pure a : EStateM Stop σ α) := fun _ hs => .ok rfl hs

theorem exhausted : Walks P xs Q (throw Stop.exhausted : EStateM Stop σ α) :=
  fun _ _ => .exhausted

/-- The points of a sequence are those of its parts, one after the other; the second part goes on
with the names that the first one has left. -/
theorem bind {x : EStateM Stop σ α} {next : α → EStateM Stop σ β} (hx : Walks P xs Q x)
    (hnext : ∀ a, Walks Q ys R (next a)) : Walks P (xs ++ ys) R (x >>= next) := by
  intro s hs
  have hfirst := hx s hs
  change Passes (xs ++ ys) R (EStateM.bind x next s)
  unfold EStateM.bind
  generalize x s = r at hfirst ⊢
  cases hfirst with
  | stopped hpoints hbefore hstops =>
    exact .stopped (by rw [hpoints, List.append_assoc, List.cons_append]) hbefore hstops
  | exhausted => exact .exhausted
  | @ok a t hresolved ht =>
    have hsecond := hnext a t ht
    dsimp only
    generalize next a t = r at hsecond ⊢
    cases hsecond with
    | ok hrest hu => exact .ok (by rw [Point.unresolved_append, hresolved, hrest]; rfl) hu
    | stopped hpoints hbefore hstops =>
      refine .stopped (by rw [hpoints, List.append_assoc]) ?_ hstops
      rw [Point.unresolved_append, hresolved, hbefore]
      rfl
    | exhausted => exact .exhausted

/-- What comes after the last point. -/
theorem bind_nil {x : EStateM Stop σ α} {next : α → EStateM Stop σ β} (hx : Walks P xs Q x)
    (hnext : ∀ a, Walks Q [] R (next a)) : Walks P xs R (x >>= next) := by
  have h := hx.bind hnext
  rwa [List.append_nil] at h

end Walks

/-! ## Evaluation -/

section Operators

variable {α : Type} {operator : Token}

/-- An operator is one point, and no run stops at it for an unbound name. -/
theorem Operates.walks {P : Scope → Prop} {x : Evaluation α} (h : Operates operator x) :
    Walks P [.operation operator] P x := by
  intro s hs
  obtain ⟨a, ha⟩ | ⟨cause, hcause, hstop⟩ := h s
  · rw [ha]
    exact .ok rfl hs
  · rw [hstop]
    exact .of_stops (.operation hcause)

end Operators

namespace Evaluation

variable {visible : Visible}

theorem walks_opening {α : Type} {P Q : Scope → Prop} {points : List Point}
    {inside : Nat → Evaluation α} (levels room : Nat) (h : ∀ room, Walks P points Q (inside room)) :
    Walks P points Q (opening levels room inside) := by
  unfold opening
  split
  · exact h _
  · exact .exhausted

/-- A read is one point. It stops the run if the check does not see the name, and in no other case
but for want of room. -/
theorem walks_read (room : Nat) (name : Token) :
    Walks visible.Describes [.use name (visible.sees name.lexeme)] visible.Describes
      (Evaluation.read room name) := by
  intro s hs
  rw [hs.sees_eq]
  unfold Evaluation.read
  split
  · cases s.find? name.lexeme with
    | some value => exact .ok rfl hs
    | none => exact .of_stops (.unresolved name)
  · exact .exhausted

/-- An assignment is a use like a read: it needs its target to be bound. -/
theorem walks_assign (room : Nat) (name : Token) (value : Value) :
    Walks visible.Describes [.use name (visible.sees name.lexeme)] visible.Describes
      (Evaluation.assign room name value) := by
  intro s hs
  rw [hs.sees_eq, ← s.isSome_assign? name.lexeme value]
  unfold Evaluation.assign
  split
  · cases hassign : s.assign? name.lexeme value with
    | some t => exact .ok rfl (hs.of_changed (Scope.changed_assign? hassign))
    | none => exact .of_stops (.unresolved name)
  · exact .exhausted

end Evaluation

open Evaluation in
/-- Expressions declare nothing, so all their points are checked against the same names. -/
theorem Expr.walks_evaluate (visible : Visible) (e : Expr) (room : Nat) :
    Walks visible.Describes (e.points visible) visible.Describes (e.evaluate room) := by
  induction e generalizing room with
  | literal value => exact .pure value
  | read name => exact walks_read room name
  | grouping inner ih => exact walks_opening _ _ ih
  | unary operator right ih =>
    exact walks_opening _ _ fun room =>
      (ih room).bind fun right => (operates_applyUnary operator right).walks
  | binary left operator right ihleft ihright =>
    exact walks_opening _ _ fun room =>
      (ihleft room).bind fun left => (ihright room).bind fun right =>
        (operates_applyBinary left operator right).walks
  | assign name value ih =>
    exact walks_opening _ _ fun inside =>
      (ih inside).bind fun value => (walks_assign room name value).bind_nil fun _ => .pure value

/-! ## Execution -/

def Visible.DescribesState (visible : Visible) (s : State) : Prop := visible.Describes s.scope

namespace Execution

variable {visible : Visible} {points : List Point}

theorem walks_evaluating {α : Type} {x : Evaluation α}
    (h : Walks visible.Describes points visible.Describes x) :
    Walks visible.DescribesState points visible.DescribesState (evaluating x) := by
  intro s hs
  have hx := h s.scope hs
  unfold evaluating
  generalize x s.scope = r at hx ⊢
  cases hx with
  | ok hresolved ht => exact .ok hresolved ht
  | stopped hpoints hbefore hstops => exact .stopped hpoints hbefore hstops
  | exhausted => exact .exhausted

theorem walks_opening {α : Type} {P Q : State → Prop} {inside : Nat → Execution α}
    (levels room : Nat) (h : ∀ room, Walks P points Q (inside room)) :
    Walks P points Q (opening levels room inside) := by
  unfold opening
  split
  · exact h _
  · exact .exhausted

theorem walks_write (channel : Channel) (line : String) :
    Walks visible.DescribesState [] visible.DescribesState (write channel line) :=
  fun _ hs => .ok rfl hs

theorem walks_announce (traced : Bool) (form : String) :
    Walks visible.DescribesState [] visible.DescribesState (announce traced form) := by
  unfold announce
  split
  · exact walks_write _ _
  · exact .pure ()

/-- A declaration cannot fail, and is no point of its own. -/
theorem walks_define (name : Token) (value : Value) :
    Walks visible.DescribesState [] (visible.declare name.lexeme).DescribesState
      (define name value) :=
  fun _ hs => .ok rfl (hs.define name.lexeme value)

/-- Within a block the check starts with a new frame, and after it the check goes on as if there had
been none. -/
theorem walks_nested {α : Type} {inside : Visible} {body : Execution α}
    (h : Walks visible.enter.DescribesState points inside.DescribesState body)
    (houter : inside.outer = visible.enter.outer) :
    Walks visible.DescribesState points visible.DescribesState (nested body) := by
  intro s hs
  have hbody := h { s with scope := s.scope.enter } hs.enter
  unfold nested
  generalize body { s with scope := s.scope.enter } = r at hbody ⊢
  cases hbody with
  | ok hresolved ht => exact .ok hresolved (ht.leave houter)
  | stopped hpoints hbefore hstops => exact .stopped hpoints hbefore hstops
  | exhausted => exact .exhausted

end Execution

open Execution in
mutual

/-- A name is declared after the points of its initial value. -/
theorem Stmt.walks_execute (traced : Bool) : (room : Nat) → (visible : Visible) → (s : Stmt) →
    Walks visible.DescribesState (s.points visible) (s.visibleAfter visible).DescribesState
      (s.execute traced room)
  | _, visible, .expression value =>
    (walks_announce _ _).bind fun _ => walks_opening _ _ fun room =>
      (walks_evaluating (value.walks_evaluate visible room)).bind_nil fun _ => .pure ()
  | _, visible, .print value =>
    (walks_announce _ _).bind fun _ => walks_opening _ _ fun room =>
      (walks_evaluating (value.walks_evaluate visible room)).bind_nil fun _ => walks_write _ _
  | _, _, .declare name none =>
    (walks_announce _ _).bind fun _ => walks_opening _ _ fun _ => walks_define name none
  | _, visible, .declare name (some initial) =>
    (walks_announce _ _).bind fun _ => walks_opening _ _ fun room =>
      (walks_evaluating (initial.walks_evaluate visible room)).bind_nil fun value =>
        walks_define name value
  | _, visible, .block body =>
    (walks_announce _ _).bind fun _ => walks_opening _ _ fun room =>
      walks_nested (Program.walks_execute traced room visible.enter body)
        (Program.outer_visibleAfter visible.enter body)

/-- A run of a program goes through the points of the check. -/
theorem Program.walks_execute (traced : Bool) : (room : Nat) → (visible : Visible) →
    (body : List Stmt) →
    Walks visible.DescribesState (Program.points visible body)
      (Program.visibleAfter visible body).DescribesState (Program.execute traced room body)
  | _, _, [] => .pure ()
  | room, visible, statement :: rest =>
    (statement.walks_execute traced room visible).bind fun _ =>
      Program.walks_execute traced room (statement.visibleAfter visible) rest

end

/-! ## What the check says of a run -/

namespace Passes

variable {σ α : Type} {points : List Point} {After : σ → Prop} {r : EStateM.Result Stop σ α}

/-- A run gets to its end only through points that are all resolved. -/
theorem unresolved_eq_nil (h : Passes points After r) {a : α} (hok : Ending.outcome r = .ok a) :
    Point.unresolved points = [] := by
  cases h with
  | ok hresolved _ => exact hresolved
  | stopped _ _ _ => cases hok
  | exhausted => cases hok

/-- Only at an unresolved name does a run say that a variable is undefined. -/
theorem head?_unresolved (h : Passes points After r) {stop : Stop} {x : String}
    (hstop : Ending.outcome r = .error stop)
    (hmessage : stop.diagnostic.message = (RuntimeCause.undefinedVariable x).message) :
    ∃ first : Token, (Point.unresolved points).head? = some first ∧ first.lexeme = x ∧
      stop = .fault (.undefinedVariable x) first := by
  cases h with
  | ok _ _ => cases hstop
  | exhausted =>
    cases hstop
    have hhead := RuntimeCause.head?_message_undefinedVariable x
    rw [← hmessage] at hhead
    cases hhead
  | stopped hpoints hbefore hstops =>
    cases hstop
    change RuntimeCause.message _ = _ at hmessage
    cases hstops with
    | unresolved name =>
      obtain rfl := RuntimeCause.message_undefinedVariable_inj hmessage
      refine ⟨_, ?_, rfl, rfl⟩
      rw [hpoints, Point.unresolved_append, hbefore]
      rfl
    | operation hcause =>
      have hhead := RuntimeCause.head?_message_undefinedVariable x
      rw [← hmessage] at hhead
      exact absurd hhead hcause.head?_message

/-- An unresolved name is not passed. -/
theorem exists_stop (h : Passes points After r) {first : Token}
    (hfirst : (Point.unresolved points).head? = some first) :
    ∃ stop, Ending.outcome r = .error stop ∧
      (stop = .exhausted ∨ stop = .fault (.undefinedVariable first.lexeme) first ∨
        ∃ cause operator before between after, stop = .fault cause operator ∧ cause.OfOperator ∧
          points = before ++ .operation operator :: between ++ .use first false :: after ∧
          Point.unresolved (before ++ between) = []) := by
  cases h with
  | ok hresolved _ =>
    rw [hresolved] at hfirst
    cases hfirst
  | exhausted => exact ⟨_, rfl, .inl rfl⟩
  | @stopped before _ _ _ _ _ hpoints hbefore hstops =>
    rw [hpoints, Point.unresolved_append, hbefore, List.nil_append] at hfirst
    refine ⟨_, rfl, .inr ?_⟩
    cases hstops with
    | unresolved name =>
      cases hfirst
      exact .inl rfl
    | operation hcause =>
      rw [Point.unresolved_operation_cons] at hfirst
      obtain ⟨between, after, rfl, hbetween⟩ := Point.exists_eq_append_of_head? hfirst
      refine .inr ⟨_, _, before, between, after, rfl, hcause, ?_, ?_⟩
      · rw [hpoints, List.append_assoc, List.cons_append]
      · rw [Point.unresolved_append, hbefore, hbetween]
        rfl

end Passes

/-- The check predicts which variables a run finds undefined. A run that gets to its end has resolved
every name; one that finds a variable undefined does so at the first unresolved name; and if there is
an unresolved name, a run stops there or, at an operator, before. A run may also stop for want of room,
which it does not do if there is enough. -/
theorem Program.execute_undefined_variable (traced : Bool) (room : Nat) (body : Program)
    (globals : Frame) (log : List Event) :
    let points := Program.points { own := globals.names } body
    let outcome := Ending.outcome
      (Program.execute traced room body { scope := .global globals, log })
    (outcome = .ok () → Point.unresolved points = []) ∧
    (∀ stop x, outcome = .error stop →
      stop.diagnostic.message = "Undefined variable '" ++ x ++ "'." →
      ∃ first : Token, (Point.unresolved points).head? = some first ∧ first.lexeme = x ∧
        stop.diagnostic.line = first.line ∧ stop.diagnostic.lexeme = some first.lexeme) ∧
    (∀ first, (Point.unresolved points).head? = some first →
      ∃ stop, outcome = .error stop ∧
        (stop = .exhausted ∨ stop = .fault (.undefinedVariable first.lexeme) first ∨
          ∃ cause operator before between after, stop = .fault cause operator ∧ cause.OfOperator ∧
            points = before ++ .operation operator :: between ++ .use first false :: after ∧
            Point.unresolved (before ++ between) = [])) ∧
    ∃ enough, ∀ more, enough ≤ more →
      Ending.outcome (Program.execute traced more body { scope := .global globals, log }) ≠
        .error .exhausted := by
  intro points outcome
  have hpasses := Program.walks_execute traced room { own := globals.names } body
    { scope := .global globals, log } (.global fun _ => Iff.rfl)
  refine ⟨hpasses.unresolved_eq_nil, fun stop x hstop hmessage => ?_,
    fun first => hpasses.exists_stop, Program.exists_room traced body _⟩
  obtain ⟨first, hfirst, hname, rfl⟩ := hpasses.head?_unresolved hstop hmessage
  exact ⟨first, hfirst, hname, rfl, rfl⟩

/-- A name is unresolved in its own initial value, and again after the block that declares it. A run
stops at the first of the two. -/
theorem Program.execute_undefined_variable_initial :
    let a : Token := { kind := .identifier, lexeme := "a" }
    let b : Token := { kind := .identifier, lexeme := "b", line := 1 }
    let later : Token := { kind := .identifier, lexeme := "b", line := 2 }
    let plus : Token := { kind := .plus, lexeme := "+" }
    let body : Program :=
      [.block [.declare b (some (.binary (.read a) plus (.read b))), .print (.read b)],
        .expression (.assign later (.assign a (.read a)))]
    let globals : Frame := { entries := [("a", some (.boolean true))] }
    let points := Program.points { own := globals.names } body
    let outcome := Ending.outcome
      (Program.execute false Nesting.running body { scope := .global globals })
    Point.unresolved points = [b, later] ∧ outcome ≠ .ok () ∧
      ∃ stop, outcome = .error stop ∧ stop = .fault (.undefinedVariable "b") b ∧
        stop.diagnostic.line = b.line ∧ stop.diagnostic.lexeme = some "b" := by
  intro a b later plus body globals points outcome
  have hpoints : Point.unresolved points = [b, later] := by decide +kernel
  have hstop : outcome = .error (.fault (.undefinedVariable "b") b) := by rfl
  obtain ⟨hok, hundefined, -⟩ :=
    Program.execute_undefined_variable false Nesting.running body globals []
  obtain ⟨first, hfirst, -, hline, hlexeme⟩ := hundefined _ "b" hstop rfl
  rw [hpoints] at hfirst
  cases hfirst
  refine ⟨hpoints, fun houtcome => ?_, _, hstop, rfl, hline, hlexeme⟩
  cases hpoints.symm.trans (hok houtcome)

end Scriptlet
