import Mathlib.Order.Defs.Unbundled
import Scriptlet.Session
import Scriptlet.Proofs.Program.Names

/-!
# What a run may change

Whether it gets to its end or stops on the way, a run leaves the scopes that it found with the names
that they had, in the order that they had. It adds names only to the frame that it started in, and
only names that it declares outside its blocks; and it changes values only of those and of names that
it assigns. It writes after what has been written, and unless it is traced it writes output only.
-/

namespace Scriptlet

namespace Ending

variable {σ α : Type}

/-- How a computation ended: with a value, or stopped. -/
def outcome : EStateM.Result Stop σ α → Except Stop α
  | .ok a _ => .ok a
  | .error stop _ => .error stop

/-- The state that a computation has left, on either way out of it. -/
def state : EStateM.Result Stop σ α → σ
  | .ok _ t | .error _ t => t

end Ending

/-- Whatever state a computation starts in, it leaves one that is related to it. -/
def Leads {σ α : Type} (R : σ → σ → Prop) (x : EStateM Stop σ α) : Prop :=
  ∀ s, R s (Ending.state (x s))

namespace Leads

variable {σ α β : Type} {R R' : σ → σ → Prop}

theorem mono {x : EStateM Stop σ α} (h : Leads R x) (hR : ∀ s t, R s t → R' s t) : Leads R' x :=
  fun s => hR s _ (h s)

theorem pure [Std.Refl R] (a : α) : Leads R (pure a : EStateM Stop σ α) := refl_of R

theorem throw [Std.Refl R] (stop : Stop) : Leads R (throw stop : EStateM Stop σ α) := refl_of R

/-- A sequence that stops in its first part has changed less than one that goes on, so that a
relation needs to be transitive and nothing more. -/
theorem bind [IsTrans σ R] {x : EStateM Stop σ α} {next : α → EStateM Stop σ β} (hx : Leads R x)
    (hnext : ∀ a, Leads R (next a)) : Leads R (x >>= next) := by
  intro s
  have hs := hx s
  change R s (Ending.state (EStateM.bind x next s))
  unfold EStateM.bind
  cases hxs : x s with
  | ok a t =>
    rw [hxs] at hs
    exact trans_of R hs (hnext a t)
  | error stop t =>
    rw [hxs] at hs
    exact hs

end Leads

/-! ## Frames -/

namespace Frame

def names (frame : Frame) : List String := frame.entries.map (·.1)

/-- The names of a frame are those that have a value in it. -/
theorem isSome_find?_iff {frame : Frame} {name : String} :
    (frame.find? name).isSome ↔ name ∈ frame.names := by
  have hnone : frame.find? name = none ↔ name ∉ frame.names := by
    unfold find? names
    rw [List.lookup_eq_none_iff, List.mem_map]
    constructor
    · rintro h ⟨entry, hentry, rfl⟩
      exact bne_iff_ne.1 (h entry hentry) rfl
    · intro h entry hentry
      exact bne_iff_ne.2 fun heq => h ⟨entry, hentry, heq.symm⟩
  rw [Option.isSome_iff_ne_none, ne_eq, hnone, Decidable.not_not]

/-- Binding a name anew keeps its place among the names. -/
theorem names_set_of_isSome {frame : Frame} {name : String} (value : Value)
    (h : (frame.find? name).isSome) : (frame.set name value).names = frame.names := by
  unfold find? at h
  unfold names set
  generalize frame.entries = entries at h
  induction entries with
  | nil => cases h
  | cons entry rest ih =>
    simp only [setEntry]
    split
    · next heq => rw [List.map_cons, List.map_cons, heq]
    · next hne =>
      rw [List.lookup_cons, beq_eq_false_iff_ne.2 (Ne.symm hne)] at h
      rw [List.map_cons, List.map_cons, ih h]

/-- A new name comes last. -/
theorem names_set_of_eq_none {frame : Frame} {name : String} (value : Value)
    (h : frame.find? name = none) : (frame.set name value).names = frame.names ++ [name] := by
  unfold find? at h
  unfold names set
  generalize frame.entries = entries at h
  induction entries with
  | nil => rfl
  | cons entry rest ih =>
    rw [List.lookup_eq_none_iff] at h
    obtain ⟨hne, hrest⟩ := List.forall_mem_cons.1 h
    have hne : entry.1 ≠ name := Ne.symm (bne_iff_ne.1 hne)
    rw [setEntry, if_neg hne, List.map_cons, List.map_cons, ih (List.lookup_eq_none_iff.2 hrest),
      List.cons_append]

/-- What may become of a frame: names of `declared` are added at its end, and values of those and of
`targets` change. -/
structure Changed (declared targets : List String) (f g : Frame) : Prop where
  names : ∃ added, g.names = f.names ++ added ∧ added ⊆ declared
  find? : ∀ x, x ∉ declared → x ∉ targets → g.find? x = f.find? x

variable {declared declared' targets targets' : List String}

theorem Changed.refl (f : Frame) : f.Changed declared targets f :=
  ⟨⟨[], by simp⟩, fun _ _ _ => rfl⟩

theorem Changed.trans {f g h : Frame} (hfg : f.Changed declared targets g)
    (hgh : g.Changed declared targets h) : f.Changed declared targets h := by
  obtain ⟨⟨added, hg, hadded⟩, hfind⟩ := hfg
  obtain ⟨⟨added', hh, hadded'⟩, hfind'⟩ := hgh
  refine ⟨⟨added ++ added', ?_, List.append_subset.2 ⟨hadded, hadded'⟩⟩, fun x hx hx' => ?_⟩
  · rw [hh, hg, List.append_assoc]
  · rw [hfind' x hx hx', hfind x hx hx']

theorem Changed.mono {f g : Frame} (h : f.Changed declared targets g)
    (hdeclared : declared ⊆ declared') (htargets : targets ⊆ targets') :
    f.Changed declared' targets' g := by
  obtain ⟨⟨added, hg, hadded⟩, hfind⟩ := h
  exact ⟨⟨added, hg, List.Subset.trans hadded hdeclared⟩,
    fun x hx hx' => hfind x (fun hmem => hx (hdeclared hmem)) fun hmem => hx' (htargets hmem)⟩

/-- Binding a name that is there changes its value only, as an assignment may. -/
theorem changed_set_of_isSome {f : Frame} {x : String} (value : Value) (h : (f.find? x).isSome) :
    f.Changed [] [x] (f.set x value) := by
  refine ⟨⟨[], by rw [names_set_of_isSome value h, List.append_nil], List.nil_subset _⟩, ?_⟩
  intro z _ hz
  rw [find?_set, if_neg (List.ne_of_not_mem_cons hz)]

/-- Binding a name that may be there or not, as a declaration does. -/
theorem changed_set (f : Frame) (x : String) (value : Value) : f.Changed [x] [] (f.set x value) := by
  refine ⟨?_, fun z hz _ => by rw [find?_set, if_neg (List.ne_of_not_mem_cons hz)]⟩
  cases h : f.find? x with
  | none => exact ⟨[x], names_set_of_eq_none value h, List.Subset.refl _⟩
  | some old =>
    refine ⟨[], ?_, List.nil_subset _⟩
    rw [names_set_of_isSome value (by rw [h]; rfl), List.append_nil]

end Frame

/-! ## Scopes -/

namespace Scope

variable {declared declared' targets targets' : List String}

/-- What may become of a scope. Only its innermost frame may gain names. -/
inductive Changed (targets : List String) : (declared : List String) → Scope → Scope → Prop
  | global {declared : List String} {f g : Frame} :
      f.Changed declared targets g → Changed targets declared (global f) (global g)
  | inner {declared : List String} {f g : Frame} {s t : Scope} :
      f.Changed declared targets g → Changed targets [] s t →
      Changed targets declared (inner f s) (inner g t)

theorem Changed.refl (s : Scope) : s.Changed targets declared s := by
  induction s generalizing declared with
  | global f => exact .global (.refl f)
  | inner f s ih => exact .inner (.refl f) ih

theorem Changed.trans {s t u : Scope} (hst : s.Changed targets declared t)
    (htu : t.Changed targets declared u) : s.Changed targets declared u := by
  induction hst generalizing u with
  | global hfg =>
    cases htu with
    | global hgh => exact .global (hfg.trans hgh)
  | inner hfg _ ih =>
    cases htu with
    | inner hgh htu => exact .inner (hfg.trans hgh) (ih htu)

theorem Changed.mono {s t : Scope} (h : s.Changed targets declared t)
    (htargets : targets ⊆ targets') (hdeclared : declared ⊆ declared') :
    s.Changed targets' declared' t := by
  induction h generalizing declared' with
  | global hfg => exact .global (hfg.mono hdeclared htargets)
  | inner hfg _ ih => exact .inner (hfg.mono hdeclared htargets) (ih (List.Subset.refl _))

/-- A name can be given another value where it has one. -/
theorem isSome_assign? (s : Scope) (x : String) (value : Value) :
    (s.assign? x value).isSome = (s.find? x).isSome := by
  induction s with
  | global f =>
    rw [assign?, find?]
    split
    · next h =>
      rw [h]
      rfl
    · next h =>
      rw [Option.not_isSome_iff_eq_none.1 h]
      rfl
  | inner f s ih =>
    rw [assign?, find?]
    split
    · next h =>
      obtain ⟨old, hold⟩ := Option.isSome_iff_exists.1 h
      rw [hold]
      rfl
    · next h =>
      rw [Option.isSome_map, ih, Option.not_isSome_iff_eq_none.1 h]
      rfl

/-- An assignment adds no name: it changes a value in the frame where the name was found. -/
theorem changed_assign? {s t : Scope} {x : String} {value : Value}
    (h : s.assign? x value = some t) : s.Changed [x] [] t := by
  induction s generalizing t with
  | global f =>
    rw [assign?] at h
    split at h
    · next hbound =>
      cases h
      exact .global (Frame.changed_set_of_isSome value hbound)
    · cases h
  | inner f s ih =>
    rw [assign?] at h
    split at h
    · next hbound =>
      cases h
      exact .inner (Frame.changed_set_of_isSome value hbound) (.refl s)
    · obtain ⟨u, hu, rfl⟩ := Option.map_eq_some_iff.1 h
      exact .inner (.refl f) (ih hu)

theorem changed_define (s : Scope) (x : String) (value : Value) :
    s.Changed [] [x] (s.define x value) := by
  cases s with
  | global f => exact .global (f.changed_set x value)
  | inner f s => exact .inner (f.changed_set x value) (.refl s)

/-- What a block declares is in the frame that goes, and what it assigns may be further out. -/
theorem Changed.leave {s t : Scope} (h : s.enter.Changed targets declared t) :
    s.Changed targets [] t.leave := by
  cases h with
  | inner _ houter => exact houter

instance : IsPreorder Scope (Changed targets declared) where
  refl := .refl
  trans _ _ _ := .trans

end Scope

/-! ## Evaluation -/

namespace Evaluation

variable {targets : List String}

theorem leads_opening {α : Type} {R : Scope → Scope → Prop} [Std.Refl R]
    {inside : Nat → Evaluation α} (levels room : Nat) (h : ∀ room, Leads R (inside room)) :
    Leads R (opening levels room inside) := by
  unfold opening
  split
  · exact h _
  · exact .throw _

theorem leads_blaming {α : Type} {R : Scope → Scope → Prop} [Std.Refl R] (site : Token)
    (result : Except RuntimeCause α) : Leads R (blaming site result) := by
  cases result with
  | ok value => exact .pure value
  | error cause => exact .throw _

theorem leads_read (room : Nat) (name : Token) :
    Leads (Scope.Changed targets []) (Evaluation.read room name) := by
  intro s
  unfold Evaluation.read
  split
  · split
    · exact .refl s
    · exact .refl s
  · exact .refl s

/-- An assignment is a change to its target, or to nothing if there is none. -/
theorem leads_assign (room : Nat) (name : Token) (value : Value) :
    Leads (Scope.Changed [name.lexeme] []) (Evaluation.assign room name value) := by
  intro s
  unfold Evaluation.assign
  split
  · split
    · next h => exact Scope.changed_assign? h
    · exact .refl s
  · exact .refl s

theorem leads_applyUnary (operator : Token) (right : Value) :
    Leads (Scope.Changed targets []) (applyUnary operator right) := by
  refine (leads_blaming operator _).bind fun right => ?_
  cases UnaryOperator.ofKind? operator.kind with
  | none => exact .throw _
  | some op => exact (leads_blaming operator _).bind fun _ => .pure _

theorem leads_applyBinary (left : Value) (operator : Token) (right : Value) :
    Leads (Scope.Changed targets []) (applyBinary left operator right) := by
  refine (leads_blaming operator _).bind fun left => (leads_blaming operator _).bind fun right => ?_
  cases BinaryOperator.ofKind? operator.kind with
  | none => exact .throw _
  | some op => exact (leads_blaming operator _).bind fun _ => .pure _

end Evaluation

open Evaluation in
/-- Evaluating an expression adds no name to any frame. -/
theorem Expr.leads_evaluate (e : Expr) (room : Nat) :
    Leads (Scope.Changed e.targets []) (e.evaluate room) := by
  -- A part may change less than the whole does.
  have widen {α : Type} {x : Evaluation α} {targets more : List String}
      (h : Leads (Scope.Changed targets []) x) (hsub : targets ⊆ more) :
      Leads (Scope.Changed more []) x :=
    h.mono fun _ _ hst => hst.mono hsub (List.Subset.refl _)
  induction e generalizing room with
  | literal value => exact .pure value
  | read name => exact leads_read room name
  | grouping inner ih => exact leads_opening _ _ ih
  | unary operator right ih =>
    exact leads_opening _ _ fun room => (ih room).bind fun right => leads_applyUnary operator right
  | binary left operator right ihleft ihright =>
    refine leads_opening _ _ fun room => ?_
    exact (widen (ihleft room) (List.subset_append_left ..)).bind fun left =>
      (widen (ihright room) (List.subset_append_right ..)).bind fun right =>
        leads_applyBinary left operator right
  | assign name value ih =>
    refine leads_opening _ _ fun inside => ?_
    exact (widen (ih inside) (List.subset_cons_self ..)).bind fun value =>
      (widen (leads_assign room name value) (by simp)).bind fun _ => .pure value

/-! ## Execution -/

/-- What may become of a state. -/
structure State.Changed (traced : Bool) (targets declared : List String) (s t : State) : Prop where
  scope : s.scope.Changed targets declared t.scope
  log : ∃ written, t.log = s.log ++ written ∧
    ∀ e ∈ written, e.channel = .output ∨ traced = true ∧ e.channel = .trace

namespace State.Changed

variable {traced : Bool} {targets targets' declared declared' : List String}

theorem refl (s : State) : s.Changed traced targets declared s :=
  ⟨.refl _, [], by simp⟩

theorem trans {s t u : State} (hst : s.Changed traced targets declared t)
    (htu : t.Changed traced targets declared u) : s.Changed traced targets declared u := by
  obtain ⟨hscope, written, hlog, hwritten⟩ := hst
  obtain ⟨hscope', written', hlog', hwritten'⟩ := htu
  refine ⟨hscope.trans hscope', written ++ written', ?_,
    List.forall_mem_append.2 ⟨hwritten, hwritten'⟩⟩
  rw [hlog', hlog, List.append_assoc]

theorem mono {s t : State} (h : s.Changed traced targets declared t) (htargets : targets ⊆ targets')
    (hdeclared : declared ⊆ declared') : s.Changed traced targets' declared' t :=
  ⟨h.scope.mono htargets hdeclared, h.log⟩

instance : IsPreorder State (State.Changed traced targets declared) where
  refl := .refl
  trans _ _ _ := .trans

end State.Changed

namespace Execution

variable {traced : Bool} {targets declared : List String}

/-- An evaluation inside a statement works on the scopes and leaves what was written. -/
theorem state_evaluating {α : Type} (x : Evaluation α) (s : State) :
    Ending.state (evaluating x s) = { s with scope := Ending.state (x s.scope) } := by
  unfold evaluating
  cases x s.scope <;> rfl

/-- The frame of a block is left on both ways out of it. -/
theorem state_nested {α : Type} (body : Execution α) (s : State) :
    Ending.state (nested body s) =
      let t := Ending.state (body { s with scope := s.scope.enter })
      { t with scope := t.scope.leave } := by
  unfold nested
  cases body { s with scope := s.scope.enter } <;> rfl

theorem leads_evaluating {α : Type} {x : Evaluation α}
    (h : Leads (Scope.Changed targets []) x) :
    Leads (State.Changed traced targets declared) (evaluating x) := by
  intro s
  rw [state_evaluating]
  exact ⟨(h s.scope).mono (List.Subset.refl _) (List.nil_subset declared), [], by simp⟩

theorem leads_opening {α : Type} {R : State → State → Prop} [Std.Refl R]
    {inside : Nat → Execution α} (levels room : Nat) (h : ∀ room, Leads R (inside room)) :
    Leads R (opening levels room inside) := by
  unfold opening
  split
  · exact h _
  · exact .throw _

theorem leads_write_output (line : String) :
    Leads (State.Changed traced targets declared) (write .output line) :=
  fun s => ⟨.refl s.scope, [⟨.output, line⟩], rfl, by simp⟩

/-- Only a run that is traced may write anything but output. -/
theorem leads_announce (form : String) :
    Leads (State.Changed traced targets declared) (announce traced form) := by
  unfold announce
  split
  · next htraced => exact fun s => ⟨.refl s.scope, [⟨.trace, _⟩], rfl, by simp [htraced]⟩
  · exact .pure ()

theorem leads_define (name : Token) (value : Value) :
    Leads (State.Changed traced targets [name.lexeme]) (define name value) :=
  fun s => ⟨(s.scope.changed_define name.lexeme value).mono (List.nil_subset _) (List.Subset.refl _),
    [], (List.append_nil s.log).symm, by simp⟩

/-- Names that are declared in a block are left behind with it. -/
theorem leads_nested {α : Type} {body : Execution α}
    (h : Leads (State.Changed traced targets declared) body) :
    Leads (State.Changed traced targets []) (nested body) := by
  intro s
  obtain ⟨hscope, hlog⟩ := h { s with scope := s.scope.enter }
  rw [state_nested]
  exact ⟨hscope.leave, hlog⟩

end Execution

open Execution in
mutual

/-- What running a statement may change. -/
theorem Stmt.leads_execute (traced : Bool) : (room : Nat) → (s : Stmt) →
    Leads (State.Changed traced s.targets s.declared) (s.execute traced room)
  | _, .expression value =>
    (leads_announce _).bind fun _ => leads_opening _ _ fun room =>
      (leads_evaluating (value.leads_evaluate room)).bind fun _ => .pure ()
  | _, .print value =>
    (leads_announce _).bind fun _ => leads_opening _ _ fun room =>
      (leads_evaluating (value.leads_evaluate room)).bind fun _ => leads_write_output _
  | _, .declare name none =>
    (leads_announce _).bind fun _ => leads_opening _ _ fun _ => leads_define name none
  | _, .declare name (some initial) =>
    (leads_announce _).bind fun _ => leads_opening _ _ fun room =>
      (leads_evaluating (initial.leads_evaluate room)).bind fun value => leads_define name value
  | _, .block body =>
    (leads_announce _).bind fun _ => leads_opening _ _ fun room =>
      leads_nested (Program.leads_execute traced room body)

/-- What running a program may change. -/
theorem Program.leads_execute (traced : Bool) : (room : Nat) → (body : List Stmt) →
    Leads (State.Changed traced (Program.targets body) (Program.declared body))
      (Program.execute traced room body)
  | _, [] => .pure ()
  | room, statement :: rest => by
    have hfirst := (statement.leads_execute traced room).mono fun _ _ h =>
      h.mono (List.subset_append_left _ (Program.targets rest))
        (List.subset_append_left _ (Program.declared rest))
    have hrest := (Program.leads_execute traced room rest).mono fun _ _ h =>
      h.mono (List.subset_append_right statement.targets _)
        (List.subset_append_right statement.declared _)
    exact hfirst.bind fun _ => hrest

end

/-- Whether a lone expression is echoed or executed, it changes what it assigns. -/
theorem Session.leads_perform (debug echo : Bool) (body : Program) :
    Leads (State.Changed debug (Program.targets body) (Program.declared body))
      (Session.perform debug echo body) := by
  unfold Session.perform
  split
  · next value =>
    split
    · have htargets : value.targets ⊆ Program.targets [.expression value] :=
        List.subset_append_left ..
      refine (Execution.leads_evaluating ?_).bind fun _ => Execution.leads_write_output _
      exact (value.leads_evaluate _).mono fun _ _ h => h.mono htargets (List.Subset.refl _)
    · exact Program.leads_execute _ _ _
  · exact Program.leads_execute _ _ _

end Scriptlet
