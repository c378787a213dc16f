import Scriptlet.Proofs.Execution.Composition

/-!
# What a trace adds to a run

A run that is traced says which statement it is about to run, and does nothing else that a run without
a trace does not do. So taking the lines of the trace out of what a traced run writes leaves what the
other run writes (`Execution.carries_untraced`). The lines themselves are the forms of the statements,
a block before its contents, up to the statement that stops the run (`Program.announces_execute`).
-/

namespace Scriptlet

/-! ## Lines of a trace -/

namespace Event

/-- What was written, without the lines that show a run from inside. -/
def untraced (log : List Event) : List Event := log.filter (·.channel != .trace)

/-- The line that says which form is about to run. -/
def announcement (form : String) : Event := ⟨.trace, "Executing: " ++ form⟩

/-- Whether a line of a trace says that something is about to run. -/
def isAnnouncement (e : Event) : Bool :=
  e.channel == .trace && "Executing: ".toList.isPrefixOf e.line.toList

theorem untraced_append (xs ys : List Event) : untraced (xs ++ ys) = untraced xs ++ untraced ys :=
  List.filter_append ..

theorem untraced_eq_nil {log : List Event} (h : ∀ e ∈ log, e.channel = .trace) :
    untraced log = [] := by
  refine List.filter_eq_nil_iff.2 ?_
  intro e he
  rw [h e he]
  decide

theorem untraced_eq_self {log : List Event} (h : ∀ e ∈ log, e.channel ≠ .trace) :
    untraced log = log := by
  refine List.filter_eq_self.2 ?_
  intro e he
  exact bne_iff_ne.2 (h e he)

/-- Channels other than the trace show the same text without it. -/
theorem text_untraced {channels : List Channel} (h : .trace ∉ channels) (log : List Event) :
    text channels (untraced log) = text channels log := by
  have hfilter : (untraced log).filter (channels.contains ·.channel) =
      log.filter (channels.contains ·.channel) := by
    rw [untraced, List.filter_filter]
    refine List.filter_congr ?_
    intro e _
    by_cases htrace : e.channel = .trace
    · simp [htrace, h]
    · simp [htrace]
  rw [text, hfilter, text]

theorem isAnnouncement_announcement (form : String) : (announcement form).isAnnouncement = true := by
  simp [announcement, isAnnouncement]

end Event

open Event (untraced announcement isAnnouncement)

/-- A traced run against the same run without a trace. -/
theorem Execution.carries_untraced : Carries id untraced true false where
  announce form := by
    intro s
    have hline : untraced (s.log ++ [announcement form]) = untraced s.log := by
      rw [Event.untraced_append]
      exact List.append_nil _
    change EStateM.Result.ok () (⟨s.scope, untraced s.log⟩ : State) =
      EStateM.Result.ok () ⟨s.scope, untraced (s.log ++ [announcement form])⟩
    rw [hline]
  print line := moves_write fun log => Event.untraced_append log [⟨.output, line⟩]

/-! ## The forms of statements -/

mutual

/-- The forms of a statement and of all that it contains, in the order in which they are met. -/
def Stmt.forms : Stmt → List String
  | .expression value => [(Stmt.expression value).form]
  | .print value => [(Stmt.print value).form]
  | .declare name initial => [(Stmt.declare name initial).form]
  | .block body => (Stmt.block body).form :: Program.forms body

def Program.forms : List Stmt → List String
  | [] => []
  | statement :: rest => statement.forms ++ Program.forms rest

end

def State.announced (s : State) : List Event := s.log.filter isAnnouncement

/-- From a state, a computation has announced these forms, or the first of them if it was
stopped. -/
def Ending.Announced {α : Type} (forms : List String) (s : State) : EStateM.Result Stop State α → Prop
  | .ok _ t => t.announced = s.announced ++ forms.map announcement
  | .error _ t => ∃ told, told <+: forms ∧ t.announced = s.announced ++ told.map announcement

/-- A computation announces these forms, one after the other, until it ends or is stopped. -/
def Announces {α : Type} (forms : List String) (x : Execution α) : Prop :=
  ∀ s, Ending.Announced forms s (x s)

namespace Announces

variable {α β : Type} {forms forms' : List String}

theorem pure (a : α) : Announces [] (pure a) := fun _ => (List.append_nil _).symm

/-- Being stopped at once is announcing nothing, which is a first piece of any list. -/
theorem throw (stop : Stop) : Announces (α := α) forms (throw stop) :=
  fun _ => ⟨[], List.nil_prefix, (List.append_nil _).symm⟩

/-- If the first part stops, what it has announced is also a first piece of the whole list. -/
theorem bind {x : Execution α} {next : α → Execution β} (hx : Announces forms x)
    (hnext : ∀ a, Announces forms' (next a)) : Announces (forms ++ forms') (x >>= next) := by
  intro s
  have hs := hx s
  change Ending.Announced (forms ++ forms') s (EStateM.bind x next s)
  unfold EStateM.bind
  cases hxs : x s with
  | error stop t =>
    rw [hxs] at hs
    obtain ⟨told, htold, hannounced⟩ := hs
    exact ⟨told, htold.trans (List.prefix_append ..), hannounced⟩
  | ok a t =>
    rw [hxs] at hs
    have ht := hnext a t
    change t.announced = _ at hs
    change Ending.Announced (forms ++ forms') s (next a t)
    cases hat : next a t with
    | ok b u =>
      rw [hat] at ht
      change u.announced = _ at ht
      change u.announced = _
      rw [ht, hs, List.map_append, List.append_assoc]
    | error stop u =>
      rw [hat] at ht
      obtain ⟨told, htold, hannounced⟩ := ht
      refine ⟨forms ++ told, (List.prefix_append_right_inj _).2 htold, ?_⟩
      rw [hannounced, hs, List.map_append, List.append_assoc]

end Announces

namespace Execution

variable {α : Type} {forms : List String}

theorem announces_evaluating (x : Evaluation α) : Announces [] (evaluating x) := by
  intro s
  unfold evaluating
  cases x s.scope with
  | ok a scope => exact (List.append_nil _).symm
  | error stop scope => exact ⟨[], List.nil_prefix, (List.append_nil _).symm⟩

theorem announces_opening {inside : Nat → Execution α} (levels room : Nat)
    (h : ∀ room, Announces forms (inside room)) : Announces forms (opening levels room inside) := by
  unfold opening
  split
  · exact h _
  · exact .throw _

/-- What is printed is no announcement, whatever it says, since it is not part of the trace. -/
theorem announces_print (line : String) : Announces [] (write .output line) := by
  intro s
  exact List.filter_append ..

theorem announces_define (name : Token) (value : Value) : Announces [] (define name value) :=
  fun _ => (List.append_nil _).symm

theorem announces_announce (form : String) : Announces [form] (announce true form) := by
  intro s
  change (s.log ++ [announcement form]).filter isAnnouncement = _
  rw [List.filter_append, List.filter_cons_of_pos (Event.isAnnouncement_announcement form)]
  rfl

/-- The frame of a block does not show in the trace. -/
theorem announces_nested {body : Execution α} (h : Announces forms body) :
    Announces forms (nested body) := by
  intro s
  have hs := h { s with scope := s.scope.enter }
  unfold nested
  cases hbody : body { s with scope := s.scope.enter } <;> rw [hbody] at hs <;> exact hs

end Execution

open Execution in
mutual

/-- A statement is announced before it does anything, so the one that stops the run is the last. -/
theorem Stmt.announces_execute : (room : Nat) → (s : Stmt) →
    Announces s.forms (s.execute true room)
  | _, .expression value =>
    (announces_announce _).bind fun _ => announces_opening _ _ fun room =>
      (announces_evaluating (value.evaluate room)).bind fun _ => .pure ()
  | _, .print value =>
    (announces_announce _).bind fun _ => announces_opening _ _ fun room =>
      (announces_evaluating (value.evaluate room)).bind fun value => announces_print value.display
  | _, .declare name none =>
    (announces_announce _).bind fun _ => announces_opening _ _ fun _ => announces_define name none
  | _, .declare name (some initial) =>
    (announces_announce _).bind fun _ => announces_opening _ _ fun room =>
      (announces_evaluating (initial.evaluate room)).bind fun value => announces_define name value
  | _, .block body =>
    (announces_announce _).bind fun _ => announces_opening _ _ fun room =>
      announces_nested (Program.announces_execute room body)

/-- The statements of a program are announced one after the other, each with what it contains. -/
theorem Program.announces_execute : (room : Nat) → (body : List Stmt) →
    Announces (Program.forms body) (Program.execute true room body)
  | _, [] => .pure ()
  | room, statement :: rest =>
    (statement.announces_execute room).bind fun _ => Program.announces_execute room rest

end

end Scriptlet
