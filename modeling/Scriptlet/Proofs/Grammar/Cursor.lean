import Mathlib.Data.List.TakeWhile
import Scriptlet.Program.Cursor
import Scriptlet.Proofs.Grammar.FirstFault

/-!
# The cursor stays among the tokens

A cursor before the tokens `s` does what the rule of the same name does on `s`, and then stands before
the tokens that the rule leaves (`Layout.follows_call`). As every token is looked up at its position,
this needs that the position is that of a token, and as every loop counts its turns, that each turn
takes a token. Both are carried through sequences by one relation between readers and rules
(`Layout.Follows`), which counts the tokens that are taken at least.

Whatever calls were made before, also failing ones, the cursor therefore stands at or before the
first end mark, and a call moves it on towards that mark (`call_safe`).
-/

namespace Scriptlet

namespace Cursor

open Grammar

variable {α β : Type}

/-! ## Safe calls -/

/-- A cursor that has moved on over the same tokens, at most to the first end mark. -/
structure Moves (c d : Cursor) : Prop where
  tokens_eq : d.tokens = c.tokens
  le_current : c.current ≤ d.current
  current_le : d.current ≤ d.tokens.toList.findIdx (·.kind == .eof)

/-- A call moves the cursor on and reads a phrase, of at least one token unless it is a program, or
blames one of the tokens, or has no level left to open. No token is looked up outside the tokens, and
no loop outlasts its turns. -/
inductive Safe (c : Cursor) (name : Name) : EStateM.Result Halt Cursor name.Phrase → Prop
  | reads {phrase : name.Phrase} {d : Cursor} (hmoves : Moves c d)
      (htaken : name ≠ .program → c.current < d.current) : Safe c name (.ok phrase d)
  | blames {cause : SyntaxFault.Cause} {token : Token} {d : Cursor} (hmoves : Moves c d)
      (htoken : token ∈ d.tokens) : Safe c name (.error (.fault cause token) d)
  | exhausted {d : Cursor} (hmoves : Moves c d) : Safe c name (.error .exhausted d)

/-! ## Sequences of readers -/

theorem bind_of_ok {m : Reader α} {next : α → Reader β} {c d : Cursor} {a : α}
    (h : m c = .ok a d) : (m >>= next) c = next a d := by
  change EStateM.bind m next c = _
  unfold EStateM.bind
  rw [h]

theorem bind_of_error {m : Reader α} {next : α → Reader β} {c d : Cursor} {halt : Halt}
    (h : m c = .error halt d) : (m >>= next) c = .error halt d := by
  change EStateM.bind m next c = _
  unfold EStateM.bind
  rw [h]

theorem look_of_getElem? {c : Cursor} {position : Nat} {token : Token}
    (h : c.tokens[position]? = some token) : look position c = .ok token c := by
  unfold look
  rw [if_neg (Int.not_lt.2 (Int.natCast_nonneg position)), Int.toNat_natCast, h]

/-! ## Where the tokens ahead begin -/

/-- Closed tokens: those before the first end mark, the mark, and the tokens after it. -/
structure Layout where
  body : List Token
  mark : Token
  later : List Token
  kind_of_mem_body : ∀ token ∈ body, token.kind ≠ .eof
  kind_mark : mark.kind = .eof

namespace Layout

variable {l : Layout} {s t : List Token} {token : Token}

def tokens (l : Layout) : Array Token := (l.body ++ l.mark :: l.later).toArray

/-- The cursor that has the tokens `s` of the body ahead. -/
def before (l : Layout) (s : List Token) : Cursor :=
  { tokens := l.tokens, current := l.body.length - s.length }

/-- With nothing of the body ahead, the cursor stands at the end mark, which it never leaves. -/
theorem getElem?_current (hs : s <:+ l.body) :
    (l.before s).tokens[(l.before s).current]? = some (s.head?.getD l.mark) := by
  obtain ⟨taken, hbody⟩ := hs
  have hcurrent : (l.before s).current = taken.length := by
    simp [before, ← hbody]
  rw [hcurrent]
  change l.tokens[taken.length]? = _
  rw [tokens, ← hbody, List.getElem?_toArray, List.append_assoc,
    List.getElem?_append_right (Nat.le_refl _), Nat.sub_self]
  cases s <;> rfl

theorem current_of_cons (hs : token :: s <:+ l.body) :
    (l.before s).current = (l.before (token :: s)).current + 1 := by
  have hlength := hs.length_le
  simp only [before, List.length_cons] at hlength ⊢
  omega

theorem peek_before (hs : s <:+ l.body) :
    peek (l.before s) = .ok (s.head?.getD l.mark) (l.before s) :=
  look_of_getElem? (getElem?_current hs)

/-- After a token is taken it is the previous one. -/
theorem previous_before (hs : token :: s <:+ l.body) :
    previous (l.before s) = .ok token (l.before s) := by
  have hposition : ((l.before s).current : Int) - 1 = ((l.before (token :: s)).current : Nat) := by
    rw [current_of_cons hs]
    omega
  change look ((l.before s).current - 1) (l.before s) = _
  rw [hposition]
  exact look_of_getElem? (getElem?_current hs)

theorem kind_beq_eof (hs : token :: s <:+ l.body) : (token.kind == .eof) = false :=
  beq_eq_false_iff_ne.2 (l.kind_of_mem_body token (hs.subset List.mem_cons_self))

theorem atEnd_before (hs : s <:+ l.body) : atEnd (l.before s) = .ok s.isEmpty (l.before s) := by
  unfold atEnd
  rw [bind_of_ok (peek_before hs)]
  cases s with
  | nil => exact congrArg (EStateM.Result.ok · _) (beq_iff_eq.2 l.kind_mark)
  | cons token s => exact congrArg (EStateM.Result.ok · _) (kind_beq_eof hs)

/-- At the end mark nothing is found, whatever kind is looked for. -/
theorem check_before (kind : Token.Kind) (hs : s <:+ l.body) :
    check kind (l.before s) = .ok (s.head?.any (·.kind == kind)) (l.before s) := by
  unfold check
  rw [bind_of_ok (atEnd_before hs)]
  cases s with
  | nil => rfl
  | cons token s => exact bind_of_ok (peek_before hs)

theorem advance_before (hs : token :: s <:+ l.body) :
    advance (l.before (token :: s)) = .ok token (l.before s) := by
  unfold advance
  rw [bind_of_ok (atEnd_before hs)]
  have hmoved : { l.before (token :: s) with current := (l.before (token :: s)).current + 1 } =
      l.before s := by
    rw [← current_of_cons hs]
    rfl
  change previous { l.before (token :: s) with current := _ } = _
  rw [hmoved]
  exact previous_before hs

theorem accept?_before_of_mem {kinds : List Token.Kind} (hs : token :: s <:+ l.body)
    (h : token.kind ∈ kinds) :
    accept? kinds (l.before (token :: s)) = .ok (some token) (l.before s) := by
  induction kinds with
  | nil => cases h
  | cons kind kinds ih =>
    unfold accept?
    rw [bind_of_ok (check_before kind hs)]
    by_cases hkind : token.kind = kind
    · simp only [List.head?_cons, Option.any_some, hkind, beq_self_eq_true, ↓reduceIte]
      rw [bind_of_ok (advance_before hs)]
      rfl
    · simp only [List.head?_cons, Option.any_some, beq_eq_false_iff_ne.2 hkind]
      exact ih ((List.mem_cons.1 h).resolve_left hkind)

theorem any_kind_of_stops {kinds : List Token.Kind} {kind : Token.Kind} (h : Rule.Stops kinds s)
    (hkind : kind ∈ kinds) : s.head?.any (·.kind == kind) = false := by
  cases s with
  | nil => rfl
  | cons token s =>
    refine beq_eq_false_iff_ne.2 fun he => Rule.stops_cons.1 h ?_
    rwa [he]

/-- What is not taken leaves the cursor where it was. -/
theorem accept?_before_of_stops {kinds : List Token.Kind} (hs : s <:+ l.body)
    (h : Rule.Stops kinds s) : accept? kinds (l.before s) = .ok none (l.before s) := by
  induction kinds with
  | nil => rfl
  | cons kind kinds ih =>
    unfold accept?
    rw [bind_of_ok (check_before kind hs), any_kind_of_stops h List.mem_cons_self]
    exact ih (h.mono (List.subset_cons_self kind kinds))

/-! ## Readers that follow rules -/

/-- How a reader halts where a rule fails. -/
def halt (l : Layout) (fault : SyntaxFault) : Halt :=
  if fault.cause = .shallowerNesting then .exhausted
  else .fault fault.cause (fault.site.getD l.mark)

/-- Before the tokens `s`, a reader ends as a rule does. What is read took at least `least` tokens,
and the token that is blamed is one of the body or its end mark. -/
inductive Agrees (l : Layout) (least : Nat) (s : List Token) :
    EStateM.Result Halt Cursor α → EStateM.Result SyntaxFault (List Token) α → Prop
  | ok {a : α} {t : List Token} (hsuffix : t <:+ s) (htaken : t.length + least ≤ s.length) :
      Agrees l least s (.ok a (l.before t)) (.ok a t)
  | error {fault : SyntaxFault} {t : List Token} (hsuffix : t <:+ s)
      (hsite : ∀ site ∈ fault.site, site ∈ l.body) :
      Agrees l least s (.error (l.halt fault) (l.before t)) (.error fault t)

/-- Wherever it starts, the reader ends as the rule does. -/
def Follows (l : Layout) (least : Nat) (m : Reader α) (r : Rule α) : Prop :=
  ∀ s, s <:+ l.body → Agrees l least s (m (l.before s)) (r s)

variable {least first : Nat} {m : Reader α} {r : Rule α} {next : α → Reader β}
  {next' : α → Rule β}

/-- Tokens taken earlier count too. -/
theorem Agrees.after {x : EStateM.Result Halt Cursor α}
    {y : EStateM.Result SyntaxFault (List Token) α} {more : Nat} (h : Agrees l more t x y)
    (hsuffix : t <:+ s) (htaken : t.length + first ≤ s.length) (hleast : least ≤ first + more) :
    Agrees l least s x y := by
  cases h with
  | ok hrest hmore => exact .ok (hrest.trans hsuffix) (by omega)
  | error hrest hsite => exact .error (hrest.trans hsuffix) hsite

/-- What the first part takes counts towards what the whole takes at least. -/
theorem Agrees.bind (h : Agrees l first s (m (l.before s)) (r s))
    (hnext : ∀ a t, t <:+ s → t.length + first ≤ s.length →
      Agrees l (least - first) t (next a (l.before t)) (next' a t)) :
    Agrees l least s ((m >>= next) (l.before s)) ((r >>= next') s) := by
  generalize hm : m (l.before s) = x at h
  generalize hr : r s = y at h
  cases h with
  | ok hsuffix htaken =>
    rw [bind_of_ok hm, Rule.bind_of_ok hr]
    exact (hnext _ _ hsuffix htaken).after hsuffix htaken (by omega)
  | error hsuffix hsite =>
    rw [bind_of_error hm, Rule.bind_apply, hr]
    exact .error hsuffix hsite

theorem Follows.bind (h : Follows l first m r)
    (hnext : ∀ a, Follows l (least - first) (next a) (next' a)) :
    Follows l least (m >>= next) (r >>= next') :=
  fun s hs => (h s hs).bind fun a t ht _ => hnext a t (ht.trans hs)

theorem Follows.mono {more : Nat} (h : Follows l more m r) (hle : least ≤ more) :
    Follows l least m r :=
  fun s hs => (h s hs).after (List.suffix_refl s) (Nat.le_refl (s.length + 0)) (by omega)

theorem follows_pure (a : α) : Follows l 0 (pure a) (pure a) :=
  fun s _ => .ok (List.suffix_refl s) (Nat.le_refl _)

theorem follows_exhausted : Follows l least (throw .exhausted : Reader α) Grammar.exhausted := by
  intro s hs
  change Agrees l least s (.error (l.halt ⟨.shallowerNesting, s.head?⟩) (l.before s)) (.error _ s)
  exact .error (List.suffix_refl s) fun _ hsite => hs.subset (List.mem_of_mem_head? hsite)

/-- A rule blames the next token or none, and the cursor blames the end mark where there is none. -/
theorem follows_fail {cause : SyntaxFault.Cause} (hcause : cause ≠ .shallowerNesting) :
    Follows l least (fail cause : Reader α) (Rule.fail cause) := by
  intro s hs
  have hhalt : (fail cause : Reader α) (l.before s) =
      .error (l.halt ⟨cause, s.head?⟩) (l.before s) := by
    unfold fail halt
    rw [bind_of_ok (peek_before hs), if_neg hcause]
    rfl
  rw [hhalt]
  exact .error (List.suffix_refl s) fun _ hsite => hs.subset (List.mem_of_mem_head? hsite)

theorem follows_throw {cause : SyntaxFault.Cause} (hcause : cause ≠ .shallowerNesting)
    (htoken : token ∈ l.body) :
    Follows l least (throw (.fault cause token) : Reader α) (throw ⟨cause, some token⟩) := by
  intro s _
  have hhalt : Halt.fault cause token = l.halt ⟨cause, some token⟩ := (if_neg hcause).symm
  rw [hhalt]
  refine .error (List.suffix_refl s) fun site hsite => ?_
  cases hsite
  exact htoken

/-- What is done after a token was taken has that token to its credit. -/
theorem follows_accept? {kinds : List Token.Kind} {next : Option Token → Reader β}
    {next' : Option Token → Rule β}
    (hsome : ∀ token ∈ l.body, Follows l (least - 1) (next (some token)) (next' (some token)))
    (hnone : Follows l least (next none) (next' none)) :
    Follows l least (accept? kinds >>= next) (Rule.accept? kinds >>= next') := by
  intro s hs
  obtain ⟨token, u, rfl, hkind, haccept⟩ | ⟨hstops, haccept⟩ := Rule.accept?_cases kinds s
  · rw [bind_of_ok (accept?_before_of_mem hs hkind), Rule.bind_of_ok haccept]
    have hu : u <:+ token :: u := List.suffix_cons token u
    have hagrees := hsome token (hs.subset List.mem_cons_self) u (hu.trans hs)
    exact hagrees.after hu (Nat.le_refl _) (by omega)
  · rw [bind_of_ok (accept?_before_of_stops hs hstops), Rule.bind_of_ok haccept]
    exact hnone s hs

/-- Expecting a token takes one or fails, so it is what makes most phrases take a token. -/
theorem follows_expect (kind : Token.Kind) {cause : SyntaxFault.Cause}
    (hcause : cause ≠ .shallowerNesting) :
    Follows l 1 (expect kind cause) (Rule.expect kind cause) := by
  intro s hs
  unfold expect Rule.expect
  rw [bind_of_ok (check_before kind hs)]
  obtain ⟨token, u, rfl, hkind, haccept⟩ | ⟨hstops, haccept⟩ := Rule.accept?_cases [kind] s
  · simp only [List.head?_cons, Option.any_some, List.mem_singleton.1 hkind, beq_self_eq_true,
      ↓reduceIte]
    rw [advance_before hs, Rule.bind_of_ok haccept]
    exact .ok (List.suffix_cons token u) (Nat.le_refl _)
  · rw [any_kind_of_stops hstops List.mem_cons_self, Rule.bind_of_ok haccept]
    exact follows_fail hcause s hs

/-! ## Loops -/

/-- The loop before a phrase is over at the end of the tokens and at a token of kind `stop`. -/
def StopsAt (l : Layout) (stops : Reader Bool) (stop : Token.Kind) : Prop :=
  ∀ s, s <:+ l.body → stops (l.before s) = .ok (s.head?.all (·.kind == stop)) (l.before s)

theorem stopsAt_atEnd : StopsAt l atEnd .eof := by
  intro s hs
  rw [atEnd_before hs]
  cases s with
  | nil => rfl
  | cons token s => exact congrArg (EStateM.Result.ok · _) (kind_beq_eof hs).symm

/-- A block is over at its closing brace, or at the end of the tokens if that is missing. -/
theorem stopsAt_check (kind : Token.Kind) :
    StopsAt l (do if ← check kind then pure true else atEnd) kind := by
  intro s hs
  rw [bind_of_ok (check_before kind hs)]
  cases s with
  | nil => exact atEnd_before hs
  | cons token s =>
    by_cases hkind : token.kind = kind
    · simp only [List.head?_cons, Option.any_some, Option.all_some, hkind, beq_self_eq_true,
        ↓reduceIte]
      rfl
    · simp only [List.head?_cons, Option.any_some, Option.all_some, beq_eq_false_iff_ne.2 hkind]
      exact atEnd_before hs

/-- A loop that is over does not use up its turns. -/
theorem manyWithin_of_stops {stops : Reader Bool} {c : Cursor} (h : stops c = .ok true c)
    (turns : Nat) : manyWithin stops m turns c = .ok [] c := by
  cases turns <;> (unfold manyWithin; rw [bind_of_ok h]; rfl)

/-- A loop that takes a token at each turn ends before its turns do. -/
theorem agrees_manyWithin {stops : Reader Bool} {stop : Token.Kind} (hstops : StopsAt l stops stop)
    (hphrase : Follows l 1 m r) {bound turns : Nat} (hs : s <:+ l.body)
    (hbound : s.length ≤ bound) (hturns : s.length ≤ turns) :
    Agrees l 0 s (manyWithin stops m turns (l.before s)) (Rule.manyBounded stop r bound s) := by
  induction bound generalizing s turns with
  | zero =>
    obtain rfl : s = [] := List.length_eq_zero_iff.1 (by omega)
    rw [manyWithin_of_stops (hstops [] hs)]
    exact .ok (List.suffix_refl _) (Nat.le_refl _)
  | succ bound ih =>
    by_cases hall : s.head?.all (·.kind == stop)
    · have hkind : ∀ token ∈ s.head?, token.kind = stop := by
        intro token htoken
        rw [htoken, Option.all_some] at hall
        exact beq_iff_eq.1 hall
      rw [manyWithin_of_stops (by rw [hstops s hs, hall]), Rule.manyBounded_of_stop hkind]
      exact .ok (List.suffix_refl s) (Nat.le_refl _)
    · cases s with
      | nil => exact absurd rfl hall
      | cons token u =>
        obtain ⟨turns, rfl⟩ : ∃ k, turns = k + 1 := ⟨turns - 1, by simp at hturns; omega⟩
        have hkind : token.kind ≠ stop := by simpa using hall
        unfold manyWithin Rule.manyBounded
        rw [bind_of_ok (hstops _ hs), Rule.bind_of_ok (Rule.next?_apply _)]
        simp only [List.head?_cons, Option.all_some, Option.map_some, beq_eq_false_iff_ne.2 hkind,
          hkind, Bool.false_eq_true, ↓reduceIte]
        -- The phrase takes a token, so the rest of the loop fits into one turn less.
        refine (hphrase _ hs).bind fun a t ht htaken => ?_
        refine (ih (ht.trans hs) (by omega) (by omega)).bind fun rest v _ _ => ?_
        exact .ok (List.suffix_refl v) (Nat.le_refl _)

theorem length_le_size (hs : s <:+ l.body) : s.length ≤ (l.before s).tokens.size := by
  have hlength := hs.length_le
  simp only [before, tokens, List.size_toArray, List.length_append]
  omega

/-- There are as many turns as tokens and each takes one, so the turns never run out first. -/
theorem follows_many {stops : Reader Bool} {stop : Token.Kind} (hstops : StopsAt l stops stop)
    (hphrase : Follows l 1 m r) : Follows l 0 (many stops m) (Rule.many stop r) :=
  fun _ hs => agrees_manyWithin hstops hphrase hs (Nat.le_refl _) (length_le_size hs)

section Chains

variable {operators : List Token.Kind} {operand : Reader Expr} {operand' : Rule Expr}

theorem chainWithin_of_stops (hs : s <:+ l.body) (h : Rule.Stops operators s) (turns : Nat)
    (left : Expr) : chainWithin operators operand turns left (l.before s) = .ok left (l.before s) := by
  cases turns <;> (unfold chainWithin; rw [bind_of_ok (accept?_before_of_stops hs h)]; rfl)

/-- Every turn of a chain takes an operator. -/
theorem agrees_chainWithin (hoperand : Follows l 1 operand operand') {bound turns : Nat}
    (hs : s <:+ l.body) (hbound : s.length ≤ bound) (hturns : s.length ≤ turns) (left : Expr) :
    Agrees l 0 s (chainWithin operators operand turns left (l.before s))
      (Rule.chainBounded operators operand' bound left s) := by
  induction bound generalizing s turns left with
  | zero =>
    obtain rfl : s = [] := List.length_eq_zero_iff.1 (by omega)
    rw [chainWithin_of_stops hs (Rule.stops_nil operators)]
    exact .ok (List.suffix_refl _) (Nat.le_refl _)
  | succ bound ih =>
    obtain ⟨operator, u, rfl, hkind, haccept⟩ | ⟨hstops, -⟩ := Rule.accept?_cases operators s
    · simp only [List.length_cons] at hbound hturns
      obtain ⟨turns, rfl⟩ : ∃ k, turns = k + 1 := ⟨turns - 1, by omega⟩
      unfold chainWithin Rule.chainBounded
      rw [bind_of_ok (accept?_before_of_mem hs hkind), Rule.bind_of_ok haccept]
      have hu : u <:+ operator :: u := List.suffix_cons operator u
      refine Agrees.after ?_ hu (Nat.le_refl _) (Nat.zero_le (1 + 0))
      refine (hoperand u (hu.trans hs)).bind fun right t ht htaken => ?_
      exact ih ((ht.trans hu).trans hs) (by omega) (by omega) (.binary left operator right)
    · rw [chainWithin_of_stops hs hstops, Rule.chainBounded_of_stops hstops]
      exact .ok (List.suffix_refl s) (Nat.le_refl _)

/-- An operand is read before the loop, and it takes a token. -/
theorem follows_chain (hoperand : Follows l 1 operand operand') :
    Follows l 1 (chain operators operand) (Rule.chain operators operand') := by
  refine hoperand.bind fun left s hs => ?_
  exact agrees_chainWithin hoperand hs (Nat.le_refl _) (length_le_size hs) left

end Chains

/-! ## The rules -/

section Levels

variable {levels : Nat}

theorem follows_singleExpression
    (hexpression : Follows l 1 (call levels .expression) (expression levels)) :
    Follows l 1 (call (levels + 1) .singleExpression) (singleExpression (levels + 1)) := by
  refine hexpression.bind fun value s hs => ?_
  rw [bind_of_ok (atEnd_before hs), Rule.bind_of_ok (Rule.next?_apply s)]
  cases s with
  | nil => exact follows_pure value [] hs
  | cons token s => exact follows_fail (by decide) (token :: s) hs

theorem follows_declaration
    (hvarDeclaration : Follows l 1 (call levels .varDeclaration) (varDeclaration levels))
    (hstatement : Follows l 1 (call levels .statement) (statement levels)) :
    Follows l 1 (call (levels + 1) .declaration) (declaration (levels + 1)) :=
  follows_accept? (fun _ _ => hvarDeclaration.mono (by decide)) hstatement

theorem follows_varDeclaration
    (hexpression : Follows l 1 (call levels .expression) (expression levels)) :
    Follows l 1 (call (levels + 1) .varDeclaration) (varDeclaration (levels + 1)) := by
  refine (follows_expect _ (by decide)).bind fun name => follows_accept? (fun _ _ => ?_) ?_
  · refine hexpression.bind fun initial => (follows_expect _ (by decide)).bind fun _ => ?_
    exact follows_pure _
  · exact (follows_expect _ (by decide)).bind fun _ => follows_pure _

/-- The first token tells which rule is called, and an expression is tried where it tells none. -/
theorem follows_statement
    (hprint : Follows l 1 (call levels .printStatement) (printStatement levels))
    (hblock : Follows l 1 (call levels .block) (block levels))
    (hexpression : Follows l 1 (call levels .expressionStatement) (expressionStatement levels)) :
    Follows l 1 (call (levels + 1) .statement) (statement (levels + 1)) := by
  refine follows_accept? (fun token _ => ?_) hexpression
  by_cases hkind : token.kind = .printWord
  · simp only [hkind, ↓reduceIte]
    exact hprint.mono (by decide)
  · simp only [hkind, ↓reduceIte]
    exact hblock.bind fun _ => follows_pure _

theorem follows_printStatement
    (hexpression : Follows l 1 (call levels .expression) (expression levels)) :
    Follows l 1 (call (levels + 1) .printStatement) (printStatement (levels + 1)) :=
  hexpression.bind fun _ => (follows_expect _ (by decide)).bind fun _ => follows_pure _

theorem follows_expressionStatement
    (hexpression : Follows l 1 (call levels .expression) (expression levels)) :
    Follows l 1 (call (levels + 1) .expressionStatement) (expressionStatement (levels + 1)) :=
  hexpression.bind fun _ => (follows_expect _ (by decide)).bind fun _ => follows_pure _

theorem follows_block
    (hdeclaration : Follows l 1 (call levels .declaration) (declaration levels)) :
    Follows l 1 (call (levels + 1) .block) (block (levels + 1)) := by
  refine (follows_many (stopsAt_check .rightBrace) hdeclaration).bind fun _ => ?_
  exact (follows_expect _ (by decide)).bind fun _ => follows_pure _

/-- The equals sign that is blamed was taken before. -/
theorem follows_assignment (hequality : Follows l 1 (call levels .equality) (equality levels))
    (hassignment : Follows l 1 (call levels .assignment) (assignment levels)) :
    Follows l 1 (call (levels + 1) .assignment) (assignment (levels + 1)) := by
  refine hequality.bind fun left => follows_accept? (fun equals hequals => ?_) (follows_pure left)
  refine hassignment.bind fun value => ?_
  cases left with
  | read name => exact follows_pure _
  | _ => exact follows_throw (by decide) hequals

theorem follows_unary (hunary : Follows l 1 (call levels .unary) (unary levels))
    (hprimary : Follows l 1 (call levels .primary) (primary levels)) :
    Follows l 1 (call (levels + 1) .unary) (unary (levels + 1)) :=
  follows_accept? (fun _ _ => hunary.bind fun _ => follows_pure _) hprimary

/-- The alternatives are tried in order. Each of them is told by one token. -/
theorem follows_primary
    (hexpression : Follows l 1 (call levels .expression) (expression levels)) :
    Follows l 1 (call (levels + 1) .primary) (primary (levels + 1)) := by
  refine follows_accept? (fun token _ => ?_) (follows_fail (by decide))
  dsimp only
  generalize token.kind = kind
  cases kind with
  | leftParen =>
    exact hexpression.bind fun _ => (follows_expect _ (by decide)).bind fun _ => follows_pure _
  | _ => exact follows_pure _

end Levels

/-- Every rule is followed, and every rule but that of a program takes a token. -/
theorem follows_call (levels : Nat) (name : Name) :
    Follows l (if name = .program then 0 else 1) (call levels name) (name.rule levels) := by
  -- Over all smaller numbers of levels, as a chain opens two of them.
  induction levels using Nat.strongRecOn generalizing name with
  | ind levels ih =>
    cases levels with
    | zero => cases name <;> exact follows_exhausted
    | succ levels =>
      have ih' := ih levels (Nat.lt_succ_self levels)
      cases name with
      | program => exact follows_many stopsAt_atEnd (ih' .declaration)
      | singleExpression => exact follows_singleExpression (ih' .expression)
      | declaration => exact follows_declaration (ih' .varDeclaration) (ih' .statement)
      | varDeclaration => exact follows_varDeclaration (ih' .expression)
      | statement =>
        exact follows_statement (ih' .printStatement) (ih' .block) (ih' .expressionStatement)
      | printStatement => exact follows_printStatement (ih' .expression)
      | expressionStatement => exact follows_expressionStatement (ih' .expression)
      | block => exact follows_block (ih' .declaration)
      | expression => exact ih' .assignment
      | assignment => exact follows_assignment (ih' .equality) (ih' .assignment)
      | unary => exact follows_unary (ih' .unary) (ih' .primary)
      | primary => exact follows_primary (ih' .expression)
      | equality =>
        cases levels with
        | zero => exact follows_exhausted
        | succ levels => exact follows_chain (ih levels (by omega) .comparison)
      | comparison =>
        cases levels with
        | zero => exact follows_exhausted
        | succ levels => exact follows_chain (ih levels (by omega) .term)
      | term =>
        cases levels with
        | zero => exact follows_exhausted
        | succ levels => exact follows_chain (ih levels (by omega) .factor)
      | factor =>
        cases levels with
        | zero => exact follows_exhausted
        | succ levels => exact follows_chain (ih levels (by omega) .unary)

/-! ## Calls one after the other -/

/-- How a reader ends where a rule ends. -/
def answer (l : Layout) : EStateM.Result SyntaxFault (List Token) α → EStateM.Result Halt Cursor α
  | .ok a t => .ok a (l.before t)
  | .error fault t => .error (l.halt fault) (l.before t)

/-- Agreement determines the answer, with the place where the cursor ends. -/
theorem Agrees.eq_answer {x : EStateM.Result Halt Cursor α}
    {y : EStateM.Result SyntaxFault (List Token) α} (h : Agrees l least s x y) : x = l.answer y := by
  cases h <;> rfl

/-- Also a call that fails leaves the cursor before a later part of the body. -/
theorem exists_after (hs : s <:+ l.body) (levels : Nat) (name : Name) :
    ∃ t, t <:+ s ∧ (l.before s).after levels name = l.before t := by
  have h := follows_call levels name s hs
  unfold after
  generalize call levels name (l.before s) = x at h
  generalize name.rule levels s = y at h
  cases h with
  | ok hsuffix _ => exact ⟨_, hsuffix, rfl⟩
  | error hsuffix _ => exact ⟨_, hsuffix, rfl⟩

/-- By induction on the calls, each of which starts where the one before it has left the cursor. -/
theorem exists_afterAll (hs : s <:+ l.body) (calls : List (Nat × Name)) :
    ∃ t, t <:+ s ∧ (l.before s).afterAll calls = l.before t := by
  induction calls generalizing s with
  | nil => exact ⟨s, List.suffix_refl s, rfl⟩
  | cons call calls ih =>
    obtain ⟨t, ht, hafter⟩ := exists_after hs call.1 call.2
    obtain ⟨u, hu, hall⟩ := ih (ht.trans hs)
    refine ⟨u, hu.trans ht, ?_⟩
    rw [← hall, ← hafter]
    rfl

/-- The body has no end mark, so that the first one stands right after it. -/
theorem findIdx_tokens (l : Layout) :
    l.tokens.toList.findIdx (·.kind == .eof) = l.body.length := by
  have hbody : l.body.findIdx (·.kind == .eof) = l.body.length :=
    List.findIdx_eq_length.2 fun token htoken =>
      beq_eq_false_iff_ne.2 (l.kind_of_mem_body token htoken)
  rw [tokens, List.findIdx_append, hbody, if_neg (Nat.lt_irrefl _), List.findIdx_cons,
    beq_iff_eq.2 l.kind_mark]
  exact Nat.zero_add _

theorem moves_before (ht : t <:+ s) : Moves (l.before s) (l.before t) where
  tokens_eq := rfl
  le_current := Nat.sub_le_sub_left ht.length_le _
  current_le := by
    change l.body.length - t.length ≤ l.tokens.toList.findIdx (·.kind == .eof)
    rw [l.findIdx_tokens]
    exact Nat.sub_le _ _

/-- The token blamed for a fault is one of the body or the mark after it. -/
theorem mem_tokens {site : Option Token} (hsite : ∀ token ∈ site, token ∈ l.body) :
    site.getD l.mark ∈ l.tokens := by
  cases site with
  | none => simp [tokens]
  | some token => simpa [tokens] using .inl (hsite token rfl)

/-- What a call gives or blames is what its rule gives or blames, and rules stay among the
tokens. -/
theorem safe_call (hs : s <:+ l.body) (levels : Nat) (name : Name) :
    Safe (l.before s) name (call levels name (l.before s)) := by
  have h := l.follows_call levels name s hs
  generalize call levels name (l.before s) = x at h ⊢
  generalize name.rule levels s = y at h
  cases h with
  | ok hsuffix htaken =>
    refine .reads (moves_before hsuffix) fun hname => ?_
    rw [if_neg hname] at htaken
    exact Nat.sub_lt_sub_left (by have := hs.length_le; omega) (by omega)
  | @error fault t hsuffix hsite =>
    unfold halt
    split
    · exact .exhausted (moves_before hsuffix)
    · exact .blames (moves_before hsuffix) (mem_tokens hsite)

/-! ## From the start -/

/-- Closing the tokens keeps those that are read, and the first end mark after them. -/
theorem exists_close_eq (tokens : List Token) :
    ∃ later, close tokens = Token.body tokens ++ Token.endMark tokens :: later := by
  unfold Token.endMark Token.body
  cases hfind : tokens.find? (·.kind == .eof) with
  | some mark =>
    obtain ⟨hmark, taken, later, rfl, htaken⟩ := List.find?_eq_some_iff_append.1 hfind
    have hbody : (taken ++ mark :: later).takeWhile (·.kind != .eof) = taken := by
      have hunended : ∀ token ∈ taken, (token.kind != .eof) = true := htaken
      rw [List.takeWhile_append_of_pos hunended, List.takeWhile_cons_of_neg (by simpa using hmark),
        List.append_nil]
    rw [hbody]
    unfold close
    split
    · exact ⟨later, rfl⟩
    · exact ⟨later ++ [_], List.append_assoc taken (mark :: later) _⟩
  | none =>
    have hnone : ∀ token ∈ tokens, token.kind ≠ .eof := by simpa using hfind
    have hlast : tokens.getLast?.any (·.kind == .eof) = false := by
      cases hlast : tokens.getLast? with
      | none => rfl
      | some token => exact beq_eq_false_iff_ne.2 (hnone token (List.mem_of_getLast? hlast))
    have hbody : tokens.takeWhile (·.kind != .eof) = tokens :=
      List.takeWhile_eq_self_iff.2 fun token htoken => bne_iff_ne.2 (hnone token htoken)
    rw [hbody]
    unfold close
    rw [hlast]
    exact ⟨[], rfl⟩

/-- The parts of the tokens that a cursor starts with. -/
def ofTokens (tokens : List Token) : Layout where
  body := Token.body tokens
  mark := Token.endMark tokens
  later := (close tokens).drop ((Token.body tokens).length + 1)
  kind_of_mem_body _ := Token.kind_ne_eof_of_mem_body
  kind_mark := Token.kind_endMark tokens

theorem tokens_ofTokens (tokens : List Token) :
    (ofTokens tokens).tokens = (close tokens).toArray := by
  obtain ⟨later, hclose⟩ := exists_close_eq tokens
  simp only [Layout.tokens, ofTokens, hclose]
  congr 2
  simp

/-- A cursor starts with the whole body ahead. -/
theorem start_eq_before (tokens : List Token) :
    start tokens = (ofTokens tokens).before (Token.body tokens) := by
  unfold start before
  rw [tokens_ofTokens]
  exact congrArg (Cursor.mk _) (Nat.sub_self _).symm

end Layout

/-- Whatever calls were made before, a call is safe, and it ends as the rule of its name does on the
tokens ahead. -/
theorem call_safe (tokens : List Token) (calls : List (Nat × Name)) (levels : Nat) (name : Name) :
    let c := (start tokens).afterAll calls
    c.tokens = (close tokens).toArray ∧ Safe c name (call levels name c) ∧
      ∃ ahead, ahead <:+ Token.body tokens ∧ c = (Layout.ofTokens tokens).before ahead ∧
        call levels name c = (Layout.ofTokens tokens).answer (name.rule levels ahead) := by
  intro c
  obtain ⟨ahead, hahead, hc⟩ :=
    (Layout.ofTokens tokens).exists_afterAll (List.suffix_refl (Token.body tokens)) calls
  rw [← Layout.start_eq_before] at hc
  have hc' : c = (Layout.ofTokens tokens).before ahead := hc
  rw [hc']
  exact ⟨Layout.tokens_ofTokens tokens, Layout.safe_call hahead levels name, ahead, hahead, rfl,
    (Layout.follows_call levels name ahead hahead).eq_answer⟩

end Cursor

end Scriptlet
