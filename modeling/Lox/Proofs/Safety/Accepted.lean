import Lox.Proofs.Safety.Trees

/-!
# Accepted programs fit

The scopes of a walk tell the frames that there are when the place is run. If no declaration can be
skipped, a name that is ready in a scope has been declared in its frame, and a name that is still
pending is one whose initializer the place is in.
-/

namespace Lox

/-! ## Scopes and the frames around a place -/

/-- The names that are ready in scopes are known, and the others pending, if that is claimed. -/
inductive Scopes.Tell (definite : Prop) : Scopes Unit → Names → Names → Prop
  | nil : Tell definite [] [] []
  | cons {scope : Scope} {names pending : List String} {outer : Scopes Unit} {known waiting : Names}
      (ready : definite → ∀ name, scope[name]? = some .ready → name ∈ names)
      (others : definite → ∀ name, scope[name]? = some .pending → name ∈ pending)
      (around : Tell definite outer known waiting) :
      Tell definite (((), scope) :: outer) (names :: known) (pending :: waiting)

namespace Scopes.Tell

variable {definite : Prop} {scopes : Scopes Unit} {known waiting : Names} {name : Token}

/-- There is a frame for the scope that a name is found in. -/
theorem find (tell : Tell definite scopes known waiting) {name : String} {distance : Nat}
    {owner : Unit} {readiness : Readiness}
    (found : scopes.find name = some (distance, owner, readiness)) :
    ∃ names pending, known[distance]? = some names ∧ waiting[distance]? = some pending ∧
      (definite → readiness = .ready → name ∈ names) ∧
      (definite → readiness = .pending → name ∈ pending) := by
  induction tell generalizing distance with
  | nil => cases found
  | @cons scope names pending outer known waiting ready others around ih =>
    simp only [Scopes.find] at found
    cases inside : scope[name]? with
    | some readiness' =>
      simp only [inside, Option.some.injEq, Prod.mk.injEq] at found
      obtain ⟨rfl, _, rfl⟩ := found
      refine ⟨names, pending, rfl, rfl, ?_, ?_⟩
      · rintro isDefinite rfl
        exact ready isDefinite name inside
      · rintro isDefinite rfl
        exact others isDefinite name inside
    | none =>
      simp only [inside, Option.map_eq_some_iff] at found
      obtain ⟨⟨distance', rest⟩, further, same⟩ := found
      cases same
      exact ih further

/-- A declared name becomes known. -/
theorem declare_ready (tell : Tell definite scopes known waiting) :
    Tell definite (scopes.declare name .ready) (known.declare name) waiting := by
  cases tell with
  | nil => exact .nil
  | cons ready others around =>
    refine .cons (fun isDefinite other isReady => ?_) (fun isDefinite other isPending => ?_) around
    · rw [getElem?_insert_string] at isReady
      by_cases same : name.lexeme = other
      · exact same ▸ List.mem_cons_self
      · rw [if_neg same] at isReady
        exact List.mem_cons_of_mem _ (ready isDefinite other isReady)
    · rw [getElem?_insert_string] at isPending
      by_cases same : name.lexeme = other
      · rw [if_pos same] at isPending
        cases isPending
      · rw [if_neg same] at isPending
        exact others isDefinite other isPending

/-- A name whose initializer is walked waits for its value. -/
theorem declare_pending (tell : Tell definite scopes known waiting) :
    Tell definite (scopes.declare name .pending) known (waiting.declare name) := by
  cases tell with
  | nil => exact .nil
  | cons ready others around =>
    refine .cons (fun isDefinite other isReady => ?_) (fun isDefinite other isPending => ?_) around
    · rw [getElem?_insert_string] at isReady
      by_cases same : name.lexeme = other
      · rw [if_pos same] at isReady
        cases isReady
      · rw [if_neg same] at isReady
        exact ready isDefinite other isReady
    · rw [getElem?_insert_string] at isPending
      by_cases same : name.lexeme = other
      · exact same ▸ List.mem_cons_self
      · rw [if_neg same] at isPending
        exact List.mem_cons_of_mem _ (others isDefinite other isPending)

/-- While an initializer is walked, its name is ready if it is a function, and pending otherwise. -/
theorem declare_initializer (tell : Tell definite scopes known waiting) (e : Expr) :
    Tell definite (scopes.declare name e.readiness) (known.inside name e)
      (if e.isLambda then waiting else waiting.declare name) := by
  unfold Expr.readiness Names.inside
  by_cases isFunction : e.isLambda
  · simp only [isFunction, if_true]
    exact tell.declare_ready
  · simp only [isFunction, Bool.false_eq_true, if_false]
    exact tell.declare_pending

/-- After its initializer a name is known, and no longer pending. -/
theorem declare_twice (tell : Tell definite scopes known waiting) (readiness : Readiness) :
    Tell definite ((scopes.declare name readiness).declare name .ready) (known.declare name)
      waiting := by
  cases tell with
  | nil => exact .nil
  | @cons scope names pending outer known waiting ready others around =>
    have once (other : String) :
        ((scope.insert name.lexeme readiness).insert name.lexeme .ready)[other]? =
          (scope.insert name.lexeme .ready)[other]? := by
      simp only [getElem?_insert_string]
      by_cases same : name.lexeme = other
      · simp only [same, if_true]
      · simp only [same, if_false]
    have tell : Tell definite (((), scope) :: outer) (names :: known) (pending :: waiting) :=
      .cons ready others around
    cases tell.declare_ready with
    | cons ready others around =>
      exact .cons (fun isDefinite other isReady => ready isDefinite other (once other ▸ isReady))
        (fun isDefinite other isPending => others isDefinite other (once other ▸ isPending)) around

/-- More names may be known. -/
theorem more {label : Unit} {scope : Scope} {outer : Scopes Unit} {names names' : List String}
    (tell : Tell definite ((label, scope) :: outer) (names :: known) waiting) (sub : names ⊆ names') :
    Tell definite ((label, scope) :: outer) (names' :: known) waiting := by
  cases tell with
  | cons ready others around =>
    exact .cons (fun isDefinite name isReady => sub (ready isDefinite name isReady)) others around

/-- Nothing is declared in a block that has just been entered. -/
theorem enter (tell : Tell definite scopes known waiting) :
    Tell definite (((), ∅) :: scopes) ([] :: known) ([] :: waiting) :=
  .cons (fun _ name isReady => by simp at isReady) (fun _ name isPending => by simp at isPending) tell

/-- Declaring known names tells no more. -/
theorem declareAll {scope : Scope} {outer : Scopes Unit} {names : List String} {params : List Token}
    (tell : Tell definite (((), scope) :: outer) (names :: known) waiting)
    (members : ∀ name ∈ params, name.lexeme ∈ names) :
    Tell definite (Scopes.declareAll params (((), scope) :: outer)) (names :: known) waiting := by
  induction params generalizing scope with
  | nil => exact tell
  | cons name rest ih =>
    obtain ⟨first, others⟩ := List.forall_mem_cons.1 members
    exact ih (tell.declare_ready.more (List.cons_subset.2 ⟨first, List.Subset.refl _⟩)) others

/-- The parameters of a function are known in its body. -/
theorem function (tell : Tell definite scopes known waiting) (params : List Token) :
    Tell definite (Scopes.declareAll params (((), ∅) :: scopes)) (params.map (·.lexeme) :: known)
      ([] :: waiting) :=
  (tell.enter.more (List.nil_subset _)).declareAll fun _ member => List.mem_map_of_mem member

end Scopes.Tell

/-! ## Scopes after statements -/

section
variable {definite : Prop} {T : Distances} {known waiting : Names}

mutual

/-- A statement that is no declaration leaves the scopes as they are, if declarations stand in
order; in any case it leaves as many. -/
theorem Stmt.tell_after (s : Stmt) {scopes : Scopes Unit} (tell : scopes.Tell definite known waiting)
    (orderly : definite → s.IsPlain ∧ s.Orderly T waiting) :
    (s.after scopes).Tell definite known waiting := by
  cases s with
  | declaration name initializer =>
    -- The declaration may be skipped: its name is in the scope then, but not in the frame.
    have claimed : ¬ definite := fun isDefinite => (orderly isDefinite).1
    cases tell with
    | nil => cases initializer <;> exact .nil
    | cons _ _ around =>
      cases initializer <;>
        exact .cons (fun isDefinite => absurd isDefinite claimed)
          (fun isDefinite => absurd isDefinite claimed) around
  | ifElse condition thenBranch elseBranch =>
    have afterThen := Stmt.tell_after thenBranch tell fun isDefinite => (orderly isDefinite).2.2.1
    exact Stmt.tell_optionAfter elseBranch afterThen fun isDefinite => (orderly isDefinite).2.2.2
  | whileLoop condition body increment =>
    exact Stmt.tell_after body tell fun isDefinite => (orderly isDefinite).2.2.1
  | expression | block | breakLoop | continueLoop | returnValue | misplaced => exact tell

theorem Stmt.tell_optionAfter (s? : Option Stmt) {scopes : Scopes Unit}
    (tell : scopes.Tell definite known waiting)
    (orderly : definite → Stmt.OptionOrderly T waiting s?) :
    (Stmt.optionAfter scopes s?).Tell definite known waiting := by
  cases s? with
  | none => exact tell
  | some s => exact Stmt.tell_after s tell orderly

end

/-- After a statement the name that it declares is known. -/
theorem Stmt.tell_learn (s : Stmt) {scopes : Scopes Unit} (tell : scopes.Tell definite known waiting)
    (orderly : definite → s.Orderly T waiting) :
    (s.after scopes).Tell definite (s.learn known) waiting := by
  cases s with
  | declaration name initializer =>
    cases initializer with
    | none => exact tell.declare_ready
    | some e => exact tell.declare_twice e.readiness
  | _ => exact Stmt.tell_after _ tell fun isDefinite => ⟨trivial, orderly isDefinite⟩

end

/-! ## Walks that were accepted -/

section
variable {W : Usage} {known waiting : Names} {scopes : Scopes Unit} {id : Nat} {name : Token}

/-- A use that was noted has its scope among those that there are. -/
theorem Scopes.Tell.binds (tell : scopes.Tell W.definite known waiting) {form : UseForm}
    (walked : Walked W.table (scopes.note id form name) [id]) (used : W.uses id name)
    (isReady : W.definite → ∀ distance owner pending, W.table[id]? = some distance →
      waiting[distance]? = some pending →
      scopes.find name.lexeme = some (distance, owner, .pending) → name.lexeme ∉ pending) :
    W.Binds known id name := by
  refine ⟨used, fun distance isDistance => ?_⟩
  unfold Scopes.note at walked
  cases found : scopes.find name.lexeme with
  | none =>
    rw [found] at walked
    have missing : W.table[id]? = none :=
      walked.only id (List.mem_singleton_self id) fun _ noted => absurd noted List.not_mem_nil
    rw [missing] at isDistance
    cases isDistance
  | some use =>
    obtain ⟨distance', owner, readiness⟩ := use
    rw [found] at walked
    have noted : W.table[id]? = some distance' := walked.noted _ (List.mem_singleton_self _)
    cases noted.symm.trans isDistance
    obtain ⟨names, pending, isKnown, isWaiting, ready, others⟩ := tell.find found
    refine ⟨names, isKnown, fun isDefinite => ?_⟩
    cases readiness with
    | ready => exact ready isDefinite rfl
    | pending =>
      exact absurd (others isDefinite rfl)
        (isReady isDefinite distance owner pending isDistance isWaiting found)

theorem Scopes.ready_of_checkReady (accepted : (scopes.checkReady name).refusal = none)
    (distance : Nat) (owner : Unit) :
    scopes.find name.lexeme ≠ some (distance, owner, .pending) := by
  intro found
  unfold Scopes.checkReady at accepted
  rw [found] at accepted
  cases accepted

mutual

theorem Expr.fits_of_walked (e : Expr) {scopes : Scopes Unit} {known waiting : Names}
    {loops functions : Nat} (tell : scopes.Tell W.definite known waiting)
    (orderly : W.definite → e.Orderly W.table waiting) (used : ∀ use ∈ e.uses, W.uses use.1 use.2)
    (walked : Walked W.table (e.walk unlabelled scopes loops functions) e.useIds) :
    e.Fits W known := by
  cases e with
  | literal => trivial
  | misplaced => cases walked.accepted
  | grouping _ inner | unary _ _ inner | step _ inner _ =>
    exact Expr.fits_of_walked inner tell orderly used walked
  | binary _ left _ right | logical _ left _ right =>
    obtain ⟨inLeft, inRight⟩ := List.forall_mem_append.1 used
    obtain ⟨first, second⟩ := walked.andThen (left.noted_inside _ _ _ _) (right.noted_inside _ _ _ _)
    exact ⟨Expr.fits_of_walked left tell (fun isDefinite => (orderly isDefinite).1) inLeft first,
      Expr.fits_of_walked right tell (fun isDefinite => (orderly isDefinite).2) inRight second⟩
  | reference id name =>
    have checked : ∀ note ∈ (scopes.checkReady name).notes, note.use.id ∈ ([] : List Nat) := by
      rw [Scopes.checkReady_notes]
      exact fun _ noted => absurd noted List.not_mem_nil
    have whole : Walked W.table ((scopes.checkReady name).andThen (scopes.note id .reference name))
      ([] ++ [id]) := walked
    obtain ⟨ready, noted⟩ := whole.andThen checked (scopes.noted_inside id .reference name)
    refine tell.binds noted (used _ (List.mem_singleton_self _)) ?_
    intro _ distance owner _ _ _ found
    exact absurd found (Scopes.ready_of_checkReady ready.accepted distance owner)
  | assignment id name value =>
    obtain ⟨inValue, isUse⟩ := List.forall_mem_append.1 used
    obtain ⟨first, noted⟩ := walked.andThen (value.noted_inside _ _ _ _)
      (scopes.noted_inside id .assignment name)
    refine ⟨Expr.fits_of_walked value tell (fun isDefinite => (orderly isDefinite).1) inValue first,
      tell.binds noted (isUse _ (List.mem_singleton_self _)) ?_⟩
    intro isDefinite distance owner pending isDistance isWaiting _
    exact (orderly isDefinite).2 pending (Option.bind_eq_some_iff.2 ⟨distance, isDistance, isWaiting⟩)
  | call _ callee arguments _ =>
    obtain ⟨inCallee, inArguments⟩ := List.forall_mem_append.1 used
    obtain ⟨first, second⟩ := walked.andThen (callee.noted_inside _ _ _ _)
      (Expr.noted_insideAll _ _ _ _ arguments)
    exact ⟨Expr.fits_of_walked callee tell (fun isDefinite => (orderly isDefinite).1) inCallee first,
      Expr.allFits_of_walked arguments tell (fun isDefinite => (orderly isDefinite).2) inArguments
        second⟩
  | lambda _ _ params body _ =>
    exact Stmt.allFits_of_walked body (tell.function params) orderly used
      (fun inLoop => absurd rfl inLoop) (fun _ => trivial) walked

theorem Expr.allFits_of_walked (es : List Expr) {scopes : Scopes Unit} {known waiting : Names}
    {loops functions : Nat} (tell : scopes.Tell W.definite known waiting)
    (orderly : W.definite → Expr.AllOrderly W.table waiting es)
    (used : ∀ use ∈ Expr.allUses es, W.uses use.1 use.2)
    (walked : Walked W.table (Expr.walkAll unlabelled scopes loops functions es)
      (Expr.allUseIds es)) :
    Expr.AllFits W known es := by
  cases es with
  | nil => trivial
  | cons e rest =>
    obtain ⟨inHead, inRest⟩ := List.forall_mem_append.1 used
    obtain ⟨first, second⟩ := walked.andThen (e.noted_inside _ _ _ _)
      (Expr.noted_insideAll _ _ _ _ rest)
    exact ⟨Expr.fits_of_walked e tell (fun isDefinite => (orderly isDefinite).1) inHead first,
      Expr.allFits_of_walked rest tell (fun isDefinite => (orderly isDefinite).2) inRest second⟩

theorem Expr.optionFits_of_walked (e? : Option Expr) {scopes : Scopes Unit} {known waiting : Names}
    {loops functions : Nat} (tell : scopes.Tell W.definite known waiting)
    (orderly : W.definite → Expr.OptionOrderly W.table waiting e?)
    (used : ∀ use ∈ Expr.optionUses e?, W.uses use.1 use.2)
    (walked : Walked W.table (Expr.walkOption unlabelled scopes loops functions e?)
      (Expr.optionUseIds e?)) :
    Expr.OptionFits W known e? := by
  cases e? with
  | none => trivial
  | some e => exact Expr.fits_of_walked e tell orderly used walked

theorem Stmt.fits_of_walked (s : Stmt) {scopes : Scopes Unit} {known waiting : Names}
    {loops functions : Nat} {inLoop inFunction : Prop}
    (tell : scopes.Tell W.definite known waiting)
    (orderly : W.definite → s.Orderly W.table waiting) (used : ∀ use ∈ s.uses, W.uses use.1 use.2)
    (hasLoop : loops ≠ 0 → inLoop) (hasFunction : functions ≠ 0 → inFunction)
    (walked : Walked W.table (s.walk unlabelled scopes loops functions) s.useIds) :
    s.Fits W known inLoop inFunction := by
  cases s with
  | expression e => exact Expr.fits_of_walked e tell orderly used walked
  | declaration name initializer =>
    cases initializer with
    | none => trivial
    | some e => exact Expr.fits_of_walked e (tell.declare_initializer e) orderly used walked
  | block statements =>
    exact Stmt.allFits_of_walked statements tell.enter orderly used hasLoop hasFunction walked
  | ifElse condition thenBranch elseBranch =>
    obtain ⟨inCondition, inBranches⟩ := List.forall_mem_append.1 used
    obtain ⟨inThen, inElse⟩ := List.forall_mem_append.1 inBranches
    obtain ⟨first, second, third⟩ := walked.three (condition.noted_inside _ _ _ _)
      (thenBranch.noted_inside _ _ _ _) (Stmt.noted_insideOption _ _ _ _ elseBranch)
    have afterThen := Stmt.tell_after thenBranch tell fun isDefinite => (orderly isDefinite).2.1
    exact ⟨Expr.fits_of_walked condition tell (fun isDefinite => (orderly isDefinite).1) inCondition
        first,
      Stmt.fits_of_walked thenBranch tell (fun isDefinite => (orderly isDefinite).2.1.2) inThen
        hasLoop hasFunction second,
      Stmt.optionFits_of_walked elseBranch afterThen (fun isDefinite => (orderly isDefinite).2.2)
        inElse hasLoop hasFunction third⟩
  | whileLoop condition body increment =>
    obtain ⟨inCondition, inRest⟩ := List.forall_mem_append.1 used
    obtain ⟨inBody, inIncrement⟩ := List.forall_mem_append.1 inRest
    obtain ⟨first, second, third⟩ := walked.three (condition.noted_inside _ _ _ _)
      (body.noted_inside _ _ _ _) (Expr.noted_insideOption _ _ _ _ increment)
    -- The increment is walked in the scopes that the body leaves.
    have afterBody := Stmt.tell_after body tell fun isDefinite => (orderly isDefinite).2.1
    exact ⟨Expr.fits_of_walked condition tell (fun isDefinite => (orderly isDefinite).1) inCondition
        first,
      Stmt.fits_of_walked body tell (fun isDefinite => (orderly isDefinite).2.1.2) inBody
        (fun _ => trivial) hasFunction second,
      Expr.optionFits_of_walked increment afterBody (fun isDefinite => (orderly isDefinite).2.2)
        inIncrement third⟩
  | breakLoop | continueLoop =>
    have accepted := walked.accepted
    rw [Stmt.walk] at accepted
    split at accepted
    · cases accepted
    · next some => exact hasLoop some
  | returnValue _ value =>
    rw [Stmt.walk] at walked
    split at walked
    · cases walked.accepted
    · next some =>
      exact ⟨hasFunction some, Expr.optionFits_of_walked value tell orderly used walked⟩
  | misplaced => cases walked.accepted

theorem Stmt.allFits_of_walked (ss : List Stmt) {scopes : Scopes Unit} {known waiting : Names}
    {loops functions : Nat} {inLoop inFunction : Prop}
    (tell : scopes.Tell W.definite known waiting)
    (orderly : W.definite → Stmt.AllOrderly W.table waiting ss)
    (used : ∀ use ∈ Stmt.allUses ss, W.uses use.1 use.2)
    (hasLoop : loops ≠ 0 → inLoop) (hasFunction : functions ≠ 0 → inFunction)
    (walked : Walked W.table (Stmt.walkAll unlabelled scopes loops functions ss)
      (Stmt.allUseIds ss)) :
    Stmt.AllFits W known inLoop inFunction ss := by
  cases ss with
  | nil => trivial
  | cons s rest =>
    obtain ⟨inHead, inRest⟩ := List.forall_mem_append.1 used
    obtain ⟨first, second⟩ := walked.andThen (s.noted_inside _ _ _ _)
      (Stmt.noted_insideAll _ _ _ _ rest)
    have after := s.tell_learn tell fun isDefinite => (orderly isDefinite).1
    exact ⟨Stmt.fits_of_walked s tell (fun isDefinite => (orderly isDefinite).1) inHead hasLoop
        hasFunction first,
      Stmt.allFits_of_walked rest after (fun isDefinite => (orderly isDefinite).2) inRest hasLoop
        hasFunction second⟩

theorem Stmt.optionFits_of_walked (s? : Option Stmt) {scopes : Scopes Unit} {known waiting : Names}
    {loops functions : Nat} {inLoop inFunction : Prop}
    (tell : scopes.Tell W.definite known waiting)
    (orderly : W.definite → Stmt.OptionOrderly W.table waiting s?)
    (used : ∀ use ∈ Stmt.optionUses s?, W.uses use.1 use.2)
    (hasLoop : loops ≠ 0 → inLoop) (hasFunction : functions ≠ 0 → inFunction)
    (walked : Walked W.table (Stmt.walkOption unlabelled scopes loops functions s?)
      (Stmt.optionUseIds s?)) :
    Stmt.OptionFits W known inLoop inFunction s? := by
  cases s? with
  | none => trivial
  | some s =>
    exact Stmt.fits_of_walked s tell (fun isDefinite => (orderly isDefinite).2) used hasLoop
      hasFunction walked

end

end

/-- An accepted program fits the global frame, with the distances of its own uses. If it is orderly,
its variables have their values before they are used. -/
theorem Program.fits {p : Program} (accepted : p.resolution.outcome = .ok ())
    (nodup : p.useIds.Nodup) {definite : Prop} (orderly : definite → p.Orderly) :
    Stmt.AllFits ⟨p.distances, fun id name => (id, name) ∈ p.uses, definite⟩ [] False False p :=
  Stmt.allFits_of_walked p .nil orderly (fun _ member => member) (fun some => absurd rfl some)
    (fun some => absurd rfl some) (Program.walked accepted nodup)

end Lox
