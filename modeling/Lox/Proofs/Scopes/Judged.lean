import Mathlib.Data.List.Forall2
import Mathlib.Data.List.Nodup
import Lox.Proofs.Scopes.Mentions
import Lox.Proofs.Scopes.Tables

/-!
# Walks judge what they meet

A walk knows what was mentioned before: a scope of its stack has a name if some mention declared it
there, and the name is pending if the place is in its initializer. So it finds of each mention what
the rules say of it, one mention after the other, up to the first that is against them.
-/

namespace Lox

/-! ## What is found of mentions -/

/-- What is to be found of a mention after others. -/
inductive Mention.Yields (before : List Mention) : Mention → Findings Unit → Prop
  | offence {m : Mention} {e : ResolutionError} (offends : m.Offends before e) :
      Yields before m (.refused (.error e))
  | misplaced {kind : NodeKind} {around : List Enclosure} :
      Yields before ⟨.misplaced kind, around⟩ (.refused (.misplaced kind))
  | bound {id : Nat} {form : UseForm} {name : Token} {around : List Enclosure} {distance : Nat}
      (inOrder : ∀ e, ¬ Offends before ⟨.use id form name, around⟩ e)
      (nearest : Nearest before around name.lexeme distance) :
      Yields before ⟨.use id form name, around⟩ ⟨[⟨⟨id, form, name, distance⟩, ()⟩], none⟩
  | free {id : Nat} {form : UseForm} {name : Token} {around : List Enclosure}
      (inOrder : ∀ e, ¬ Offends before ⟨.use id form name, around⟩ e)
      (unbound : ∀ distance, ¬ Nearest before around name.lexeme distance) :
      Yields before ⟨.use id form name, around⟩ .nothing
  | declaration {name : Token} {around : List Enclosure} :
      Yields before ⟨.declaration name, around⟩ .nothing
  | jump {keyword : Token} {around : List Enclosure} (inside : InLoop around) :
      Yields before ⟨.jump keyword, around⟩ .nothing
  | returning {keyword : Token} {around : List Enclosure} (inside : InFunction around) :
      Yields before ⟨.returning keyword, around⟩ .nothing

/-- What is to be found of mentions one after the other, unless one of them ends it. -/
inductive Judged : List Mention → List Mention → Findings Unit → Prop
  | nil (before : List Mention) : Judged before [] .nothing
  | refused {before ms : List Mention} {m : Mention} {r : Refusal}
      (yields : m.Yields before (.refused r)) : Judged before (m :: ms) (.refused r)
  | goesOn {before ms : List Mention} {m : Mention} {first rest : Findings Unit}
      (yields : m.Yields before first) (accepted : first.refusal = none)
      (others : Judged (before ++ [m]) ms rest) : Judged before (m :: ms) (first.andThen rest)

theorem Judged.append {before ms ms' : List Mention} {found found' : Findings Unit}
    (first : Judged before ms found) (second : Judged (before ++ ms) ms' found') :
    Judged before (ms ++ ms') (found.andThen found') := by
  induction first with
  | nil before =>
    rw [List.append_nil] at second
    rw [Findings.nothing_andThen]
    exact second
  | refused yields => exact .refused yields
  | goesOn yields accepted others ih =>
    rw [Findings.andThen_assoc]
    exact .goesOn yields accepted (ih (by simpa using second))

theorem Judged.single {before : List Mention} {m : Mention} {found : Findings Unit}
    (yields : m.Yields before found) (accepted : found.refusal = none) :
    Judged before [m] found := by
  have judged := Judged.goesOn yields accepted (.nil _)
  rwa [Findings.andThen_nothing] at judged

/-! ## What a stack of scopes tells -/

/-- A place is in the initializer of a declaration of the name that belongs to the scope, unless it
is a function. -/
def Pending (around : List Enclosure) (name : String) (scope : Position) : Prop :=
  ∃ inner outer, around = inner ++ .initializer name false :: outer ∧
    (scopesOf outer).head? = some scope

/-- The names of a scope are those that were declared in it, and a name is pending in its
initializer. -/
structure Scope.Tells (names : Scope) (before : List Mention) (around : List Enclosure)
    (scope : Position) : Prop where
  declared : ∀ name : String, (names[name]?).isSome ↔ Declared before name scope
  pending : ∀ name : String, names[name]? = some .pending ↔ Pending around name scope

/-- What a stack finds of a name: the innermost scope that it was declared in, and whether the place
is in its initializer. -/
inductive FoundIn (positions : List Position) (before : List Mention) (around : List Enclosure)
    (name : String) : Option (Nat × Unit × Readiness) → Prop
  | nowhere (absent : ∀ scope ∈ positions, ¬ Declared before name scope) :
      FoundIn positions before around name none
  | owner {distance : Nat} {readiness : Readiness} (nearer : List Position) (scope : Position)
      (farther : List Position) (split : positions = nearer ++ scope :: farther)
      (length : nearer.length = distance) (declared : Declared before name scope)
      (notNearer : ∀ other ∈ nearer, ¬ Declared before name other)
      (isPending : readiness = .pending ↔ Pending around name scope) :
      FoundIn positions before around name (some (distance, (), readiness))

/-- The scopes on the stack of a walk are those around a place, with the names that were declared in
them before, and the counts of loops and functions tell whether there are any. -/
structure Mirrors (before : List Mention) (around : List Enclosure) (scopes : Scopes Unit)
    (loops functions : Nat) : Prop where
  tells : List.Forall₂ (fun names scope => Scope.Tells names.2 before around scope) scopes
    (scopesOf around)
  distinct : (scopesOf around).Nodup
  inLoop : loops = 0 ↔ ¬ InLoop around
  inFunction : functions = 0 ↔ ¬ InFunction around

/-- No scope around a place or with a declaration before it begins at the position. -/
structure Fresh (before : List Mention) (around : List Enclosure) (place : Position) : Prop where
  outside : ∀ scope ∈ scopesOf around, ¬ place <:+ scope
  unused : ∀ name scope, Declared before name scope → ¬ place <:+ scope

/-- A place is not in an initializer of the scope that it belongs to itself. -/
def Settled (around : List Enclosure) : Prop :=
  ∀ inner name isFunction outer, around = inner ++ .initializer name isFunction :: outer →
    scopesOf inner ≠ []

/-! ## The first of a list -/

/-- What a list is split at is told by a property that it is the first to have. -/
theorem first_unique {α : Type} {P : α → Prop} {before before' after after' : List α} {a a' : α}
    (same : before ++ a :: after = before' ++ a' :: after')
    (isFirst : ∀ b ∈ before, ¬ P b) (has : P a) (isFirst' : ∀ b ∈ before', ¬ P b) (has' : P a') : before = before' ∧ a = a' := by
  induction before generalizing before' with
  | nil =>
    cases before' with
    | nil => exact ⟨rfl, (List.cons.inj same).1⟩
    | cons b' before' =>
      obtain ⟨rfl, _⟩ := List.cons.inj same
      exact absurd has (isFirst' a List.mem_cons_self)
  | cons b before ih =>
    cases before' with
    | nil =>
      obtain ⟨rfl, _⟩ := List.cons.inj same
      exact absurd has' (isFirst b List.mem_cons_self)
    | cons b' before' =>
      obtain ⟨rfl, rest⟩ := List.cons.inj same
      obtain ⟨rfl, sameFirst⟩ := ih rest (fun c member => isFirst c (List.mem_cons_of_mem _ member))
        (fun c member => isFirst' c (List.mem_cons_of_mem _ member))
      exact ⟨rfl, sameFirst⟩

theorem forall₂_of_mem {α β : Type} {R R' : α → β → Prop} {as : List α} {bs : List β}
    (related : List.Forall₂ R as bs) (each : ∀ a, ∀ b ∈ bs, R a b → R' a b) :
    List.Forall₂ R' as bs := by
  induction related with
  | nil => exact .nil
  | cons first rest ih =>
    refine .cons (each _ _ List.mem_cons_self first) (ih fun a b member => ?_)
    exact each a b (List.mem_cons_of_mem _ member)

theorem exists_of_forall₂ {α β : Type} {R : α → β → Prop} {as : List α} {bs : List β}
    (related : List.Forall₂ R as bs) {b : β} (member : b ∈ bs) : ∃ a, R a b := by
  induction related with
  | nil => cases member
  | cons first rest ih =>
    rcases List.mem_cons.1 member with rfl | member
    · exact ⟨_, first⟩
    · exact ih member

/-! ## Pending names -/

section
variable {around : List Enclosure} {e : Enclosure} {name : String} {scope : Position}

theorem Pending.mem (pending : Pending around name scope) : scope ∈ scopesOf around := by
  obtain ⟨inner, outer, rfl, isScope⟩ := pending
  rw [scopesOf_append]
  exact List.mem_append_right _ (List.mem_of_mem_head? isScope)

theorem pending_cons : Pending (e :: around) name scope ↔
    (e = .initializer name false ∧ (scopesOf around).head? = some scope) ∨
      Pending around name scope := by
  constructor
  · rintro ⟨inner, outer, split, isScope⟩
    cases inner with
    | nil =>
      cases split
      exact .inl ⟨rfl, isScope⟩
    | cons e' inner =>
      cases split
      exact .inr ⟨inner, outer, rfl, isScope⟩
  · rintro (⟨rfl, isScope⟩ | ⟨inner, outer, rfl, isScope⟩)
    · exact ⟨[], around, rfl, isScope⟩
    · exact ⟨e :: inner, outer, rfl, isScope⟩

/-- In a settled place no name of the innermost scope is pending. -/
theorem Settled.not_pending (settled : Settled around) (distinct : (scopesOf around).Nodup)
    (isFirst : (scopesOf around).head? = some scope) : ¬ Pending around name scope := by
  rintro ⟨inner, outer, rfl, isScope⟩
  rw [scopesOf_append] at distinct isFirst
  have notEmpty := settled inner name false outer rfl
  cases within : scopesOf inner with
  | nil => exact notEmpty within
  | cons first rest =>
    rw [within] at distinct isFirst
    cases isFirst
    exact (List.nodup_cons.1 distinct).1
      (List.mem_append_right _ (List.mem_of_mem_head? isScope))

end

theorem settled_nil : Settled [] := by
  intro inner name isFunction outer same
  simp at same

/-- In a scope of its own a place is settled. -/
theorem settled_scope {e : Enclosure} {place : Position} (isScope : e.scope? = some place)
    (around : List Enclosure) : Settled (e :: around) := by
  intro inner name isFunction outer same
  cases inner with
  | nil =>
    cases same
    cases isScope
  | cons e' inner =>
    cases same
    rw [scopesOf_cons_scope isScope]
    exact List.cons_ne_nil _ _

theorem Settled.loopBody {around : List Enclosure} (settled : Settled around) :
    Settled (.loopBody :: around) := by
  intro inner name isFunction outer same
  cases inner with
  | nil => cases same
  | cons e' inner =>
    cases same
    exact settled inner name isFunction outer rfl

/-! ## Fresh positions -/

namespace Fresh

variable {before ms : List Mention} {around : List Enclosure} {place : Position}

theorem nil (place : Position) : Fresh [] [] place :=
  ⟨fun _ member => absurd member List.not_mem_nil, fun _ _ declared =>
    absurd declared not_declared_nil⟩

/-- The positions of parts are as fresh as that of the node. -/
theorem part (fresh : Fresh before around place) (k : Nat) : Fresh before around (k :: place) :=
  ⟨fun scope member inside => fresh.outside scope member ((List.suffix_cons k place).trans inside),
    fun name scope declared inside =>
      fresh.unused name scope declared ((List.suffix_cons k place).trans inside)⟩

/-- What is declared in the first part of a node leaves the positions of the others fresh. -/
theorem others (fresh : Fresh before around place)
    (first : DeclareFrom (0 :: place) (scopesOf around).head? ms) :
    Fresh (before ++ ms) around (1 :: place) := by
  refine ⟨(fresh.part 1).outside, fun name scope declared inside => ?_⟩
  rcases declared_append.1 declared with declared | declared
  · exact (fresh.part 1).unused name scope declared inside
  · rcases first name scope declared with inside' | isOwn
    · have within := List.suffix_of_suffix_length_le inside inside' (Nat.le_refl _)
      have same := within.eq_of_length rfl
      cases same
    · exact (fresh.part 1).outside scope (List.mem_of_mem_head? isOwn) inside

/-- In a scope of its own a node has fresh positions for its parts. -/
theorem enter (fresh : Fresh before around place) {e : Enclosure} (isScope : e.scope? = some place)
    (k : Nat) : Fresh before (e :: around) (k :: place) := by
  refine ⟨fun scope member inside => ?_, (fresh.part k).unused⟩
  rw [scopesOf_cons_scope isScope] at member
  rcases List.mem_cons.1 member with rfl | member
  · have longer := inside.length_le
    rw [List.length_cons] at longer
    omega
  · exact (fresh.part k).outside scope member inside

/-- What is no scope leaves positions fresh. -/
theorem enclose (fresh : Fresh before around place) {e : Enclosure} (noScope : e.scope? = none) :
    Fresh before (e :: around) place := by
  refine ⟨fun scope member => ?_, fresh.unused⟩
  rw [scopesOf_cons_other noScope] at member
  exact fresh.outside scope member

/-- Declarations in scopes around a place leave positions fresh. -/
theorem declare (fresh : Fresh before around place)
    (inScopes : ∀ name scope, Declared ms name scope → scope ∈ scopesOf around) :
    Fresh (before ++ ms) around place := by
  refine ⟨fresh.outside, fun name scope declared => ?_⟩
  rcases declared_append.1 declared with declared | declared
  · exact fresh.unused name scope declared
  · exact fresh.outside scope (inScopes name scope declared)

end Fresh

/-! ## What a mirrored stack finds -/

namespace Mirrors

variable {before ms : List Mention} {around : List Enclosure} {scopes : Scopes Unit}
  {loops functions : Nat}

theorem nil : Mirrors [] [] [] 0 0 where
  tells := .nil
  distinct := .nil
  inLoop := by simp [InLoop]
  inFunction := by simp [InFunction]

theorem declared_of_pending (mirrors : Mirrors before around scopes loops functions) {name : String}
    {scope : Position} (pending : Pending around name scope) : Declared before name scope := by
  obtain ⟨names, tells⟩ := exists_of_forall₂ mirrors.tells pending.mem
  exact (tells.declared name).1 (by rw [(tells.pending name).2 pending, Option.isSome_some])

/-- What is found of a name on the stack is what was declared, and whether the place is in its
initializer. -/
theorem find_tells {scopes : Scopes Unit} {positions : List Position}
    (tells : List.Forall₂ (fun names scope => Scope.Tells names.2 before around scope) scopes
      positions)
    (name : String) : FoundIn positions before around name (scopes.find name) := by
  induction tells with
  | nil => exact .nowhere nofun
  | @cons head scope outer positions first _ ih =>
    obtain ⟨⟨⟩, names⟩ := head
    rw [Scopes.find]
    have declared := first.declared name
    have pending := first.pending name
    cases has : names[name]? with
    | some readiness =>
      rw [has] at declared pending
      have isPending : readiness = .pending ↔ Pending around name scope := by
        rw [← pending, Option.some.injEq]
      exact .owner [] scope positions rfl rfl (declared.1 rfl) nofun isPending
    | none =>
      rw [has] at declared
      have notHere : ¬ Declared before name scope := fun isHere =>
        Bool.false_ne_true (declared.2 isHere)
      have notAmong {others : List Position}
          (notOther : ∀ other ∈ others, ¬ Declared before name other) :
          ∀ other ∈ scope :: others, ¬ Declared before name other := by
        intro other member
        rcases List.mem_cons.1 member with rfl | member
        · exact notHere
        · exact notOther other member
      generalize Scopes.find name outer = result at ih
      cases ih with
      | nowhere absent => exact .nowhere (notAmong absent)
      | owner nearer owner farther split length isDeclared notNearer isPending =>
        exact .owner (scope :: nearer) owner farther (congrArg (scope :: ·) split)
          (congrArg (· + 1) length) isDeclared (notAmong notNearer) isPending

/-- A name is found at a distance exactly if the scope there is the first with a declaration of
it. -/
theorem nearest_iff (mirrors : Mirrors before around scopes loops functions) {name : String}
    {distance : Nat} : Nearest before around name distance ↔
      ∃ readiness, scopes.find name = some (distance, (), readiness) := by
  have tells := find_tells mirrors.tells name
  generalize scopes.find name = result at tells
  cases tells with
  | nowhere absent =>
    constructor
    · rintro ⟨nearer, scope, farther, split, _, declared, _⟩
      exact absurd declared (absent scope (by rw [split]; simp))
    · exact nofun
  | @owner _ readiness nearer scope farther split length declared notNearer =>
    constructor
    · rintro ⟨nearer', scope', farther', split', length', declared', notNearer'⟩
      obtain ⟨rfl, _⟩ :=
        first_unique (split.symm.trans split') notNearer declared notNearer' declared'
      exact ⟨readiness, by rw [← length, ← length']⟩
    · rintro ⟨_, same⟩
      cases same
      exact ⟨nearer, scope, farther, split, length, declared, notNearer⟩

/-- A name is found pending exactly if reading it is against the rules. -/
theorem offends_iff (mirrors : Mirrors before around scopes loops functions) {id : Nat}
    {name : Token} {e : ResolutionError} :
    Mention.Offends before ⟨.use id .reference name, around⟩ e ↔
      e = ⟨.ownInitializer name.lexeme, name.line⟩ ∧
        ∃ distance, scopes.find name.lexeme = some (distance, (), .pending) := by
  have tells := find_tells mirrors.tells name.lexeme
  constructor
  · intro offends
    cases offends with
    | @ownInitializer _ _ inner outer belongs notHidden =>
      obtain ⟨scope, rest, isOuter⟩ := List.exists_cons_of_ne_nil belongs
      have pending : Pending (inner ++ .initializer name.lexeme false :: outer) name.lexeme scope :=
        ⟨inner, outer, rfl, by rw [isOuter]; rfl⟩
      have split : scopesOf (inner ++ .initializer name.lexeme false :: outer) =
          scopesOf inner ++ scope :: rest := by
        rw [scopesOf_append, ← isOuter]
        rfl
      have declared := mirrors.declared_of_pending pending
      refine ⟨rfl, ?_⟩
      generalize scopes.find name.lexeme = result at tells
      cases tells with
      | nowhere absent => exact absurd declared (absent scope pending.mem)
      | owner nearer scope' farther split' _ declared' notNearer isPending =>
        obtain ⟨_, rfl⟩ :=
          first_unique (split.symm.trans split') notHidden declared notNearer declared'
        rw [isPending.2 pending]
        exact ⟨_, rfl⟩
  · rintro ⟨rfl, distance, found⟩
    rw [found] at tells
    cases tells with
    | owner nearer scope farther split _ _ notNearer isPending =>
      obtain ⟨inner, outer, rfl, isScope⟩ := isPending.1 rfl
      obtain ⟨rest, isOuter⟩ := List.head?_eq_some_iff.1 isScope
      -- A scope is around the place once, so that the initializer is in the scope that is found.
      have distinct := mirrors.distinct
      rw [split, List.nodup_middle, List.nodup_cons, List.mem_append, not_or] at distinct
      have split' : nearer ++ scope :: farther = scopesOf inner ++ scope :: rest := by
        rw [← split, scopesOf_append, ← isOuter]
        rfl
      obtain ⟨rfl, _⟩ := (List.append_cons_inj_of_notMem distinct.1.1 distinct.1.2).1 split'
      have belongs : scopesOf outer ≠ [] := by
        rw [isOuter]
        exact List.cons_ne_nil _ _
      exact .ownInitializer belongs notNearer

/-! ### Mentions of uses -/

/-- The use of a name in order is noted at the distance of its scope, or not at all. -/
theorem yields_use (mirrors : Mirrors before around scopes loops functions) {id : Nat}
    {form : UseForm} {name : Token}
    (inOrder : ∀ e, ¬ Mention.Offends before ⟨.use id form name, around⟩ e) :
    Mention.Yields before ⟨.use id form name, around⟩ (scopes.note id form name) := by
  rw [Scopes.note]
  cases found : scopes.find name.lexeme with
  | none =>
    refine .free inOrder fun distance nearest => ?_
    obtain ⟨_, same⟩ := mirrors.nearest_iff.1 nearest
    rw [found] at same
    cases same
  | some use =>
    obtain ⟨distance, ⟨⟩, readiness⟩ := use
    exact .bound inOrder (mirrors.nearest_iff.2 ⟨readiness, found⟩)

theorem judged_assignment (mirrors : Mirrors before around scopes loops functions) (id : Nat)
    (name : Token) : Judged before [⟨.use id .assignment name, around⟩]
      (scopes.note id .assignment name) :=
  .single (mirrors.yields_use fun e offends => by cases offends)
    (Scopes.note_refusal scopes id .assignment name)

theorem judged_reference (mirrors : Mirrors before around scopes loops functions) (id : Nat)
    (name : Token) : Judged before [⟨.use id .reference name, around⟩]
      ((scopes.checkReady name).andThen (scopes.note id .reference name)) := by
  by_cases pending : ∃ distance, scopes.find name.lexeme = some (distance, (), .pending)
  · have offends : Mention.Offends before ⟨.use id .reference name, around⟩ _ :=
      mirrors.offends_iff.2 ⟨rfl, pending⟩
    obtain ⟨distance, found⟩ := pending
    rw [Scopes.checkReady, found]
    exact .refused (.offence offends)
  · have inOrder (e : ResolutionError) :
        ¬ Mention.Offends before ⟨.use id .reference name, around⟩ e :=
      fun offends => pending (mirrors.offends_iff.1 offends).2
    have ready : scopes.checkReady name = .nothing := by
      rw [Scopes.checkReady]
      split
      · next distance owner found => exact absurd ⟨distance, found⟩ pending
      · rfl
    rw [ready, Findings.nothing_andThen]
    exact .single (mirrors.yields_use inOrder) (Scopes.note_refusal scopes id .reference name)

/-! ### What changes the stack -/

/-- Declarations in other scopes leave the stack as it is. -/
theorem past (mirrors : Mirrors before around scopes loops functions)
    (elsewhere : ∀ name, ∀ scope ∈ scopesOf around, ¬ Declared ms name scope) :
    Mirrors (before ++ ms) around scopes loops functions := by
  refine ⟨forall₂_of_mem mirrors.tells fun names scope member tells => ?_, mirrors.distinct,
    mirrors.inLoop, mirrors.inFunction⟩
  refine ⟨fun name => ?_, tells.pending⟩
  rw [tells.declared, declared_append, or_iff_left (elsewhere name scope member)]

/-- A block or a function has a scope of its own, without any names. -/
theorem tells_enter (mirrors : Mirrors before around scopes loops functions) {e : Enclosure}
    {place : Position} (fresh : Fresh before around place) (isScope : e.scope? = some place) :
    List.Forall₂ (fun names scope => Scope.Tells names.2 before (e :: around) scope)
      (((), ∅) :: scopes) (scopesOf (e :: around)) ∧ (scopesOf (e :: around)).Nodup := by
  have noInitializer (name : String) : e ≠ .initializer name false := by
    rintro rfl
    cases isScope
  have pending_iff (name : String) (scope : Position) :
      Pending (e :: around) name scope ↔ Pending around name scope := by
    rw [pending_cons, or_iff_right (fun h => noInitializer name h.1)]
  have notAround : place ∉ scopesOf around :=
    fun member => fresh.outside place member List.suffix_rfl
  rw [scopesOf_cons_scope isScope]
  refine ⟨.cons ⟨fun name => ?_, fun name => ?_⟩ ?_,
    List.nodup_cons.2 ⟨notAround, mirrors.distinct⟩⟩
  · have unused := fresh.unused name place
    simpa using fun declared => unused declared List.suffix_rfl
  · rw [pending_iff]
    simpa using fun pending : Pending around name place => notAround pending.mem
  · refine mirrors.tells.imp fun names scope tells => ⟨tells.declared, fun name => ?_⟩
    rw [pending_iff, tells.pending]

theorem block (mirrors : Mirrors before around scopes loops functions) {place : Position}
    (fresh : Fresh before around place) :
    Mirrors before (.block place :: around) (((), ∅) :: scopes) loops functions := by
  obtain ⟨tells, distinct⟩ := mirrors.tells_enter fresh (e := .block place) rfl
  refine ⟨tells, distinct, ?_, ?_⟩
  · rw [mirrors.inLoop, inLoop_cons]
    simp
  · rw [mirrors.inFunction, inFunction_cons]
    simp

/-- Loops around a function are not around its body. -/
theorem function (mirrors : Mirrors before around scopes loops functions) {place : Position}
    (fresh : Fresh before around place) :
    Mirrors before (.function place :: around) (((), ∅) :: scopes) 0 (functions + 1) := by
  obtain ⟨tells, distinct⟩ := mirrors.tells_enter fresh (e := .function place) rfl
  refine ⟨tells, distinct, ?_, ?_⟩
  · rw [inLoop_cons]
    simp
  · rw [inFunction_cons]
    simp

theorem loopBody (mirrors : Mirrors before around scopes loops functions) :
    Mirrors before (.loopBody :: around) scopes (loops + 1) functions := by
  refine ⟨?_, mirrors.distinct, ?_, ?_⟩
  · refine mirrors.tells.imp fun names scope tells => ⟨tells.declared, fun name => ?_⟩
    rw [pending_cons, tells.pending]
    simp
  · rw [inLoop_cons]
    simp
  · rw [mirrors.inFunction, inFunction_cons]
    simp

/-- A declaration belongs to the innermost scope, where its name is marked. -/
theorem tells_declare (mirrors : Mirrors before around scopes loops functions)
    (settled : Settled around) (name : Token) (readiness : Readiness) (mark : Scope → Scope)
    (marks : ∀ (names : Scope) (x : String),
      (mark names)[x]? = if name.lexeme = x then some readiness else names[x]?)
    (around' : List Enclosure)
    (pending : ∀ x scope, Pending around' x scope ↔
      (name.lexeme = x ∧ readiness = .pending ∧ (scopesOf around).head? = some scope) ∨
        Pending around x scope) :
    List.Forall₂ (fun names scope =>
        Scope.Tells names.2 (before ++ [⟨.declaration name, around⟩]) around' scope)
      (scopes.modifyHead fun (label, names) => (label, mark names)) (scopesOf around) := by
  have declares (x : String) (scope : Position) :
      Declared [⟨.declaration name, around⟩] x scope ↔
        name.lexeme = x ∧ (scopesOf around).head? = some scope := by
    simp [Declared, Mention.Declares]
  have distinct := mirrors.distinct
  have tells := mirrors.tells
  have notPending (scope : Position) (isFirst : (scopesOf around).head? = some scope) (x : String) :
      ¬ Pending around x scope := settled.not_pending distinct isFirst
  generalize isAround : scopesOf around = positions at tells declares distinct pending notPending
  cases tells with
  | nil => exact .nil
  | @cons head scope outer rest first others =>
    refine .cons ⟨fun x => ?_, fun x => ?_⟩
      (forall₂_of_mem others fun names other member tells => ⟨fun x => ?_, fun x => ?_⟩)
    · rw [declared_append, declares, marks, ← first.declared]
      by_cases here : name.lexeme = x <;> simp [here]
    · rw [pending, marks, or_iff_left (notPending scope rfl x)]
      by_cases here : name.lexeme = x
      · simp [here]
      · have unmarked := first.pending x
        simp [here, unmarked, notPending scope rfl x]
    · have notFirst : scope ≠ other := by
        rintro rfl
        exact (List.nodup_cons.1 distinct).1 member
      rw [declared_append, declares, tells.declared]
      simp [notFirst]
    · have notFirst : scope ≠ other := by
        rintro rfl
        exact (List.nodup_cons.1 distinct).1 member
      rw [pending, tells.pending]
      simp [notFirst]

/-- After a declaration its name is ready, whatever it was marked as in its initializer. -/
theorem declare (mirrors : Mirrors before around scopes loops functions) (settled : Settled around)
    (name : Token) : Mirrors (before ++ [⟨.declaration name, around⟩]) around
      (scopes.declare name .ready) loops functions := by
  refine ⟨?_, mirrors.distinct, mirrors.inLoop, mirrors.inFunction⟩
  have tells := mirrors.tells_declare settled name .ready (·.insert name.lexeme .ready)
    (fun names x => getElem?_insert_string names name.lexeme x .ready) around (by simp)
  cases scopes <;> exact tells

theorem declareTwice (mirrors : Mirrors before around scopes loops functions)
    (settled : Settled around) (name : Token) (readiness : Readiness) :
    Mirrors (before ++ [⟨.declaration name, around⟩]) around
      ((scopes.declare name readiness).declare name .ready) loops functions := by
  refine ⟨?_, mirrors.distinct, mirrors.inLoop, mirrors.inFunction⟩
  have tells := mirrors.tells_declare settled name .ready
    (fun names => (names.insert name.lexeme readiness).insert name.lexeme .ready)
    (fun names x => by
      rw [getElem?_insert_string, getElem?_insert_string]
      by_cases here : name.lexeme = x <;> simp [here]) around (by simp)
  cases scopes <;> exact tells

/-- In an initializer the name is pending, unless it is that of a function. -/
theorem initializer (mirrors : Mirrors before around scopes loops functions)
    (settled : Settled around) (name : Token) (e : Expr) :
    Mirrors (before ++ [⟨.declaration name, around⟩])
      (.initializer name.lexeme e.isLambda :: around) (scopes.declare name e.readiness) loops
      functions := by
  refine ⟨?_, mirrors.distinct, ?_, ?_⟩
  · have tells := mirrors.tells_declare settled name e.readiness (·.insert name.lexeme e.readiness)
      (fun names x => getElem?_insert_string names name.lexeme x e.readiness)
      (.initializer name.lexeme e.isLambda :: around) (fun x scope => by
        rw [pending_cons, Expr.readiness]
        cases e.isLambda <;> simp)
    cases scopes <;> exact tells
  · rw [mirrors.inLoop, inLoop_cons]
    simp
  · rw [mirrors.inFunction, inFunction_cons]
    simp

/-- The parameters of a function are declared in its scope. -/
theorem declareAll (mirrors : Mirrors before around scopes loops functions)
    (settled : Settled around) (names : List Token) :
    Mirrors (before ++ names.map fun name => ⟨.declaration name, around⟩) around
      (Scopes.declareAll names scopes) loops functions := by
  induction names generalizing before scopes with
  | nil =>
    rw [List.map_nil, List.append_nil]
    exact mirrors
  | cons name rest ih =>
    have declared := ih (mirrors.declare settled name)
    rw [List.append_assoc] at declared
    exact declared

/-- After the body of a loop a place is where it was. -/
theorem leaveLoop {loops' : Nat}
    (mirrors : Mirrors before (.loopBody :: around) scopes loops' functions) (inLoop : loops = 0 ↔ ¬ InLoop around) : Mirrors before around scopes loops functions := by
  refine ⟨?_, mirrors.distinct, inLoop, ?_⟩
  · refine mirrors.tells.imp fun names scope tells => ⟨tells.declared, fun name => ?_⟩
    rw [tells.pending, pending_cons]
    simp
  · rw [mirrors.inFunction, inFunction_cons]
    simp

/-- What is declared in scopes of its own leaves the stack as it is. -/
theorem pastOwn (mirrors : Mirrors before around scopes loops functions) {place : Position}
    (fresh : Fresh before around place) (own : DeclareFrom place none ms) :
    Mirrors (before ++ ms) around scopes loops functions := by
  refine mirrors.past fun name scope member declared => ?_
  rcases own name scope declared with inside | isNone
  · exact fresh.outside scope member inside
  · cases isNone

end Mirrors

/-! ## Walks over trees -/

theorem judged_declarations (before : List Mention) (names : List Token) (around : List Enclosure) :
    Judged before (names.map fun name => ⟨.declaration name, around⟩) .nothing := by
  induction names generalizing before with
  | nil => exact .nil before
  | cons name rest ih => exact .goesOn .declaration rfl (ih _)

section
variable {before : List Mention} {around : List Enclosure} {scopes : Scopes Unit}
  {loops functions : Nat} {place : Position}

theorem Fresh.declareAll (fresh : Fresh before around place) (names : List Token) :
    Fresh (before ++ names.map fun name => ⟨.declaration name, around⟩) around place := by
  refine fresh.declare fun name scope declared => ?_
  obtain ⟨m, member, token, _, _, isScope⟩ := declared
  obtain ⟨name', _, rfl⟩ := List.mem_map.1 member
  exact List.mem_of_mem_head? isScope

theorem judged_jump (mirrors : Mirrors before around scopes loops functions) (keyword : Token) :
    Judged before [⟨.jump keyword, around⟩]
      (if loops = 0 then .refused (.error ⟨.noLoop keyword.lexeme, keyword.line⟩)
        else .nothing) := by
  by_cases outside : loops = 0
  · rw [if_pos outside]
    exact .refused (.offence (.jump (mirrors.inLoop.1 outside)))
  · rw [if_neg outside]
    exact .single (.jump (not_not.1 fun notInside => outside (mirrors.inLoop.2 notInside))) rfl

end

mutual

/-- A walk over an expression judges what the expression mentions. -/
theorem Expr.judged (e : Expr) {before : List Mention} {around : List Enclosure}
    {scopes : Scopes Unit} {loops functions : Nat} {place : Position}
    (mirrors : Mirrors before around scopes loops functions) (fresh : Fresh before around place) :
    Judged before (e.mentions place around) (e.walk unlabelled scopes loops functions) := by
  cases e with
  | literal => exact .nil before
  | grouping _ inner | unary _ _ inner | step _ inner _ =>
    exact Expr.judged inner mirrors (fresh.part 0)
  | binary _ left _ right | logical _ left _ right =>
    have own := Expr.declareFrom left (0 :: place) around
    exact (Expr.judged left mirrors (fresh.part 0)).append
      (Expr.judged right (mirrors.pastOwn (fresh.part 0) own) (fresh.others own.weaken))
  | reference id name => exact mirrors.judged_reference id name
  | assignment id name value =>
    have own := Expr.declareFrom value (0 :: place) around
    exact (Expr.judged value mirrors (fresh.part 0)).append
      ((mirrors.pastOwn (fresh.part 0) own).judged_assignment id name)
  | call _ callee arguments _ =>
    have own := Expr.declareFrom callee (0 :: place) around
    exact (Expr.judged callee mirrors (fresh.part 0)).append
      (Expr.judgedAll arguments (mirrors.pastOwn (fresh.part 0) own) (fresh.others own.weaken))
  | lambda _ keyword params body name =>
    have settled : Settled (.function place :: around) := settled_scope rfl around
    have entered := (mirrors.function fresh).declareAll settled params
    have inside := (fresh.enter (e := .function place) rfl 0).declareAll params
    have walked := (judged_declarations before params (.function place :: around)).append
      (Stmt.judgedAll body entered inside settled).1
    rwa [Findings.nothing_andThen] at walked
  | misplaced kind => exact .refused .misplaced

theorem Expr.judgedAll (es : List Expr) {before : List Mention} {around : List Enclosure}
    {scopes : Scopes Unit} {loops functions : Nat} {place : Position}
    (mirrors : Mirrors before around scopes loops functions) (fresh : Fresh before around place) :
    Judged before (Expr.allMentions place around es)
      (Expr.walkAll unlabelled scopes loops functions es) := by
  cases es with
  | nil => exact .nil before
  | cons e rest =>
    have own := Expr.declareFrom e (0 :: place) around
    exact (Expr.judged e mirrors (fresh.part 0)).append
      (Expr.judgedAll rest (mirrors.pastOwn (fresh.part 0) own) (fresh.others own.weaken))

theorem Expr.judgedOption (e? : Option Expr) {before : List Mention} {around : List Enclosure}
    {scopes : Scopes Unit} {loops functions : Nat} {place : Position}
    (mirrors : Mirrors before around scopes loops functions) (fresh : Fresh before around place) :
    Judged before (Expr.optionMentions place around e?)
      (Expr.walkOption unlabelled scopes loops functions e?) := by
  cases e? with
  | none => exact .nil before
  | some e => exact Expr.judged e mirrors fresh

/-- A walk over a statement judges what the statement mentions, and goes on from the scopes with
what was declared in it. -/
theorem Stmt.judged (s : Stmt) {before : List Mention} {around : List Enclosure}
    {scopes : Scopes Unit} {loops functions : Nat} {place : Position}
    (mirrors : Mirrors before around scopes loops functions) (fresh : Fresh before around place)
    (settled : Settled around) :
    Judged before (s.mentions place around) (s.walk unlabelled scopes loops functions) ∧
      Mirrors (before ++ s.mentions place around) around (s.after scopes) loops functions := by
  cases s with
  | expression e =>
    exact ⟨Expr.judged e mirrors (fresh.part 0),
      mirrors.pastOwn (fresh.part 0) (Expr.declareFrom e (0 :: place) around)⟩
  | declaration name initializer =>
    cases initializer with
    | none =>
      exact ⟨judged_declarations before [name] around, mirrors.declare settled name⟩
    | some e =>
      have declared := Fresh.declareAll fresh [name]
      have inside := (declared.part 0).enclose (e := .initializer name.lexeme e.isLambda) rfl
      have own := Expr.declareFrom e (0 :: place) (.initializer name.lexeme e.isLambda :: around)
      have after := (mirrors.declareTwice settled name e.readiness).pastOwn (declared.part 0) own
      have walked := (judged_declarations before [name] around).append
        (Expr.judged e (mirrors.initializer settled name e) inside)
      rw [Findings.nothing_andThen] at walked
      rw [List.append_assoc] at after
      exact ⟨walked, after⟩
  | block ss =>
    have settled : Settled (.block place :: around) := settled_scope rfl around
    have own : DeclareFrom place none (Stmt.allMentions (0 :: place) (.block place :: around) ss) :=
      (Stmt.declareFromAll ss (0 :: place) (.block place :: around)).part.enter
    exact ⟨(Stmt.judgedAll ss (mirrors.block fresh) (fresh.enter rfl 0) settled).1,
      mirrors.pastOwn fresh own⟩
  | ifElse condition thenBranch elseBranch =>
    have own := Expr.declareFrom condition (0 :: place) around
    have tested := mirrors.pastOwn (fresh.part 0) own
    have onward := fresh.others own.weaken
    obtain ⟨judged, chosen⟩ := Stmt.judged thenBranch tested (onward.part 0) settled
    have last := onward.others (Stmt.declareFrom thenBranch (0 :: 1 :: place) around)
    obtain ⟨judged', after⟩ := Stmt.judgedOption elseBranch chosen last settled
    rw [List.append_assoc, List.append_assoc] at after
    exact ⟨(Expr.judged condition mirrors (fresh.part 0)).append (judged.append judged'), after⟩
  | whileLoop condition body increment =>
    have own := Expr.declareFrom condition (0 :: place) around
    have tested := mirrors.pastOwn (fresh.part 0) own
    have onward := fresh.others own.weaken
    obtain ⟨judged, ended⟩ := Stmt.judged body tested.loopBody
      ((onward.part 0).enclose rfl) settled.loopBody
    have left := ended.leaveLoop mirrors.inLoop
    have last := onward.others (Stmt.declareFrom body (0 :: 1 :: place) (.loopBody :: around))
    have own' := Expr.declareFromOption increment (1 :: 1 :: place) around
    have after := left.pastOwn last own'
    rw [List.append_assoc, List.append_assoc] at after
    exact ⟨(Expr.judged condition mirrors (fresh.part 0)).append
      (judged.append (Expr.judgedOption increment left last)), after⟩
  | breakLoop keyword | continueLoop keyword =>
    exact ⟨judged_jump mirrors keyword, mirrors.pastOwn fresh (.other rfl)⟩
  | returnValue keyword value =>
    have quiet : DeclareFrom place none [⟨.returning keyword, around⟩] := .other rfl
    have own := quiet.append (Expr.declareFromOption value (0 :: place) around).part
    refine ⟨?_, mirrors.pastOwn fresh own⟩
    rw [Stmt.walk]
    by_cases outside : functions = 0
    · rw [if_pos outside]
      exact .refused (.offence (.returning (mirrors.inFunction.1 outside)))
    · rw [if_neg outside]
      have inFunction : InFunction around :=
        not_not.1 fun notInside => outside (mirrors.inFunction.2 notInside)
      have inside : Fresh (before ++ [⟨.returning keyword, around⟩]) around (0 :: place) :=
        (fresh.part 0).declare fun _ _ declared => absurd declared (not_declared_other rfl)
      have walked := Judged.goesOn (.returning inFunction) rfl
        (Expr.judgedOption value (mirrors.pastOwn fresh quiet) inside)
      rwa [Findings.nothing_andThen] at walked
  | misplaced kind => exact ⟨.refused .misplaced, mirrors.pastOwn fresh (.other rfl)⟩

theorem Stmt.judgedAll (ss : List Stmt) {before : List Mention} {around : List Enclosure}
    {scopes : Scopes Unit} {loops functions : Nat} {place : Position}
    (mirrors : Mirrors before around scopes loops functions) (fresh : Fresh before around place)
    (settled : Settled around) :
    Judged before (Stmt.allMentions place around ss)
        (Stmt.walkAll unlabelled scopes loops functions ss) ∧
      Mirrors (before ++ Stmt.allMentions place around ss) around (Stmt.allAfter scopes ss) loops
        functions := by
  cases ss with
  | nil =>
    rw [Stmt.allMentions, List.append_nil]
    exact ⟨.nil before, mirrors⟩
  | cons s rest =>
    obtain ⟨judged, after⟩ := Stmt.judged s mirrors (fresh.part 0) settled
    have others := fresh.others (Stmt.declareFrom s (0 :: place) around)
    obtain ⟨judged', after'⟩ := Stmt.judgedAll rest after others settled
    rw [List.append_assoc] at after'
    exact ⟨judged.append judged', after'⟩

theorem Stmt.judgedOption (s? : Option Stmt) {before : List Mention} {around : List Enclosure}
    {scopes : Scopes Unit} {loops functions : Nat} {place : Position}
    (mirrors : Mirrors before around scopes loops functions) (fresh : Fresh before around place)
    (settled : Settled around) :
    Judged before (Stmt.optionMentions place around s?)
        (Stmt.walkOption unlabelled scopes loops functions s?) ∧
      Mirrors (before ++ Stmt.optionMentions place around s?) around (Stmt.optionAfter scopes s?)
        loops functions := by
  cases s? with
  | none =>
    rw [Stmt.optionMentions, List.append_nil]
    exact ⟨.nil before, mirrors⟩
  | some s => exact Stmt.judged s mirrors fresh settled

end

/-- What a walk over a program finds is what is to be found of its mentions. -/
theorem Program.judged (p : Program) : Judged [] p.mentions (Program.findings unlabelled p) :=
  (Stmt.judgedAll p .nil (.nil []) settled_nil).1

end Lox
