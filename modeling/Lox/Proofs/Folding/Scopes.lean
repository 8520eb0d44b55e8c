import Lox.Proofs.Folding.Layers
import Lox.Proofs.Scopes.Walked

/-!
# Walks over folded programs

Folding puts scopes around some places in which no name is declared that is used there. So what was
found in a scope is found in the same scope, and a program that was accepted still is.
-/

namespace Lox

/-! ## More scopes around a place -/

/-- There are the same scopes around a place and others, in which certain names are not declared. -/
inductive Inserted (P : String → Prop) : Layers → Scopes Unit → Scopes Unit → Prop
  | nil : Inserted P [] [] []
  | shared {L : Layers} {scopes scopes' : Scopes Unit} (scope : Unit × Scope)
      (outer : Inserted P L scopes scopes') :
      Inserted P (.shared :: L) (scope :: scopes) (scope :: scopes')
  | extra {L : Layers} {scopes scopes' : Scopes Unit} {scope : Unit × Scope}
      (lacks : ∀ name, P name → scope.2[name]? = none) (outer : Inserted P L scopes scopes') :
      Inserted P (.extra :: L) scopes (scope :: scopes')

namespace Inserted

variable {P P' : String → Prop} {L : Layers} {scopes scopes' : Scopes Unit}

theorem mono (fewer : ∀ name, P' name → P name) (inserted : Inserted P L scopes scopes') :
    Inserted P' L scopes scopes' := by
  induction inserted with
  | nil => exact .nil
  | shared scope _ ih => exact .shared scope ih
  | extra lacks _ ih => exact .extra (fun name used => lacks name (fewer name used)) ih

/-- No name is declared in a new scope. -/
theorem extra_empty (inserted : Inserted P L scopes scopes') :
    Inserted P (.extra :: L) scopes (((), ∅) :: scopes') :=
  .extra (fun _ _ => Std.TreeMap.getElem?_emptyc) inserted

theorem declare (inserted : Inserted P L scopes scopes') (declares : L.head? ≠ some .extra)
    (name : Token) (readiness : Readiness) :
    Inserted P L (scopes.declare name readiness) (scopes'.declare name readiness) := by
  cases inserted with
  | nil => exact .nil
  | shared scope outer => exact .shared _ outer
  | extra => simp at declares

theorem declareAll {outer outer' : Scopes Unit} (params : List Token) (scope : Unit × Scope)
    (inserted : Inserted P L outer outer') :
    Inserted P (.shared :: L) (Scopes.declareAll params (scope :: outer))
      (Scopes.declareAll params (scope :: outer')) := by
  induction params generalizing scope with
  | nil => exact .shared scope inserted
  | cons name rest ih => exact ih _

/-- What is not used may be declared in a scope that was not there before. -/
theorem declare_extra (inserted : Inserted P (.extra :: L) scopes scopes') {name : Token}
    (unused : ¬ P name.lexeme) (readiness : Readiness) :
    Inserted P (.extra :: L) scopes (scopes'.declare name readiness) := by
  cases inserted with
  | extra lacks outer =>
    refine .extra (fun other used => ?_) outer
    rw [getElem?_insert_string]
    by_cases same : name.lexeme = other
    · rw [same] at unused
      contradiction
    · rw [if_neg same]
      exact lacks other used

theorem find_none (inserted : Inserted P L scopes scopes') {name : String} (used : P name)
    (missing : scopes.find name = none) : scopes'.find name = none := by
  induction inserted with
  | nil => rfl
  | shared scope _ ih =>
    obtain ⟨label, scope⟩ := scope
    simp only [Scopes.find] at missing ⊢
    cases here : scope[name]? with
    | some readiness => simp [here] at missing
    | none =>
      simp only [here, Option.map_eq_none_iff] at missing ⊢
      exact ih missing
  | @extra L scopes scopes' scope lacks _ ih =>
    obtain ⟨label, scope⟩ := scope
    simp only [Scopes.find, lacks name used, ih missing, Option.map_none]

/-- A name is found in the same scope, and is ready there or not as before. -/
theorem find_some (inserted : Inserted P L scopes scopes') {name : String} (used : P name)
    {distance : Nat} {rest : Unit × Readiness} (found : scopes.find name = some (distance, rest)) :
    ∃ distance', L.Leads distance distance' ∧ scopes'.find name = some (distance', rest) := by
  induction inserted generalizing distance with
  | nil => simp [Scopes.find] at found
  | shared scope _ ih =>
    obtain ⟨label, scope⟩ := scope
    simp only [Scopes.find] at found ⊢
    cases here : scope[name]? with
    | some readiness =>
      simp only [here, Option.some.injEq, Prod.mk.injEq] at found
      obtain ⟨rfl, rfl⟩ := found
      exact ⟨0, .here, rfl⟩
    | none =>
      simp only [here, Option.map_eq_some_iff, Prod.mk.injEq] at found
      obtain ⟨⟨outside, _⟩, isOutside, rfl, rfl⟩ := found
      obtain ⟨outside', leads, isFound⟩ := ih isOutside
      exact ⟨outside' + 1, .shared leads, by simp [isFound]⟩
  | @extra L scopes scopes' scope lacks _ ih =>
    obtain ⟨label, scope⟩ := scope
    obtain ⟨outside', leads, isFound⟩ := ih found
    exact ⟨outside' + 1, .extra leads, by simp [Scopes.find, lacks name used, isFound]⟩

end Inserted

/-! ## Scopes after statements -/

section
variable {P : String → Prop} {L : Layers}

mutual

theorem Inserted.after (s : Stmt) {scopes scopes' : Scopes Unit}
    (inserted : Inserted P L scopes scopes') (declares : L.head? ≠ some .extra) :
    Inserted P L (s.after scopes) (s.after scopes') := by
  cases s with
  | declaration name initializer =>
    cases initializer with
    | none => exact inserted.declare declares name .ready
    | some e => exact (inserted.declare declares name _).declare declares name .ready
  | ifElse _ thenBranch elseBranch =>
    exact Inserted.optionAfter elseBranch (Inserted.after thenBranch inserted declares) declares
  | whileLoop _ body _ => exact Inserted.after body inserted declares
  | _ => exact inserted

theorem Inserted.optionAfter (s? : Option Stmt) {scopes scopes' : Scopes Unit}
    (inserted : Inserted P L scopes scopes') (declares : L.head? ≠ some .extra) :
    Inserted P L (Stmt.optionAfter scopes s?) (Stmt.optionAfter scopes' s?) := by
  cases s? with
  | none => exact inserted
  | some s => exact Inserted.after s inserted declares

end

mutual

theorem Inserted.after_extra (s : Stmt) {scopes scopes' : Scopes Unit}
    (inserted : Inserted P (.extra :: L) scopes scopes')
    (unused : ∀ name ∈ s.blockNames, ¬ P name) :
    Inserted P (.extra :: L) scopes (s.after scopes') := by
  cases s with
  | declaration name initializer =>
    have isUnused := unused name.lexeme (List.mem_singleton_self _)
    cases initializer with
    | none => exact inserted.declare_extra isUnused .ready
    | some e => exact (inserted.declare_extra isUnused _).declare_extra isUnused .ready
  | ifElse _ thenBranch elseBranch =>
    obtain ⟨inThen, inElse⟩ := List.forall_mem_append.1 unused
    exact Inserted.optionAfter_extra elseBranch (Inserted.after_extra thenBranch inserted inThen)
      inElse
  | whileLoop _ body _ => exact Inserted.after_extra body inserted unused
  | _ => exact inserted

theorem Inserted.optionAfter_extra (s? : Option Stmt) {scopes scopes' : Scopes Unit}
    (inserted : Inserted P (.extra :: L) scopes scopes')
    (unused : ∀ name ∈ Stmt.optionBlockNames s?, ¬ P name) :
    Inserted P (.extra :: L) scopes (Stmt.optionAfter scopes' s?) := by
  cases s? with
  | none => exact inserted
  | some s => exact Inserted.after_extra s inserted unused

end

end

theorem Expr.Folds.readiness {e e' : Expr} (folds : e.Folds e') : e'.readiness = e.readiness := by
  cases folds <;> rfl

mutual

/-- A folded statement declares what it declared before. -/
theorem Stmt.Folds.after {onward : Option Expr} {s s' : Stmt} (folds : Stmt.Folds onward s s')
    (scopes : Scopes Unit) : s'.after scopes = s.after scopes := by
  cases folds with
  | declaration name initializer =>
    cases initializer with
    | none => rfl
    | some value => simp only [Stmt.after, value.readiness]
  | ifElse condition thenBranch elseBranch =>
    simp only [Stmt.after]
    rw [Stmt.Folds.after thenBranch, Stmt.OptionFolds.after elseBranch]
  | whileLoop condition body increment => exact Stmt.Folds.after body scopes
  | _ => rfl

theorem Stmt.OptionFolds.after {onward : Option Expr} {s? s?' : Option Stmt}
    (folds : Stmt.OptionFolds onward s? s?') (scopes : Scopes Unit) :
    Stmt.optionAfter scopes s?' = Stmt.optionAfter scopes s? := by
  cases folds with
  | none => rfl
  | some branch => exact Stmt.Folds.after branch scopes

end

/-! ## What both walks find -/

/-- If a walk was not refused, then neither is the other one, and the tables of both, with what else
is known of the first, make the trees correspond. -/
structure Carries (known : Distances → Prop) (found found' : Findings Unit) (ids ids' : List Nat)
    (moved : Distances → Distances → Prop) : Prop where
  inside : ∀ note ∈ found.notes, note.use.id ∈ ids
  inside' : ∀ note ∈ found'.notes, note.use.id ∈ ids'
  accepted : found.refusal = none → found'.refusal = none
  moved : ∀ T T', known T → Walked T found ids → Walked T' found' ids' → moved T T'

namespace Carries

variable {known known' : Distances → Prop} {moved moved' : Distances → Distances → Prop}
  {found found' later later' : Findings Unit} {ids ids' laterIds laterIds' : List Nat}

theorem imp (carries : Carries known found found' ids ids' moved)
    (implies : ∀ T T', moved T T' → moved' T T') : Carries known found found' ids ids' moved' :=
  ⟨carries.inside, carries.inside', carries.accepted,
    fun T T' knows walked walked' => implies T T' (carries.moved T T' knows walked walked')⟩

theorem knowing (carries : Carries known found found' ids ids' moved)
    (more : ∀ T, known' T → known T) : Carries known' found found' ids ids' moved :=
  ⟨carries.inside, carries.inside', carries.accepted,
    fun T T' knows => carries.moved T T' (more T knows)⟩

theorem nothing (holds : ∀ T T', moved T T') : Carries known .nothing .nothing [] [] moved :=
  ⟨fun _ noted => absurd noted List.not_mem_nil, fun _ noted => absurd noted List.not_mem_nil,
    fun _ => rfl, fun T T' _ _ _ => holds T T'⟩

/-- Nothing has to be shown of a walk that was refused. -/
theorem of_accepted (inside : ∀ note ∈ found.notes, note.use.id ∈ ids)
    (inside' : ∀ note ∈ found'.notes, note.use.id ∈ ids')
    (carries : found.refusal = none → Carries known found found' ids ids' moved) :
    Carries known found found' ids ids' moved :=
  ⟨inside, inside', fun accepted => (carries accepted).accepted accepted,
    fun T T' knows walked => (carries walked.accepted).moved T T' knows walked⟩

theorem refused (r : Refusal) (found' : Findings Unit) (noted : found'.notes = []) :
    Carries known (.refused r) found' [] [] moved := by
  refine of_accepted (fun _ noted => absurd noted List.not_mem_nil) (fun _ member => ?_) nofun
  rw [noted] at member
  exact absurd member List.not_mem_nil

/-- The first part of a walk may depend on what is known of the second one. -/
theorem andThen_knowing
    (first : Carries (fun T => known T ∧ Walked T later laterIds) found found' ids ids' moved)
    (second : Carries known later later' laterIds laterIds' moved') :
    Carries known (found.andThen later) (found'.andThen later') (ids ++ laterIds)
      (ids' ++ laterIds') (fun T T' => moved T T' ∧ moved' T T') := by
  refine ⟨Findings.noted_andThen first.inside second.inside,
    Findings.noted_andThen first.inside' second.inside', fun accepted => ?_,
    fun T T' knows walked walked' => ?_⟩
  · obtain ⟨goesOn, goesOnLater, _⟩ := Findings.accepted_andThen accepted
    simp only [Findings.andThen, first.accepted goesOn, second.accepted goesOnLater]
  · obtain ⟨walkedFirst, walkedSecond⟩ := walked.andThen first.inside second.inside
    obtain ⟨walkedFirst', walkedSecond'⟩ := walked'.andThen first.inside' second.inside'
    exact ⟨first.moved T T' ⟨knows, walkedSecond⟩ walkedFirst walkedFirst',
      second.moved T T' knows walkedSecond walkedSecond'⟩

theorem andThen (first : Carries known found found' ids ids' moved)
    (second : Carries known later later' laterIds laterIds' moved') :
    Carries known (found.andThen later) (found'.andThen later') (ids ++ laterIds)
      (ids' ++ laterIds') (fun T T' => moved T T' ∧ moved' T T') :=
  (first.knowing fun _ => And.left).andThen_knowing second

end Carries

/-! ## Uses -/

section
variable {P : String → Prop} {L : Layers} {scopes scopes' : Scopes Unit} {known : Distances → Prop}

theorem Inserted.note (inserted : Inserted P L scopes scopes') (id id' : Nat) (form : UseForm)
    {name : Token} (used : P name.lexeme) :
    Carries known (scopes.note id form name) (scopes'.note id' form name) [id] [id']
      (fun T T' => UseMoved T T' L id id') := by
  refine ⟨Scopes.noted_inside scopes id form name,
    Scopes.noted_inside scopes' id' form name, ?_, ?_⟩
  · intro _
    unfold Scopes.note
    cases scopes'.find name.lexeme <;> rfl
  · intro T T' _ walked walked'
    unfold Scopes.note at walked walked'
    cases found : scopes.find name.lexeme with
    | none =>
      rw [found] at walked
      rw [inserted.find_none used found] at walked'
      refine .global ?_ ?_
      · exact walked.only id (List.mem_singleton_self id) fun _ noted =>
          absurd noted List.not_mem_nil
      · exact walked'.only id' (List.mem_singleton_self id') fun _ noted =>
          absurd noted List.not_mem_nil
    | some use =>
      obtain ⟨distance, rest⟩ := use
      obtain ⟨distance', leads, found'⟩ := inserted.find_some used found
      rw [found] at walked
      rw [found'] at walked'
      have noted := walked.noted _ (List.mem_singleton_self _)
      have noted' := walked'.noted _ (List.mem_singleton_self _)
      exact .found noted noted' leads

theorem Inserted.checkReady (inserted : Inserted P L scopes scopes') {name : Token}
    (used : P name.lexeme) :
    Carries known (scopes.checkReady name) (scopes'.checkReady name) [] [] (fun _ _ => True) := by
  have unnoted (scopes : Scopes Unit) :
      ∀ note ∈ (scopes.checkReady name).notes, note.use.id ∈ ([] : List Nat) := by
    rw [Scopes.checkReady_notes]
    exact fun _ noted => absurd noted List.not_mem_nil
  refine ⟨unnoted scopes, unnoted scopes', fun accepted => ?_, fun _ _ _ _ _ => trivial⟩
  unfold Scopes.checkReady at accepted ⊢
  cases found : scopes.find name.lexeme with
  | none =>
    rw [inserted.find_none used found]
    rfl
  | some use =>
    obtain ⟨distance, owner, readiness⟩ := use
    obtain ⟨distance', _, found'⟩ := inserted.find_some used found
    rw [found] at accepted
    rw [found']
    cases readiness with
    | pending => cases accepted
    | ready => rfl

end

/-! ## The increment of a loop around a place -/

/-- What is found of an expression carries over to folded ones. -/
def Expr.Carry (e : Expr) : Prop :=
  ∀ ⦃e' : Expr⦄ ⦃P : String → Prop⦄ ⦃L : Layers⦄ ⦃scopes scopes' : Scopes Unit⦄
    ⦃loops loops' functions : Nat⦄ ⦃known : Distances → Prop⦄, e.Folds e' →
    Inserted P L scopes scopes' → (∀ name ∈ e.names, P name) →
    Carries known (e.walk unlabelled scopes loops functions)
      (e'.walk unlabelled scopes' loops' functions) e.useIds e'.useIds
      (fun T T' => Expr.Moved T T' L e e')

/-- The increment of a folded loop around a place was accepted outside of the loop, the scopes
around that place will not have its names, and what is found of it carries over to its copies. -/
inductive Resumable (outer scopes' : Scopes Unit) (loops functions : Nat) (declared : List String) :
    Resumption → Prop
  | none : Resumable outer scopes' loops functions declared none
  | some {r : Expr} {R : Layers} (inserted : Inserted (· ∈ r.names) (.extra :: R) outer scopes')
      (accepted : (r.walk unlabelled outer loops functions).refusal = .none)
      (apart : ∀ name ∈ declared, name ∉ r.names) (copies : r.Carry) :
      Resumable outer scopes' loops functions declared (some (r, .extra :: R))

/-- A table tells the distances of the increment outside of the loop. -/
def Resumption.Known (outer : Scopes Unit) (loops functions : Nat) (onward : Resumption)
    (T : Distances) : Prop :=
  ∀ r R, onward = some (r, R) → Walked T (r.walk unlabelled outer loops functions) r.useIds

namespace Resumable

variable {outer scopes' : Scopes Unit} {loops functions : Nat} {declared declared' : List String}
  {onward : Resumption}

theorem mono (resumable : Resumable outer scopes' loops functions declared onward)
    (fewer : ∀ name ∈ declared', name ∈ declared) :
    Resumable outer scopes' loops functions declared' onward := by
  cases resumable with
  | none => exact .none
  | some inserted accepted apart copies =>
    exact .some inserted accepted (fun name member => apart name (fewer name member)) copies

theorem enter (resumable : Resumable outer scopes' loops functions declared onward) :
    Resumable outer (((), ∅) :: scopes') loops functions declared onward.enter := by
  cases resumable with
  | none => exact .none
  | some inserted accepted apart copies => exact .some inserted.extra_empty accepted apart copies

theorem after (s : Stmt) (resumable : Resumable outer scopes' loops functions declared onward)
    (inside : ∀ name ∈ s.blockNames, name ∈ declared) :
    Resumable outer (s.after scopes') loops functions declared onward := by
  cases resumable with
  | none => exact .none
  | some inserted accepted apart copies =>
    refine .some (inserted.after_extra s fun name member => ?_) accepted apart copies
    exact apart name (inside name member)

end Resumable

theorem Resumption.fst_enter {onward : Resumption} {r? : Option Expr}
    (given : onward.map Prod.fst = r?) : onward.enter.map Prod.fst = r? := by
  rw [Resumption.enter, Option.map_map, ← given]
  rfl

theorem Resumption.Known.leave {outer : Scopes Unit} {loops functions : Nat} {onward : Resumption}
    {T : Distances} (known : onward.Known outer loops functions T) :
    onward.enter.Known outer loops functions T := by
  intro r R entered
  simp only [Resumption.enter, Option.map_eq_some_iff, Prod.mk.injEq] at entered
  obtain ⟨⟨r', R'⟩, isOnward, rfl, _⟩ := entered
  exact known r' R' isOnward

theorem Resumption.known_none (outer : Scopes Unit) (loops functions : Nat) (T : Distances) :
    Resumption.Known outer loops functions none T := nofun

/-! ## Walks over folded trees -/

/-- What is found of expressions carries over to folded ones. -/
def Expr.AllCarry (es : List Expr) : Prop :=
  ∀ ⦃es' : List Expr⦄ ⦃P : String → Prop⦄ ⦃L : Layers⦄ ⦃scopes scopes' : Scopes Unit⦄
    ⦃loops loops' functions : Nat⦄ ⦃known : Distances → Prop⦄, Expr.AllFolds es es' →
    Inserted P L scopes scopes' → (∀ name ∈ Expr.allNames es, P name) →
    Carries known (Expr.walkAll unlabelled scopes loops functions es)
      (Expr.walkAll unlabelled scopes' loops' functions es') (Expr.allUseIds es)
      (Expr.allUseIds es') (fun T T' => Expr.AllMoved T T' L es es')

/-- What is found of a statement carries over to folded ones. -/
def Stmt.Carry (s : Stmt) : Prop :=
  ∀ ⦃r? : Option Expr⦄ ⦃s' : Stmt⦄ ⦃onward : Resumption⦄ ⦃P : String → Prop⦄ ⦃L : Layers⦄
    ⦃scopes scopes' outer : Scopes Unit⦄ ⦃loops loops₀ functions : Nat⦄,
    Stmt.Folds r? s s' → onward.map Prod.fst = r? → Inserted P L scopes scopes' →
    L.head? ≠ some .extra → (∀ name ∈ s.names, P name) →
    Resumable outer scopes' loops₀ functions s.blockNames onward →
    Carries (onward.Known outer loops₀ functions) (s.walk unlabelled scopes loops functions)
      (s'.walk unlabelled scopes' loops functions) s.useIds s'.useIds
      (fun T T' => Stmt.Moved T T' L onward s s')

/-- What is found of statements carries over to folded ones. -/
def Stmt.AllCarry (ss : List Stmt) : Prop :=
  ∀ ⦃r? : Option Expr⦄ ⦃ss' : List Stmt⦄ ⦃onward : Resumption⦄ ⦃P : String → Prop⦄ ⦃L : Layers⦄
    ⦃scopes scopes' outer : Scopes Unit⦄ ⦃loops loops₀ functions : Nat⦄,
    Stmt.AllFolds r? ss ss' → onward.map Prod.fst = r? → Inserted P L scopes scopes' →
    L.head? ≠ some .extra → (∀ name ∈ Stmt.allNames ss, P name) →
    Resumable outer scopes' loops₀ functions (Stmt.allBlockNames ss) onward →
    Carries (onward.Known outer loops₀ functions)
      (Stmt.walkAll unlabelled scopes loops functions ss)
      (Stmt.walkAll unlabelled scopes' loops functions ss') (Stmt.allUseIds ss)
      (Stmt.allUseIds ss') (fun T T' => Stmt.AllMoved T T' L onward ss ss')

/-- Outside of folded loops nothing has to be known of an increment. -/
theorem Stmt.AllCarry.outside {ss ss' : List Stmt} (carry : Stmt.AllCarry ss)
    (folds : Stmt.AllFolds none ss ss') {P : String → Prop} {L : Layers}
    {scopes scopes' : Scopes Unit} {loops functions : Nat} {known : Distances → Prop}
    (inserted : Inserted P L scopes scopes') (declares : L.head? ≠ some .extra)
    (used : ∀ name ∈ Stmt.allNames ss, P name) :
    Carries known (Stmt.walkAll unlabelled scopes loops functions ss)
      (Stmt.walkAll unlabelled scopes' loops functions ss') (Stmt.allUseIds ss)
      (Stmt.allUseIds ss') (fun T T' => Stmt.AllMoved T T' L none ss ss') := by
  have nothing : Resumable [] scopes' 0 functions (Stmt.allBlockNames ss) none := .none
  exact (carry folds rfl inserted declares used nothing).knowing
    fun T _ => Resumption.known_none _ _ _ T

theorem Stmt.Carry.outside {s s' : Stmt} (carry : s.Carry) (folds : Stmt.Folds none s s')
    {P : String → Prop} {L : Layers} {scopes scopes' : Scopes Unit} {loops functions : Nat}
    {known : Distances → Prop} (inserted : Inserted P L scopes scopes')
    (declares : L.head? ≠ some .extra) (used : ∀ name ∈ s.names, P name) :
    Carries known (s.walk unlabelled scopes loops functions)
      (s'.walk unlabelled scopes' loops functions) s.useIds s'.useIds
      (fun T T' => Stmt.Moved T T' L none s s') := by
  have nothing : Resumable [] scopes' 0 functions s.blockNames none := .none
  exact (carry folds rfl inserted declares used nothing).knowing
    fun T _ => Resumption.known_none _ _ _ T

section
variable {P : String → Prop} {L : Layers} {scopes scopes' outer : Scopes Unit}
  {loops loops₀ functions : Nat} {onward : Resumption}

theorem carries_option {e? e?' : Option Expr} (each : ∀ e ∈ e?, e.Carry)
    (folds : Expr.OptionFolds e? e?') {known : Distances → Prop}
    (inserted : Inserted P L scopes scopes') (used : ∀ name ∈ Expr.optionNames e?, P name) :
    Carries known (Expr.walkOption unlabelled scopes loops functions e?)
      (Expr.walkOption unlabelled scopes' loops functions e?') (Expr.optionUseIds e?)
      (Expr.optionUseIds e?') (fun T T' => Expr.OptionMoved T T' L e? e?') := by
  cases folds with
  | none => exact .nothing fun _ _ => .none
  | some folds => exact (each _ rfl folds inserted used).imp fun _ _ => .some

theorem carries_branch {r? : Option Expr} {s? s?' : Option Stmt} (each : ∀ s ∈ s?, s.Carry)
    (folds : Stmt.OptionFolds r? s? s?') (given : onward.map Prod.fst = r?)
    (inserted : Inserted P L scopes scopes') (declares : L.head? ≠ some .extra)
    (used : ∀ name ∈ Stmt.optionNames s?, P name)
    (resumable : Resumable outer scopes' loops₀ functions (Stmt.optionBlockNames s?) onward) :
    Carries (onward.Known outer loops₀ functions)
      (Stmt.walkOption unlabelled scopes loops functions s?)
      (Stmt.walkOption unlabelled scopes' loops functions s?') (Stmt.optionUseIds s?)
      (Stmt.optionUseIds s?') (fun T T' => Stmt.OptionMoved T T' L onward s? s?') := by
  cases folds with
  | none => exact .nothing fun _ _ => .none
  | some folds =>
    exact (each _ rfl folds given inserted declares used resumable).imp fun _ _ => .some

/-- The body and the increment of a folded loop are in scopes of their own, and no name of the
increment is declared in that of the body. -/
theorem carries_foldedLoop {e e' r r' : Expr} {ss ss' : List Stmt}
    (apart : ∀ name ∈ r.names, name ∉ Stmt.allBlockNames ss) (condition : e.Carry)
    (body : Stmt.AllCarry ss) (increment : r.Carry) (foldsCondition : e.Folds e')
    (foldsBody : Stmt.AllFolds (some r) ss ss') (foldsIncrement : r.Folds r')
    (inserted : Inserted P L scopes scopes')
    (used : ∀ name ∈ (Stmt.whileLoop e (.block ss) (some r)).names, P name) :
    Carries (onward.Known outer loops₀ functions)
      ((Stmt.whileLoop e (.block ss) (some r)).walk unlabelled scopes loops functions)
      ((Stmt.whileLoop e' (.block [.block ss', .expression r']) none).walk unlabelled scopes' loops
        functions)
      (Stmt.whileLoop e (.block ss) (some r)).useIds
      (Stmt.whileLoop e' (.block [.block ss', .expression r']) none).useIds
      (fun T T' => Stmt.Moved T T' L onward (.whileLoop e (.block ss) (some r))
        (.whileLoop e' (.block [.block ss', .expression r']) none)) := by
  obtain ⟨inCondition, inRest⟩ := List.forall_mem_append.1 used
  obtain ⟨inBody, inIncrement⟩ := List.forall_mem_append.1 inRest
  refine .of_accepted (Stmt.noted_inside _ _ _ _ _) (Stmt.noted_inside _ _ _ _ _)
    fun accepted => ?_
  obtain ⟨_, rounds, _⟩ := Findings.accepted_andThen accepted
  obtain ⟨_, isAccepted, _⟩ := Findings.accepted_andThen rounds
  -- Seen from the increment, the scope of the old body is one that was not there before.
  have inBlock := (inserted.mono inIncrement).extra_empty.extra_empty
  have resumable : Resumable scopes (((), ∅) :: ((), ∅) :: scopes') loops functions
      (Stmt.allBlockNames ss) (some (r, .extra :: .extra :: L)) :=
    .some inBlock isAccepted (fun name declared isUsed => apart name isUsed declared) increment
  simp only [Stmt.walk, Stmt.walkAll, Expr.walkOption, Stmt.useIds, Stmt.allUseIds,
    Expr.optionUseIds, Findings.andThen_nothing, List.append_nil]
  refine ((condition foldsCondition inserted inCondition).andThen
    (((body foldsBody rfl (.shared ((), ∅) inserted.extra_empty) (by simp) inBody
      resumable).knowing ?_).andThen_knowing
        (increment foldsIncrement inserted.extra_empty inIncrement))).imp ?_
  · rintro T ⟨_, walked⟩ r₀ R₀ isIncrement
    cases isIncrement
    exact walked
  · rintro T T' ⟨condition, body, increment⟩
    exact .foldedLoop condition (.block body) increment

theorem carries_foldedContinue {r r' : Expr} {R : Layers} (keyword : Token)
    (increment : r.Folds r') (inserted : Inserted (· ∈ r.names) (.extra :: R) outer scopes')
    (isAccepted : (r.walk unlabelled outer loops₀ functions).refusal = none) (copies : r.Carry) :
    Carries (Resumption.Known outer loops₀ functions (some (r, .extra :: R)))
      ((Stmt.continueLoop keyword).walk unlabelled scopes loops functions)
      ((Stmt.block [.expression r', .continueLoop keyword]).walk unlabelled scopes' loops functions)
      (Stmt.continueLoop keyword).useIds
      (Stmt.block [.expression r', .continueLoop keyword]).useIds
      (fun T T' => Stmt.Moved T T' L (some (r, .extra :: R)) (.continueLoop keyword)
        (.block [.expression r', .continueLoop keyword])) := by
  refine .of_accepted (Stmt.noted_inside _ _ _ _ _) (Stmt.noted_inside _ _ _ _ _)
    fun accepted => ?_
  have inLoop : loops ≠ 0 := by
    rintro rfl
    cases accepted
  have carried : Carries (fun _ => True) (r.walk unlabelled outer loops₀ functions)
      (r'.walk unlabelled (((), ∅) :: scopes') loops functions) r.useIds r'.useIds
      (fun T T' => Expr.Moved T T' (.extra :: .extra :: R) r r') :=
    copies increment inserted.extra_empty fun _ member => member
  simp only [Stmt.walk, Stmt.walkAll, inLoop, if_false, Stmt.useIds, Stmt.allUseIds,
    Findings.andThen_nothing, List.append_nil]
  refine ⟨fun _ noted => absurd noted List.not_mem_nil, carried.inside',
    fun _ => carried.accepted isAccepted, fun T T' known _ walked' => ?_⟩
  exact .foldedContinue keyword (carried.moved T T' trivial (known r _ rfl) walked')

end

mutual

theorem Expr.carry (e : Expr) : e.Carry := by
  intro e' P L scopes scopes' loops loops' functions known folds inserted used
  cases e with
  | literal id value =>
    cases folds with
    | literal _ id' => exact .nothing fun _ _ => .literal id id' value
  | grouping id inner =>
    cases folds with
    | grouping _ id' folds =>
      exact (Expr.carry inner folds inserted used).imp fun _ _ => .grouping id id'
  | unary id operator right =>
    cases folds with
    | unary _ id' _ folds =>
      exact (Expr.carry right folds inserted used).imp fun _ _ => .unary id id' operator
  | step id left operator =>
    cases folds with
    | step _ id' _ folds =>
      exact (Expr.carry left folds inserted used).imp fun _ _ => .step id id' operator
  | binary id left operator right =>
    obtain ⟨inLeft, inRight⟩ := List.forall_mem_append.1 used
    cases folds with
    | binary _ id' _ foldsLeft foldsRight =>
      refine ((Expr.carry left foldsLeft inserted inLeft).andThen
        (Expr.carry right foldsRight inserted inRight)).imp ?_
      exact fun _ _ ⟨left, right⟩ => .binary id id' operator left right
  | logical id left operator right =>
    obtain ⟨inLeft, inRight⟩ := List.forall_mem_append.1 used
    cases folds with
    | logical _ id' _ foldsLeft foldsRight =>
      refine ((Expr.carry left foldsLeft inserted inLeft).andThen
        (Expr.carry right foldsRight inserted inRight)).imp ?_
      exact fun _ _ ⟨left, right⟩ => .logical id id' operator left right
  | reference id name =>
    have isUsed := used name.lexeme (List.mem_singleton_self _)
    cases folds with
    | reference _ id' =>
      refine ((inserted.checkReady isUsed).andThen (inserted.note id id' .reference isUsed)).imp ?_
      exact fun _ _ ⟨_, use⟩ => .reference name use
  | assignment id name value =>
    obtain ⟨isUsed, inValue⟩ := List.forall_mem_cons.1 used
    cases folds with
    | assignment _ id' _ folds =>
      refine ((Expr.carry value folds inserted inValue).andThen
        (inserted.note id id' .assignment isUsed)).imp ?_
      exact fun _ _ ⟨value, use⟩ => .assignment name value use
  | call id callee arguments paren =>
    obtain ⟨inCallee, inArguments⟩ := List.forall_mem_append.1 used
    cases folds with
    | call _ id' _ foldsCallee foldsArguments =>
      refine ((Expr.carry callee foldsCallee inserted inCallee).andThen
        (Expr.allCarry arguments foldsArguments inserted inArguments)).imp ?_
      exact fun _ _ ⟨callee, arguments⟩ => .call id id' paren callee arguments
  | lambda id keyword params body name =>
    obtain ⟨_, inBody⟩ := List.forall_mem_append.1 used
    have entered := inserted.declareAll params ((), ∅)
    cases folds with
    | lambda _ id' _ _ _ folds =>
      refine ((Stmt.allCarry body).outside folds entered (by simp) inBody).imp ?_
      exact fun _ _ => .lambda id id' keyword params name
  | misplaced kind =>
    cases folds with
    | misplaced => exact .refused _ _ rfl
termination_by structural e

theorem Expr.allCarry (es : List Expr) : Expr.AllCarry es := by
  intro es' P L scopes scopes' loops loops' functions known folds inserted used
  cases es with
  | nil =>
    cases folds with
    | nil => exact .nothing fun _ _ => .nil
  | cons e rest =>
    obtain ⟨inHead, inTail⟩ := List.forall_mem_append.1 used
    cases folds with
    | cons head tail =>
      refine ((Expr.carry e head inserted inHead).andThen
        (Expr.allCarry rest tail inserted inTail)).imp ?_
      exact fun _ _ ⟨head, tail⟩ => .cons head tail
termination_by structural es

theorem Expr.optionCarry (e? : Option Expr) : ∀ e ∈ e?, e.Carry := by
  cases e? with
  | none => nofun
  | some e =>
    rintro _ ⟨⟩
    exact Expr.carry e
termination_by structural e?

theorem Stmt.carry (s : Stmt) : s.Carry := by
  intro r? s' onward P L scopes scopes' outer loops loops₀ functions folds given inserted declares
    used resumable
  cases s with
  | expression e =>
    cases folds with
    | expression folds => exact (Expr.carry e folds inserted used).imp fun _ _ => .expression
  | declaration name initializer =>
    obtain ⟨_, inInitializer⟩ := List.forall_mem_cons.1 used
    have value := Expr.optionCarry initializer
    cases folds with
    | declaration _ folds =>
      cases folds with
      | none => exact .nothing fun _ _ => .declaration name declares .none
      | some folds =>
        simp only [Stmt.walk, folds.readiness]
        refine (value _ rfl folds (inserted.declare declares name _) inInitializer).imp ?_
        exact fun _ _ value => .declaration name declares (.some value)
  | block statements =>
    cases folds with
    | block folds =>
      refine ((Stmt.allCarry statements folds (Resumption.fst_enter given)
        (.shared ((), ∅) inserted) (by simp) used resumable.enter).knowing
          fun _ => Resumption.Known.leave).imp ?_
      exact fun _ _ => .block
  | ifElse condition thenBranch elseBranch =>
    obtain ⟨inCondition, inBranches⟩ := List.forall_mem_append.1 used
    obtain ⟨inThen, inElse⟩ := List.forall_mem_append.1 inBranches
    have resumableThen := resumable.mono fun _ => List.mem_append_left _
    have resumableElse := (resumable.after thenBranch fun _ => List.mem_append_left _).mono
      fun _ => List.mem_append_right _
    cases folds with
    | ifElse foldsCondition foldsThen foldsElse =>
      simp only [Stmt.walk, foldsThen.after]
      refine ((Expr.carry condition foldsCondition inserted inCondition).andThen
        ((Stmt.carry thenBranch foldsThen given inserted declares inThen resumableThen).andThen
          (carries_branch (Stmt.optionCarry elseBranch) foldsElse given
            (inserted.after thenBranch declares) declares inElse resumableElse))).imp ?_
      exact fun _ _ ⟨condition, thenBranch, elseBranch⟩ => .ifElse condition thenBranch elseBranch
  | whileLoop condition body increment =>
    have carryBody := Stmt.bodyCarry body
    have carryIncrement := Expr.optionCarry increment
    cases folds with
    | whileLoop foldsCondition foldsBody foldsIncrement =>
      obtain ⟨inCondition, inRest⟩ := List.forall_mem_append.1 used
      obtain ⟨inBody, inIncrement⟩ := List.forall_mem_append.1 inRest
      simp only [Stmt.walk, foldsBody.after]
      refine ((Expr.carry condition foldsCondition inserted inCondition).andThen
        (((Stmt.carry body).outside foldsBody inserted declares inBody).andThen
          (carries_option carryIncrement foldsIncrement (inserted.after body declares)
            inIncrement))).imp ?_
      exact fun _ _ ⟨condition, body, increment⟩ => .whileLoop condition body increment
    | foldedLoop apart foldsCondition foldsBody foldsIncrement =>
      exact carries_foldedLoop apart (Expr.carry condition) (carryBody _ rfl) (carryIncrement _ rfl)
        foldsCondition foldsBody foldsIncrement inserted used
  | breakLoop keyword =>
    cases folds with
    | breakLoop =>
      refine ⟨Stmt.noted_inside _ _ _ _ _, Stmt.noted_inside _ _ _ _ _, id, fun _ _ _ _ _ => ?_⟩
      exact .breakLoop keyword
  | continueLoop keyword =>
    cases folds with
    | continueLoop =>
      cases resumable with
      | some => cases given
      | none =>
        refine ⟨Stmt.noted_inside _ _ _ _ _, Stmt.noted_inside _ _ _ _ _, id, fun _ _ _ _ _ => ?_⟩
        exact .continueLoop keyword
    | foldedContinue _ increment =>
      cases resumable with
      | none => cases given
      | some isInserted isAccepted _ copies =>
        cases given
        exact carries_foldedContinue keyword increment isInserted isAccepted copies
  | returnValue keyword value =>
    have carryValue := Expr.optionCarry value
    cases folds with
    | returnValue _ folds =>
      simp only [Stmt.walk]
      by_cases outside : functions = 0
      · simp only [outside, if_true]
        exact .of_accepted (fun _ noted => absurd noted List.not_mem_nil)
          (fun _ noted => absurd noted List.not_mem_nil) nofun
      · simp only [outside, if_false]
        exact (carries_option carryValue folds inserted used).imp fun _ _ => .returnValue keyword
  | misplaced kind =>
    cases folds with
    | misplaced => exact .refused _ _ rfl
termination_by structural s

theorem Stmt.allCarry (ss : List Stmt) : Stmt.AllCarry ss := by
  intro r? ss' onward P L scopes scopes' outer loops loops₀ functions folds given inserted declares
    used resumable
  cases ss with
  | nil =>
    cases folds with
    | nil => exact .nothing fun _ _ => .nil
  | cons s rest =>
    obtain ⟨inHead, inTail⟩ := List.forall_mem_append.1 used
    have resumableHead := resumable.mono fun _ => List.mem_append_left _
    have resumableTail := (resumable.after s fun _ => List.mem_append_left _).mono
      fun _ => List.mem_append_right _
    cases folds with
    | cons head tail =>
      simp only [Stmt.walkAll, head.after]
      refine ((Stmt.carry s head given inserted declares inHead resumableHead).andThen
        (Stmt.allCarry rest tail given (inserted.after s declares) declares inTail
          resumableTail)).imp ?_
      exact fun _ _ ⟨head, tail⟩ => .cons head tail
termination_by structural ss

theorem Stmt.optionCarry (s? : Option Stmt) : ∀ s ∈ s?, s.Carry := by
  cases s? with
  | none => nofun
  | some s =>
    rintro _ ⟨⟩
    exact Stmt.carry s
termination_by structural s?

/-- What is found of the statements of a block carries over to folded ones. -/
theorem Stmt.bodyCarry (s : Stmt) : ∀ ss, s = .block ss → Stmt.AllCarry ss := by
  cases s with
  | block statements =>
    rintro _ ⟨⟩
    exact Stmt.allCarry statements
  | _ => nofun
termination_by structural s

end

/-! ## Whole programs -/

/-- A folded program is accepted if the program was, and its uses lead to the same scopes. -/
theorem Program.Folds.moved {p p' : Program} (folds : p.Folds p')
    (accepted : p.resolution.outcome = .ok ()) (nodup : p.useIds.Nodup)
    (nodup' : p'.useIds.Nodup) :
    p'.resolution.outcome = .ok () ∧
      Stmt.AllMoved p.distances p'.distances [] none p p' := by
  have carries : Carries (fun _ => True) (Program.findings unlabelled p)
      (Program.findings unlabelled p') p.useIds p'.useIds
      (fun T T' => Stmt.AllMoved T T' [] none p p') :=
    (Stmt.allCarry p).outside folds .nil (by simp) fun _ _ => trivial
  have accepted' : p'.resolution.outcome = .ok () :=
    Program.accepted_iff.2 (carries.accepted (Program.accepted_iff.1 accepted))
  refine ⟨accepted', ?_⟩
  exact carries.moved _ _ trivial (Program.walked accepted nodup) (Program.walked accepted' nodup')

end Lox
