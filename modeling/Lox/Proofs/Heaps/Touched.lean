import Lox.Proofs.Heaps.Confined
import Lox.Run.Eval

/-!
# What a run touches

A run of a statement, an expression or a call changes no variable of a frame that cannot be reached from
what it is given or from the global variables, and what it gives can be reached from there, or is new.
This holds of all trees, also of ones that were never resolved or whose literals hold functions, and of
all ways to end.
-/

namespace Lox

/-! ## Runs of trees stay in a region -/

/-- A returned value is in a region. -/
def Completion.Inside (R : Region) (links : Links) : Completion → Prop
  | .returned v => v.Inside R links
  | _ => True

theorem Completion.Inside.mono {R : Region} {links links' : Links} {c : Completion}
    (inside : c.Inside R links) (further : links <+: links') : c.Inside R links' := by
  cases c with
  | returned v => exact Value.Inside.mono inside further
  | finished | broken | continued => trivial

/-- Runs of trees of a region in environments of it stay there. -/
structure ConfinedAt (R : Region) (access : Access) (n : Nat) : Prop where
  exec : ∀ {links env t}, env.Inside R links → R.Admits t.nodes →
    Confined R links (fun links' c => c.Inside R links')
      (exec (access.steps.holding R.held) n env t)
  rounds : ∀ {links env condition body increment}, env.Inside R links → R.Admits condition.nodes →
    R.Admits body.nodes → R.Admits (Expr.optionNodes increment) →
    Confined R links (fun links' c => c.Inside R links')
      (rounds (access.steps.holding R.held) n env condition body increment)
  eval : ∀ {links env e}, env.Inside R links → R.Admits e.nodes →
    Confined R links (fun links' v => v.Inside R links')
      (eval (access.steps.holding R.held) n env e)
  call : ∀ {links f vs}, f.Inside R links → (∀ v ∈ vs, v.Inside R links) → ∀ line,
    Confined R links (fun links' v => v.Inside R links')
      (call (access.steps.holding R.held) n f vs line)
  enter : ∀ {links c vs}, c.Inside R links → (∀ v ∈ vs, v.Inside R links) →
    Confined R links (fun links' v => v.Inside R links')
      (enter (access.steps.holding R.held) n c vs)

section
variable {R : Region} {links : Links} {env : Env}

theorem confined_inOrder {run : Stmt → Running Completion}
    (each : ∀ {links t}, env.Inside R links → R.Admits t.nodes →
      Confined R links (fun links' c => c.Inside R links') (run t))
    (inside : env.Inside R links) {ss : List Stmt} (admits : R.Admits (Stmt.allNodes ss)) :
    Confined R links (fun links' c => c.Inside R links') (Running.inOrder run ss) := by
  induction ss generalizing links with
  | nil => exact confined_pure trivial
  | cons t rest ih =>
    obtain ⟨first, others⟩ := R.admits_append.1 admits
    refine (each inside first).bind fun links' c further isInside => ?_
    cases c with
    | finished => exact ih (inside.mono further) others
    | broken | continued => exact confined_pure trivial
    | returned v => exact confined_pure isInside

/-- The values of arguments are in the region after all of them are evaluated. -/
theorem confined_mapM {run : Expr → Running Value}
    (each : ∀ {links e}, env.Inside R links → R.Admits e.nodes →
      Confined R links (fun links' v => v.Inside R links') (run e))
    (inside : env.Inside R links) {es : List Expr} (admits : R.Admits (Expr.allNodes es)) :
    Confined R links (fun links' vs => ∀ v ∈ vs, v.Inside R links') (es.mapM run) := by
  induction es generalizing links with
  | nil => exact confined_pure fun _ member => absurd member List.not_mem_nil
  | cons e rest ih =>
    obtain ⟨first, others⟩ := R.admits_append.1 admits
    rw [List.mapM_cons]
    refine (each inside first).bind fun links' v further value => ?_
    refine (ih (inside.mono further) others).bind fun links'' vs further' values => ?_
    exact confined_pure (List.forall_mem_cons.2 ⟨value.mono further', values⟩)

theorem confined_valueOf {c : Completion} (inside : c.Inside R links) :
    Confined R links (fun links' v => v.Inside R links') (Running.valueOf c) := by
  cases c with
  | returned v => exact confined_pure inside
  | finished => exact confined_pure trivial
  | broken | continued => exact confined_throw _

section
variable {access : Access} {n : Nat} (below : ConfinedAt R access n)
include below

private theorem confined_exec {t : Stmt} (inside : env.Inside R links) (admits : R.Admits t.nodes) :
    Confined R links (fun links' c => c.Inside R links')
      (exec (access.steps.holding R.held) (n + 1) env t) := by
  cases t with
  | expression e => exact (below.eval inside admits).bind fun _ _ _ _ => confined_pure trivial
  | declaration name initializer =>
    cases initializer with
    | none =>
      exact (confined_define inside name (v := .nil) trivial).bind fun _ _ _ _ =>
        confined_pure trivial
    | some e =>
      refine (below.eval inside admits).bind fun links' v further value => ?_
      exact (confined_define (inside.mono further) name value).bind fun _ _ _ _ =>
        confined_pure trivial
  | block statements =>
    exact (confined_newFrame inside).bind fun links' inner _ isInside =>
      confined_inOrder below.exec isInside admits
  | ifElse condition thenBranch elseBranch =>
    obtain ⟨inCondition, branches⟩ := R.admits_append.1 admits
    obtain ⟨inThen, inElse⟩ := R.admits_append.1 branches
    refine (below.eval inside inCondition).bind fun links' v further _ => ?_
    refine (Running.keeps_note (.condition v)).stays.bind fun links'' _ further' _ => ?_
    have inside := (inside.mono further).mono further'
    cases v.truthy with
    | true => exact below.exec inside inThen
    | false =>
      cases elseBranch with
      | none => exact confined_pure trivial
      | some s => exact below.exec inside inElse
  | whileLoop condition body increment =>
    obtain ⟨inCondition, others⟩ := R.admits_append.1 admits
    obtain ⟨inBody, inIncrement⟩ := R.admits_append.1 others
    exact below.rounds inside inCondition inBody inIncrement
  | breakLoop | continueLoop => exact confined_pure trivial
  | returnValue keyword value =>
    cases value with
    | none => exact confined_pure trivial
    | some e => exact (below.eval inside admits).bind fun _ _ _ value => confined_pure value
  | misplaced => exact confined_throw _

private theorem confined_rounds {condition : Expr} {body : Stmt} {increment : Option Expr}
    (inside : env.Inside R links) (inCondition : R.Admits condition.nodes) (inBody : R.Admits body.nodes)
    (inIncrement : R.Admits (Expr.optionNodes increment)) :
    Confined R links (fun links' c => c.Inside R links')
      (rounds (access.steps.holding R.held) (n + 1) env condition body increment) := by
  refine (below.eval inside inCondition).bind fun links' v further _ => ?_
  have inside := inside.mono further
  cases v.truthy with
  | false => exact confined_pure trivial
  | true =>
    refine (below.exec inside inBody).bind fun links'' c further' isInside => ?_
    have inside := inside.mono further'
    cases c with
    | broken => exact confined_pure trivial
    | returned v => exact confined_pure isInside
    | finished | continued =>
      cases increment with
      | none => exact below.rounds inside inCondition inBody inIncrement
      | some e =>
        exact (below.eval inside inIncrement).bind fun _ _ further _ =>
          below.rounds (inside.mono further) inCondition inBody inIncrement

private theorem confined_eval {e : Expr} (inside : env.Inside R links) (admits : R.Admits e.nodes) :
    Confined R links (fun links' v => v.Inside R links')
      (eval (access.steps.holding R.held) (n + 1) env e) := by
  obtain ⟨enclosed, here⟩ := R.admits_append.1 admits
  cases e with
  | literal id value =>
    exact fun m within =>
      ⟨links, List.prefix_rfl, within, (Value.inside_held here).mono within.further⟩
  | grouping id inner => exact below.eval inside enclosed
  | unary id operator right =>
    exact (below.eval inside enclosed).bind fun _ _ _ _ =>
      confined_ofResult (fun _ => Value.plain_unary) operator.line
  | binary id left operator right =>
    obtain ⟨inLeft, inRight⟩ := R.admits_append.1 enclosed
    refine (below.eval inside inLeft).bind fun _ v further _ => ?_
    exact (below.eval (inside.mono further) inRight).bind fun _ w _ _ =>
      confined_ofResult (fun _ => Value.plain_binary) operator.line
  | logical id left operator right =>
    obtain ⟨inLeft, inRight⟩ := R.admits_append.1 enclosed
    refine (below.eval inside inLeft).bind fun _ v further value => ?_
    cases v.settles operator with
    | true => exact confined_pure value
    | false => exact below.eval (inside.mono further) inRight
  | step id left operator =>
    cases left with
    | reference id name =>
      refine (confined_lookUp inside access id name).bind fun links' v further _ => ?_
      have changed : Confined R links' (fun links' v => v.Inside R links')
          (Running.ofResult operator.line (v.step operator)) :=
        confined_ofResult (fun _ => Value.plain_step) operator.line
      refine changed.bind fun _ w further' value => ?_
      exact (confined_assign ((inside.mono further).mono further') access id name value).bind
        fun _ _ further _ => confined_pure (value.mono further)
    | _ => exact confined_throw _
  | reference id name => exact confined_lookUp inside access id name
  | assignment id name value =>
    refine (below.eval inside enclosed).bind fun _ v further value => ?_
    exact (confined_assign (inside.mono further) access id name value).bind
      fun _ _ further _ => confined_pure (value.mono further)
  | call id callee arguments paren =>
    obtain ⟨inCallee, inArguments⟩ := R.admits_append.1 enclosed
    refine (below.eval inside inCallee).bind fun _ f further function => ?_
    refine (confined_mapM below.eval (inside.mono further) inArguments).bind
      fun _ vs further' values => ?_
    exact below.call (function.mono further') values paren.line
  | lambda id keyword params body name => exact confined_close inside keyword params enclosed name
  | misplaced => exact confined_throw _

private theorem confined_call {f : Value} {vs : List Value} (function : f.Inside R links)
    (values : ∀ v ∈ vs, v.Inside R links) (line : Int) :
    Confined R links (fun links' v => v.Inside R links')
      (call (access.steps.holding R.held) (n + 1) f vs line) := by
  cases f with
  | closure c =>
    refine (confined_checkArity _ _ _).bind fun _ _ further _ => ?_
    refine (Running.keeps_note _).stays.bind fun _ _ further' _ => ?_
    have further := further.trans further'
    exact (below.enter (Closure.Inside.mono function further) fun v member =>
      (values v member).mono further).inCall _
  | native f =>
    refine (confined_checkArity _ _ _).bind fun _ _ _ _ => ?_
    refine (Running.keeps_note _).stays.bind fun _ _ _ _ => ?_
    exact (confined_callNative f vs).inCall _
  | nil | bool | num | str => exact confined_throw _

private theorem confined_enter {c : Closure} {vs : List Value} (inside : c.Inside R links)
    (values : ∀ v ∈ vs, v.Inside R links) :
    Confined R links (fun links' v => v.Inside R links')
      (enter (access.steps.holding R.held) (n + 1) c vs) := by
  refine (confined_bindArguments inside.env values).bind fun _ env _ isInside => ?_
  refine Confined.inCall ?_ _
  exact (confined_inOrder below.exec isInside inside.body).bind fun _ _ _ => confined_valueOf

end

theorem confinedAt (R : Region) (access : Access) (n : Nat) : ConfinedAt R access n := by
  induction n with
  | zero => constructor <;> intros <;> exact confined_throw _
  | succ n ih =>
    exact ⟨confined_exec ih, confined_rounds ih, confined_eval ih, confined_call ih,
      confined_enter ih⟩

end

/-! ## What can be reached -/

/-- What can be reached: frames, and functions of a program. -/
inductive Reachable
  | frame (r : Ref)
  | function (c : Closure)

/-- A value itself, if it is a function of a program. -/
def Value.given : Value → List Reachable
  | .closure c => [.function c]
  | _ => []

/-- A returned value, if it is a function of a program. -/
def Completion.given : Completion → List Reachable
  | .returned v => v.given
  | _ => []

/-- What a run gives. -/
def runGiven {α : Type} (given : α → List Reachable) :
    EStateM.Result Stop Machine α → List Reachable
  | .ok a _ => given a
  | .error _ _ => []

/-- What a tree with the given expressions begins with in an environment: the environment, the global
variables, and the functions that literals of the tree hold. -/
def Env.roots (env : Env) (held : Value.Held) (nodes : List Expr) : List Reachable :=
  .frame env.frame :: .frame Env.global.frame :: (held.functions nodes).map .function

/-- What a call begins with: the function and the arguments, and the global variables. -/
def Value.roots (vs : List Value) : List Reachable :=
  .frame Env.global.frame :: vs.flatMap Value.given

/-- Links of the frames of a store: they lead outwards from the functions that its variables hold, and
the global frame stands in none. -/
structure Store.LinkedBy (links : Links) (s : Store) : Prop where
  size : links.length = s.frames.size
  root : links[Env.global.frame]? = some none
  stored : ∀ {r : Ref} {name : String} {c : Closure},
    (s.bindings r)[name]? = some (.closure c) → links.Lead c.env.chain

/-- Links lead outwards from the functions that literals hold. -/
def Value.Held.LinkedBy (links : Links) (held : Value.Held) : Prop :=
  ∀ (id : Nat) (c : Closure), held id = some (.closure c) → links.Lead c.env.chain

/-- What can be reached from some roots: what a frame that is reached stands in, the functions that its
variables hold, the frame of the environment of such a function, and the functions that the literals in
its body hold. -/
inductive Store.Reached (held : Value.Held) (links : Links) (s : Store) (roots : List Reachable) :
    Reachable → Prop
  | root {x : Reachable} (member : x ∈ roots) : Reached held links s roots x
  | around {r p : Ref} (reached : Reached held links s roots (.frame r))
    (link : links[r]? = some (some p)) : Reached held links s roots (.frame p)
  | stored {r : Ref} {name : String} {c : Closure} (reached : Reached held links s roots (.frame r))
    (found : (s.bindings r)[name]? = some (.closure c)) : Reached held links s roots (.function c)
  | env {c : Closure} (reached : Reached held links s roots (.function c)) :
    Reached held links s roots (.frame c.env.frame)
  | literal {c c' : Closure} (reached : Reached held links s roots (.function c))
    (member : c' ∈ held.functions (Stmt.allNodes c.body)) : Reached held links s roots (.function c')

/-- What a run that begins with some roots touches in a store, and what it gives. -/
structure Touches {α : Type} (held : Value.Held) (links : Links) (s : Store) (roots : List Reachable)
    (given : α → List Reachable) (result : EStateM.Result Stop Machine α) : Prop where
  /-- A frame that could not be reached has the same variables. -/
  unreached : ∀ r < s.frames.size, ¬ s.Reached held links roots (.frame r) →
    (stateLeft result).store.bindings r = s.bindings r
  /-- No frame is lost, and no name of a frame. -/
  grown : s.Grown (stateLeft result).store
  /-- All frames stand where they stood. What can be reached in the end, also from what is given, could
  be reached before or is new. -/
  linked : ∃ links' : Links, links <+: links' ∧ (stateLeft result).store.LinkedBy links' ∧
    (∀ c, .function c ∈ runGiven given result → links'.Lead c.env.chain) ∧
    ∀ r, (stateLeft result).store.Reached held links' (roots ++ runGiven given result) (.frame r) →
      s.Reached held links roots (.frame r) ∨ s.frames.size ≤ r

/-! ## The region of what can be reached -/

/-- A frame or a function of a region. -/
def Reachable.Inside (R : Region) (links : Links) : Reachable → Prop
  | .frame r => R.frames r
  | .function c => c.Inside R links

section
variable {R : Region} {held : Value.Held} {links links' : Links} {s : Store} {roots : List Reachable}

theorem Reachable.Inside.mono {x : Reachable} (inside : x.Inside R links) (further : links <+: links') :
    x.Inside R links' := by
  cases x with
  | frame r => exact inside
  | function c => exact Closure.Inside.mono inside further

/-- A region holds all that can be reached from roots of the region. -/
theorem Store.Inside.reached (within : s.Inside R links) (inside : ∀ x ∈ roots, x.Inside R links)
    {x : Reachable} (reached : s.Reached R.held links roots x) : x.Inside R links := by
  induction reached with
  | root member => exact inside _ member
  | around _ link isInside => exact within.around isInside link
  | stored _ found isInside => exact within.values isInside found
  | env _ isInside => exact isInside.env.inside
  | literal _ member isInside =>
    exact (R.inside_of_functions (isInside.body _ member)).mono within.further

/-- Outside of a region there are the functions that there were. -/
theorem Store.Inside.linkedBy (within : s.Inside R links) (linked : R.store.LinkedBy R.links) :
    s.LinkedBy links := by
  refine ⟨within.size, getElem?_further within.further R.root, fun {r name c} found => ?_⟩
  by_cases isInside : R.frames r
  · exact (within.values isInside found).env.lead
  · rw [within.outside isInside] at found
    exact (linked.stored found).mono within.further

theorem Value.inside_given {v : Value} : v.Inside R links ↔ ∀ x ∈ v.given, x.Inside R links := by
  cases v with
  | closure c =>
    rw [Value.given, List.forall_mem_singleton]
    rfl
  | nil | bool | num | str | native => exact iff_of_true trivial (List.forall_mem_nil _)

theorem Completion.inside_given {c : Completion} :
    c.Inside R links ↔ ∀ x ∈ c.given, x.Inside R links := by
  cases c with
  | returned v => exact Value.inside_given
  | finished | broken | continued => exact iff_of_true trivial (List.forall_mem_nil _)

/-- The roots of a run, the global frame among them, lead outwards along the links of its store, and so
do the functions that literals hold. -/
structure Store.Rooted (held : Value.Held) (links : Links) (s : Store) (roots : List Reachable) :
    Prop where
  linked : s.LinkedBy links
  literals : held.LinkedBy links
  lead : ∀ c, .function c ∈ roots → links.Lead c.env.chain
  global : .frame Env.global.frame ∈ roots

namespace Store.Rooted

variable (rooted : s.Rooted held links roots)
include rooted

/-- The links lead outwards from all functions that can be reached. -/
theorem lead_of_reached {c : Closure} (reached : s.Reached held links roots (.function c)) :
    links.Lead c.env.chain := by
  cases reached with
  | root member => exact rooted.lead c member
  | stored _ found => exact rooted.linked.stored found
  | literal _ member =>
    obtain ⟨id, found⟩ := Value.Held.exists_of_mem_functions member
    exact rooted.literals id c found

/-- What can be reached from the roots, and whatever will be new. -/
def region : Region where
  frames r := s.Reached held links roots (.frame r) ∨ links.length ≤ r
  functions c := s.Reached held links roots (.function c)
  held := held
  links := links
  store := s
  root := rooted.linked.root
  global := .inl (.root rooted.global)
  new _ := .inr
  lead := rooted.lead_of_reached
  env reached := .inl (.env reached)
  body reached _ member := .literal reached member

theorem inside : s.Inside rooted.region links := by
  refine ⟨List.prefix_rfl, rooted.linked.size, .refl s, ?_, ?_, fun _ => rfl⟩
  · rintro r p (reached | isNew) link
    · exact .inl (.around reached link)
    · rw [List.getElem?_eq_none isNew] at link
      cases link
  · rintro r name v (reached | isNew) found
    · cases v with
      | closure c => exact rooted.region.inside_of_functions (.stored reached found)
      | nil | bool | num | str | native => trivial
    · rw [rooted.linked.size] at isNew
      rw [bindings, Array.getElem?_eq_none isNew, Option.getD_none] at found
      simp at found

theorem inside_of_root {x : Reachable} (isRoot : x ∈ roots) : x.Inside rooted.region links := by
  cases x with
  | frame r => exact .inl (.root isRoot)
  | function c => exact rooted.region.inside_of_functions (.root isRoot)

end Store.Rooted

/-- A run that stays in the region of what it can reach touches nothing else. -/
theorem Confined.touches {α : Type} {m : Machine} (rooted : m.store.Rooted held links roots)
    {P : Links → α → Prop} {given : α → List Reachable} {run : Running α}
    (confined : Confined rooted.region links P run)
    (inside : ∀ {links' a}, P links' a → ∀ x ∈ given a, x.Inside rooted.region links') :
    Touches held links m.store roots given (run m) := by
  have stays := confined m rooted.inside
  have touches {links' : Links} (further : links <+: links')
      (within : (stateLeft (run m)).store.Inside rooted.region links')
      (isInside : ∀ x ∈ runGiven given (run m), x.Inside rooted.region links') :
      Touches held links m.store roots given (run m) := by
    refine ⟨fun r old notReached => ?_, within.grown, links', further,
      within.linkedBy rooted.linked, fun c member => (isInside _ member).env.lead, fun r reached => ?_⟩
    · refine within.outside (not_or.2 ⟨notReached, ?_⟩)
      rw [rooted.linked.size]
      exact Nat.not_le_of_lt old
    · rw [← rooted.linked.size]
      refine within.reached (fun x member => ?_) reached
      rcases List.mem_append.1 member with isRoot | isGiven
      · exact (rooted.inside_of_root isRoot).mono further
      · exact isInside x isGiven
  revert stays touches
  cases run m with
  | ok a m' =>
    rintro ⟨links', further, within, wanted⟩ touches
    exact touches further within (inside wanted)
  | error stop m' =>
    rintro ⟨links', further, within⟩ touches
    exact touches further within fun _ member => absurd member List.not_mem_nil

end

/-- The roots of a tree in an environment of the store. -/
theorem Env.rooted (env : Env) {held : Value.Held} {links : Links} {s : Store}
    (linked : s.LinkedBy links) (heldLinked : held.LinkedBy links) (nodes : List Expr) :
    s.Rooted held links (env.roots held nodes) := by
  refine ⟨linked, heldLinked, fun c member => ?_, by simp [roots]⟩
  simp only [roots, List.mem_cons, List.mem_map, reduceCtorEq, Reachable.function.injEq,
    exists_eq_right, false_or] at member
  obtain ⟨id, found⟩ := Value.Held.exists_of_mem_functions member
  exact heldLinked id c found

theorem Store.mem_frames_of_found {s : Store} {r : Ref} {name : String} {v : Value}
    (found : (s.bindings r)[name]? = some v) : ∃ b ∈ s.frames, (name, v) ∈ b.toList := by
  unfold bindings at found
  cases isFrame : s.frames[r]? with
  | none => simp [isFrame] at found
  | some b =>
    rw [isFrame, Option.getD_some] at found
    exact ⟨b, Array.mem_of_getElem? isFrame,
      Std.TreeMap.mem_toList_iff_getElem?_eq_some.2 found⟩

/-- Whatever is executed, evaluated or called, in any store and with any distances, the frames that
cannot be reached from its environment and the literals of its tree, or from the called function and the
arguments, or from the global variables keep their variables. -/
theorem unreached_untouched {links : Links} {held : Value.Held} {m : Machine}
    (linked : m.store.LinkedBy links) (heldLinked : held.LinkedBy links) (access : Access)
    (fuel : Nat) :
    (∀ env, links.Lead env.chain →
      (∀ t, Touches held links m.store (env.roots held t.nodes) Completion.given
        (exec (access.steps.holding held) fuel env t m)) ∧
      ∀ e, Touches held links m.store (env.roots held e.nodes) Value.given
        (eval (access.steps.holding held) fuel env e m)) ∧
    ∀ f vs line, (∀ c, .function c ∈ Value.roots (f :: vs) → links.Lead c.env.chain) →
      Touches held links m.store (Value.roots (f :: vs)) Value.given
        (call (access.steps.holding held) fuel f vs line m) := by
  refine ⟨fun env lead => ?_, fun f vs line leads => ?_⟩
  · have rooted := env.rooted linked heldLinked
    have inside (nodes : List Expr) : env.Inside (rooted nodes).region links :=
      ⟨lead, .inl (.root List.mem_cons_self)⟩
    have admits (nodes : List Expr) : (rooted nodes).region.Admits nodes := fun c member =>
      .root (List.mem_cons_of_mem _ (List.mem_cons_of_mem _ (List.mem_map_of_mem member)))
    constructor
    · intro t
      have confined := (confinedAt _ access fuel).exec (inside t.nodes) (admits t.nodes)
      exact confined.touches (rooted t.nodes) Completion.inside_given.1
    · intro e
      have confined := (confinedAt _ access fuel).eval (inside e.nodes) (admits e.nodes)
      exact confined.touches (rooted e.nodes) Value.inside_given.1
  · have rooted : m.store.Rooted held links (Value.roots (f :: vs)) :=
      ⟨linked, heldLinked, leads, List.mem_cons_self⟩
    have inside : ∀ v ∈ f :: vs, v.Inside rooted.region links := by
      intro v member
      refine Value.inside_given.2 fun x isGiven => rooted.inside_of_root ?_
      exact List.mem_cons_of_mem _ (List.mem_flatMap.2 ⟨v, member, isGiven⟩)
    obtain ⟨function, arguments⟩ := List.forall_mem_cons.1 inside
    have confined := (confinedAt _ access fuel).call function arguments line
    exact confined.touches rooted Value.inside_given.1

/-- Of three frames with a variable of the same name, a call changes that of the function which a literal
in the body holds, and not one that it cannot reach. -/
theorem unreached_untouched_counters :
    let name : Token := ⟨.identifier, "n", .nil, 1⟩
    let keyword : Token := ⟨.funWord, "fun", .nil, 1⟩
    let home : Env := ⟨1, [0]⟩
    let lent : Env := ⟨2, [0]⟩
    let away : Env := ⟨3, [0]⟩
    let declared (s : Store) (env : Env) := s.grow.define env "n" (.bool true)
    let s := [home, lent, away].foldl declared .initial
    let m := { Machine.initial (.ofInput "" none false fun _ => 0) 0 with store := s }
    let inner : Closure :=
      ⟨0, keyword, [], [.expression (.assignment 1 name (.literal 2 .nil))], none, lent⟩
    let outer : Closure :=
      ⟨1, keyword, [], [.expression (.call 3 (.literal 4 .nil) [] keyword)], none, home⟩
    let held : Value.Held := fun id => if id = 4 then some (.closure inner) else none
    let links : Links := [none, some 0, some 0, some 0]
    let result := call (Access.nearest.steps.holding held) 12 (.closure outer) [] 1 m
    let truthIn (env : Env) := ((stateLeft result).store.get env "n").toOption.map Value.truthy
    s.LinkedBy links ∧ held.LinkedBy links ∧ links.Lead home.chain ∧
      truthIn home = some true ∧ truthIn lent = some false ∧
      (stateLeft result).store.bindings away.frame = s.bindings away.frame := by
  intro name keyword home lent away declared s m inner outer held links result truthIn
  have plain : ∀ b ∈ s.frames, ∀ x ∈ b.toList, x.2.given.isEmpty = true := by decide +kernel
  have noFunction {r : Ref} {name : String} {c : Closure} :
      (s.bindings r)[name]? ≠ some (.closure c) := by
    intro found
    obtain ⟨b, member, isEntry⟩ := Store.mem_frames_of_found found
    exact absurd (plain b member _ isEntry) Bool.false_ne_true
  have linked : s.LinkedBy links := ⟨by decide +kernel, rfl, fun found => absurd found noFunction⟩
  have heldLinked : held.LinkedBy links := by
    intro id c found
    simp only [held] at found
    split at found
    · cases found
      exact .inside rfl (.outermost rfl)
    · cases found
  have lead : links.Lead home.chain := .inside rfl (.outermost rfl)
  have leads : ∀ c, .function c ∈ Value.roots [.closure outer] → links.Lead c.env.chain := by
    intro c member
    obtain rfl : c = outer := by simpa [Value.roots, Value.given] using member
    exact lead
  have reached {x : Reachable} (reached : s.Reached held links (Value.roots [.closure outer]) x) :
      match x with
      | .frame r => r = 0 ∨ r = 1 ∨ r = 2
      | .function c => c = outer ∨ c = inner := by
    induction reached with
    | root member =>
      rcases List.mem_pair.1 member with rfl | rfl
      · exact .inl rfl
      · exact .inl rfl
    | around _ link ih => rcases ih with rfl | rfl | rfl <;> cases link <;> exact .inl rfl
    | stored _ found => exact absurd found noFunction
    | env _ ih =>
      rcases ih with rfl | rfl
      · exact .inr (.inl rfl)
      · exact .inr (.inr rfl)
    | literal _ member ih =>
      rcases ih with rfl | rfl
      · exact .inr (List.mem_singleton.1 member)
      · exact absurd member List.not_mem_nil
  have touches := (unreached_untouched (m := m) linked heldLinked .nearest 12).2 _ [] 1 leads
  refine ⟨linked, heldLinked, lead, by decide +kernel, by decide +kernel,
    touches.unreached 3 (by decide +kernel) fun h => ?_⟩
  rcases reached h with same | same | same <;> cases same

end Lox
