import Lox.Proofs.Heaps.Links
import Lox.Proofs.Runs.Stores
import Lox.Proofs.Safety.Frames
import Lox.Proofs.Trees.Nodes

/-!
# Runs that stay in a region

A region of a store is closed under what frames stand in, under the environments of the functions that
its variables hold, and under the functions that literals in the bodies of its functions hold. A run
that is given nothing but environments, trees and values of a region finds none outside of it, and
changes no variable outside of it. Frames that are made meanwhile are in the region.
-/

namespace Lox

/-! ## Frames in which variables are found -/

namespace Store

variable {s : Store} {env : Env} {name : String} {distance : Nat} {r : Ref} {v : Value}

theorem mem_chain_of_get (found : s.get env name = .ok v) :
    ∃ r ∈ env.chain, (s.bindings r)[name]? = some v := by
  unfold get at found
  split at found
  · next isFirst =>
    cases found
    exact List.exists_of_findSome?_eq_some isFirst
  · cases found

theorem mem_chain_of_frameAt (found : env.frameAt distance = .ok r) : r ∈ env.chain := by
  unfold Env.frameAt at found
  split at found
  · next isFrame =>
    cases found
    exact List.mem_of_getElem? isFrame
  · cases found

theorem mem_chain_of_getAt (found : s.getAt env distance name = .ok v) :
    ∃ r ∈ env.chain, (s.bindings r)[name]? = some v := by
  unfold getAt at found
  cases isFrame : env.frameAt distance with
  | error missing =>
    rw [isFrame] at found
    cases found
  | ok r =>
    refine ⟨r, mem_chain_of_frameAt isFrame, ?_⟩
    simp only [isFrame, Bind.bind, Except.bind] at found
    split at found
    · next isValue =>
      cases found
      exact isValue
    · cases found

theorem mem_chain_of_owner (found : s.owner env name = .ok r) : r ∈ env.chain := by
  unfold owner at found
  split at found
  · next isOwner =>
    cases found
    exact List.mem_of_find?_eq_some isOwner
  · cases found

theorem mem_chain_of_ownerAt (found : s.ownerAt env distance name = .ok r) : r ∈ env.chain := by
  unfold ownerAt at found
  cases isFrame : env.frameAt distance with
  | error missing =>
    rw [isFrame] at found
    cases found
  | ok r' =>
    simp only [isFrame, Bind.bind, Except.bind] at found
    split at found
    · cases found
      exact mem_chain_of_frameAt isFrame
    · cases found

end Store

/-! ## Functions in the literals of trees -/

namespace Value.Held

/-- The function that an expression holds, if it is a literal with one. -/
def function? (held : Held) : Expr → Option Closure
  | .literal id _ =>
    match held id with
    | some (.closure c) => some c
    | _ => none
  | _ => none

/-- The functions that the literals among some expressions hold. -/
def functions (held : Held) (nodes : List Expr) : List Closure := nodes.filterMap held.function?

theorem function?_literal {held : Held} {id : Nat} {c : Closure} (value : Literal)
    (found : held id = some (.closure c)) : held.function? (.literal id value) = some c := by
  rw [function?, found]

theorem exists_of_mem_functions {held : Held} {nodes : List Expr} {c : Closure}
    (member : c ∈ held.functions nodes) : ∃ id, held id = some (.closure c) := by
  obtain ⟨e, _, isFunction⟩ := List.mem_filterMap.1 member
  cases e with
  | literal id value =>
    rw [function?] at isFunction
    split at isFunction
    · next found =>
      cases isFunction
      exact ⟨id, found⟩
    · cases isFunction
  | _ => cases isFunction

end Value.Held

/-! ## Regions -/

/-- The frames that a run may touch, the functions that its literals may hold, and the store that it
begins with. -/
structure Region where
  frames : Ref → Prop
  functions : Closure → Prop
  held : Value.Held
  links : Links
  store : Store
  root : links[Env.global.frame]? = some none
  global : frames Env.global.frame
  new : ∀ r, links.length ≤ r → frames r
  lead : ∀ {c}, functions c → links.Lead c.env.chain
  env : ∀ {c}, functions c → frames c.env.frame
  body : ∀ {c}, functions c → ∀ c' ∈ held.functions (Stmt.allNodes c.body), functions c'

/-- The literals among some expressions hold no functions but those of a region. -/
def Region.Admits (R : Region) (nodes : List Expr) : Prop := ∀ c ∈ R.held.functions nodes, R.functions c

/-- An environment follows the links and is in a region. -/
structure Env.Inside (R : Region) (links : Links) (env : Env) : Prop where
  lead : links.Lead env.chain
  inside : R.frames env.frame

/-- The environment of a function and the literals in its body are in a region. -/
structure Closure.Inside (R : Region) (links : Links) (c : Closure) : Prop where
  env : c.env.Inside R links
  body : R.Admits (Stmt.allNodes c.body)

/-- A value is no function of a program, or one of a region. -/
def Value.Inside (R : Region) (links : Links) : Value → Prop
  | .closure c => c.Inside R links
  | _ => True

/-- A store that a run can leave which began in a region and stays there. -/
structure Store.Inside (R : Region) (links : Links) (s : Store) : Prop where
  further : R.links <+: links
  size : links.length = s.frames.size
  grown : R.store.Grown s
  /-- What a frame of the region stands in is in the region. -/
  around : ∀ {r p : Ref}, R.frames r → links[r]? = some (some p) → R.frames p
  /-- The values of the region are in it. -/
  values : ∀ {r : Ref} {name : String} {v : Value}, R.frames r →
    (s.bindings r)[name]? = some v → v.Inside R links
  /-- Outside of the region nothing is changed. -/
  outside : ∀ {r : Ref}, ¬ R.frames r → s.bindings r = R.store.bindings r

section
variable {R : Region} {links links' : Links} {s : Store} {env : Env}

theorem Region.admits_append {nodes nodes' : List Expr} :
    R.Admits (nodes ++ nodes') ↔ R.Admits nodes ∧ R.Admits nodes' := by
  unfold Admits Value.Held.functions
  rw [List.filterMap_append, List.forall_mem_append]

theorem Region.inside_of_functions {c : Closure} (isHeld : R.functions c) : c.Inside R R.links :=
  ⟨⟨R.lead isHeld, R.env isHeld⟩, R.body isHeld⟩

theorem Env.Inside.mono (inside : env.Inside R links) (further : links <+: links') :
    env.Inside R links' := ⟨inside.lead.mono further, inside.inside⟩

theorem Closure.Inside.mono {c : Closure} (inside : c.Inside R links) (further : links <+: links') :
    c.Inside R links' := ⟨inside.env.mono further, inside.body⟩

theorem Value.Inside.mono {v : Value} (inside : v.Inside R links) (further : links <+: links') :
    v.Inside R links' := by
  cases v with
  | closure c => exact Closure.Inside.mono inside further
  | nil | bool | num | str | native => trivial

theorem Value.inside_ofLiteral (literal : Literal) : (Value.ofLiteral literal).Inside R links := by
  cases literal <;> trivial

/-- A literal of the region has a value of the region. -/
theorem Value.inside_held {id : Nat} {value : Literal} (admits : R.Admits [.literal id value]) :
    (R.held.value id value).Inside R R.links := by
  rw [Held.value]
  cases found : R.held id with
  | none => exact Value.inside_ofLiteral value
  | some v =>
    cases v with
    | closure c =>
      refine R.inside_of_functions (admits c ?_)
      exact List.mem_filterMap.2 ⟨_, List.mem_singleton_self _, Held.function?_literal value found⟩
    | nil | bool | num | str | native => trivial

theorem Value.Plain.inside {v : Value} (plain : v.Plain) : v.Inside R links := by
  cases v with
  | closure c => exact absurd rfl (plain c)
  | nil | bool | num | str | native => trivial

namespace Store.Inside

variable (within : s.Inside R links)
include within

theorem global : Env.global.Inside R links :=
  ⟨.outermost (getElem?_further within.further R.root), R.global⟩

/-- All frames of an environment of the region are in the region. -/
theorem chain (inside : env.Inside R links) : ∀ r ∈ env.chain, R.frames r := by
  have outwards {chain : List Ref} (lead : links.Lead chain) :
      (∀ r ∈ chain.head?, R.frames r) → ∀ r ∈ chain, R.frames r := by
    induction lead with
    | outermost =>
      intro first r member
      cases List.mem_singleton.1 member
      exact first _ rfl
    | inside link onward ih =>
      intro first
      have here := first _ rfl
      refine List.forall_mem_cons.2 ⟨here, ih fun p' isNext => ?_⟩
      cases isNext
      exact within.around here link
  exact outwards inside.lead fun r isFirst => by
    cases isFirst
    exact inside.inside

/-- A new frame, inside of an environment of the region. -/
theorem enter (inside : env.Inside R links) :
    s.grow.Inside R (links ++ [some env.frame]) ∧
      (s.nextEnv env.chain).Inside R (links ++ [some env.frame]) := by
  have new : R.frames links.length := R.new _ within.further.length_le
  have further : links <+: links ++ [some env.frame] := List.prefix_append _ _
  refine ⟨⟨within.further.trans further, ?_, within.grown.trans s.grown_grow, ?_, ?_, ?_⟩, ?_, ?_⟩
  · rw [List.length_append, size_grow, within.size]
    rfl
  · intro r p isInside link
    by_cases old : r < links.length
    · rw [List.getElem?_append_left old] at link
      exact within.around isInside link
    · obtain ⟨below, _⟩ := List.getElem?_eq_some_iff.1 link
      rw [List.length_append, List.length_singleton] at below
      obtain rfl : r = links.length := Nat.le_antisymm (Nat.le_of_lt_succ below) (Nat.le_of_not_lt old)
      rw [List.getElem?_concat_length] at link
      cases link
      exact inside.inside
  · intro r name v isInside found
    rw [bindings_grow] at found
    exact (within.values isInside found).mono further
  · intro r isOutside
    rw [bindings_grow]
    exact within.outside isOutside
  · rw [Env.chain, nextEnv, ← within.size]
    exact inside.lead.enter
  · rw [nextEnv, ← within.size]
    exact new

/-- A variable of the region gets a value of the region. -/
theorem bind {r : Ref} (isInside : R.frames r) (name : String) {v : Value} (value : v.Inside R links) :
    (s.bind r name v).Inside R links := by
  refine ⟨within.further, within.size.trans (size_bind ..).symm,
    within.grown.trans (s.grown_bind r name v), within.around, ?_, ?_⟩
  · intro r' name' w inside' found
    rw [getElem?_bind] at found
    split at found
    · cases found
      exact value
    · exact within.values inside' found
  · intro r' isOutside
    rw [bindings_bind, if_neg]
    · exact within.outside isOutside
    · rintro ⟨rfl, _⟩
      exact isOutside isInside

theorem defineAll (inside : env.Inside R links) {entries : List (String × Value)}
    (values : ∀ entry ∈ entries, entry.2.Inside R links) :
    (s.defineAll env entries).Inside R links := by
  induction entries generalizing s with
  | nil => exact within
  | cons entry rest ih =>
    obtain ⟨first, others⟩ := List.forall_mem_cons.1 values
    exact ih (within.bind inside.inside entry.1 first) others

end Store.Inside

end

/-! ## Rules -/

section
variable {α β : Type} {R : Region} {links : Links}

/-- A run stayed in a region, and its result is as wanted. -/
def ConfinedTo (R : Region) (links : Links) (P : Links → α → Prop) :
    EStateM.Result Stop Machine α → Prop
  | .ok a m => ∃ links', links <+: links' ∧ m.store.Inside R links' ∧ P links' a
  | .error _ m => ∃ links', links <+: links' ∧ m.store.Inside R links'

/-- From any store that stayed in a region, a run stays there, and its result is as wanted. -/
def Confined (R : Region) (links : Links) (P : Links → α → Prop) (run : Running α) : Prop :=
  ∀ m : Machine, m.store.Inside R links → ConfinedTo R links P (run m)

variable {P : Links → α → Prop} {Q : Links → β → Prop}

theorem confined_pure {a : α} (wanted : P links a) : Confined R links P (pure a) :=
  fun _ within => ⟨links, List.prefix_rfl, within, wanted⟩

theorem confined_throw (stop : Stop) : Confined R links P (throw stop : Running α) :=
  fun _ within => ⟨links, List.prefix_rfl, within⟩

theorem Confined.bind {run : Running α} {f : α → Running β} (first : Confined R links P run)
    (second : ∀ links' a, links <+: links' → P links' a → Confined R links' Q (f a)) :
    Confined R links Q (run >>= f) := by
  intro m within
  have stays := first m within
  cases ran : run m with
  | ok a m' =>
    rw [ran] at stays
    obtain ⟨links', further, within', wanted⟩ := stays
    rw [run_bind_of_ok ran]
    have later := second links' a further wanted m' within'
    cases ranLater : f a m' with
    | ok b m'' =>
      rw [ranLater] at later
      obtain ⟨links'', further', staysLater⟩ := later
      exact ⟨links'', further.trans further', staysLater⟩
    | error stop m'' =>
      rw [ranLater] at later
      obtain ⟨links'', further', staysLater⟩ := later
      exact ⟨links'', further.trans further', staysLater⟩
  | error stop m' =>
    rw [ran] at stays
    rw [run_bind_of_error ran]
    exact stays

theorem Confined.inCall {run : Running α} (confined : Confined R links P run) (step : CallStep) :
    Confined R links P (Running.inCall step run) := by
  intro m within
  have stays := confined m within
  unfold Running.inCall EStateM.adaptExcept
  cases ran : run m with
  | ok a m' =>
    rw [ran] at stays
    exact stays
  | error stop m' =>
    rw [ran] at stays
    exact stays

/-- A run that leaves the store as it is. -/
theorem Keeps.confined {run : Running α} (keeps : Keeps Machine.SameStore run)
    (wanted : ∀ m a m', m.store.Inside R links → run m = .ok a m' → P links a) :
    Confined R links P run := by
  intro m within
  have same := keeps m
  cases ran : run m with
  | ok a m' =>
    rw [ran] at same
    refine ⟨links, List.prefix_rfl, ?_, wanted m a m' within ran⟩
    rw [show m'.store = m.store from same]
    exact within
  | error stop m' =>
    rw [ran] at same
    refine ⟨links, List.prefix_rfl, ?_⟩
    rw [show m'.store = m.store from same]
    exact within

theorem Keeps.stays {run : Running α} (keeps : Keeps Machine.SameStore run) :
    Confined R links (fun _ _ => True) run := keeps.confined fun _ _ _ _ _ => trivial

theorem confined_ofResult {result : Except RuntimeError.Cause Value}
    (plain : ∀ v, result = .ok v → v.Plain) (line : Int) :
    Confined R links (fun links' v => v.Inside R links') (Running.ofResult line result) := by
  cases result with
  | ok v => exact confined_pure (plain v rfl).inside
  | error cause => exact confined_throw _

theorem confined_checkArity (arity? : Option Nat) (count : Nat) (line : Int) :
    Confined R links (fun _ _ => True) (Running.checkArity arity? count line : Running Unit) := by
  unfold Running.checkArity
  cases arity? with
  | none => exact confined_pure trivial
  | some arity =>
    dsimp only
    split
    · exact confined_pure trivial
    · exact confined_throw _

/-! ## Steps of a machine -/

theorem confined_get {f : Machine → Running α}
    (each : ∀ m : Machine, m.store.Inside R links → ConfinedTo R links P (f m m)) :
    Confined R links P (get >>= f) := by
  intro m within
  have got : (get : Running Machine) m = .ok m m := rfl
  rw [run_bind_of_ok got]
  exact each m within

theorem confined_ofFound {m : Machine} (within : m.store.Inside R links) (name : Token)
    {found : Except Missing α} (wanted : ∀ a, found = .ok a → P links a) :
    ConfinedTo R links P (Running.ofFound name found m) := by
  cases found with
  | ok a => exact ⟨links, List.prefix_rfl, within, wanted a rfl⟩
  | error missing => exact ⟨links, List.prefix_rfl, within⟩

section
variable {env : Env} (inside : env.Inside R links) (access : Access) (id : Nat) (name : Token)
include inside

/-- The value of a variable comes from a frame of the region. -/
theorem confined_lookUp :
    Confined R links (fun links' v => v.Inside R links') (Running.lookUp access env id name) := by
  refine confined_get fun m within => ?_
  have held {env : Env} (inside : env.Inside R links) {v : Value}
      (found : ∃ r ∈ env.chain, (m.store.bindings r)[name.lexeme]? = some v) : v.Inside R links := by
    obtain ⟨r, member, found⟩ := found
    exact within.values (within.chain inside r member) found
  refine confined_ofFound within name fun v found => ?_
  cases access with
  | distances table =>
    dsimp only at found
    split at found
    · exact held inside (Store.mem_chain_of_getAt found)
    · exact held within.global (Store.mem_chain_of_get found)
  | nearest => exact held inside (Store.mem_chain_of_get found)

theorem confined_ownerOf :
    Confined R links (fun _ r => R.frames r) (Running.ownerOf access env id name) := by
  refine confined_get fun m within => ?_
  refine confined_ofFound within name fun r found => ?_
  cases access with
  | distances table =>
    dsimp only at found
    split at found
    · exact within.chain inside r (Store.mem_chain_of_ownerAt found)
    · exact within.chain within.global r (Store.mem_chain_of_owner found)
  | nearest => exact within.chain inside r (Store.mem_chain_of_owner found)

theorem confined_assign {v : Value} (value : v.Inside R links) :
    Confined R links (fun _ _ => True) (Running.assign access env id name v) := by
  refine (confined_ownerOf inside access id name).bind fun links' r further isInside => ?_
  exact fun m within =>
    ⟨links', List.prefix_rfl, within.bind isInside name.lexeme (value.mono further), trivial⟩

theorem confined_define {v : Value} (value : v.Inside R links) :
    Confined R links (fun _ _ => True) (Running.define env name v) := by
  have declared : Confined R links (fun _ _ => True)
      (Running.modifyStore (·.define env name.lexeme v)) := fun m within =>
    ⟨links, List.prefix_rfl, within.bind inside.inside name.lexeme value, trivial⟩
  exact declared.bind fun _ _ _ _ => (Running.keeps_note _).stays

omit name in
theorem confined_newFrame :
    Confined R links (fun links' inner => inner.Inside R links') (Running.newFrame env.chain) :=
  fun _ within => ⟨_, List.prefix_append _ _, within.enter inside⟩

theorem confined_close (keyword : Token) (params : List Token) {body : List Stmt}
    (admits : R.Admits (Stmt.allNodes body)) (name : Option Token) :
    Confined R links (fun links' v => v.Inside R links')
      (Running.close env keyword params body name) := by
  refine (Running.keeps_close env keyword params body name).confined fun m v m' _ ran => ?_
  cases ran
  exact ⟨inside, admits⟩

end

theorem confined_bindArguments {c : Closure} (inside : c.env.Inside R links) {vs : List Value}
    (values : ∀ v ∈ vs, v.Inside R links) :
    Confined R links (fun links' env => env.Inside R links') (Running.bindArguments c vs) := by
  refine (confined_newFrame inside).bind fun links' env further isInside => ?_
  have defined : Confined R links' (fun _ _ => True)
      (Running.modifyStore (·.defineAll env ((c.params.map (·.lexeme)).zip vs))) := by
    intro m within
    refine ⟨links', List.prefix_rfl, within.defineAll isInside fun entry member => ?_, trivial⟩
    exact (values entry.2 (List.of_mem_zip member).2).mono further
  exact defined.bind fun _ _ further' _ => confined_pure (isInside.mono further')

/-- A native function gives no function of a program. -/
theorem confined_callNative (f : Native) (vs : List Value) :
    Confined R links (fun links' v => v.Inside R links') (Running.callNative f vs) := by
  cases f with
  | clock =>
    have read : Keeps Machine.SameStore Running.readClock :=
      keeps_get.bind fun _ => (Running.keeps_modifyConsole _).bind fun _ => keeps_pure _
    exact read.stays.bind fun _ _ _ _ => confined_pure trivial
  | print => exact (Running.keeps_writeLine _).stays.bind fun _ _ _ _ => confined_pure trivial
  | input =>
    refine Running.keeps_readLine.stays.bind fun _ line _ _ => ?_
    cases line <;> exact confined_pure trivial

end

end Lox
