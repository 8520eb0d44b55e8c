import Mathlib.Data.List.Nodup
import Lox.Proofs.Folding.Machines
import Lox.Proofs.Matching.Trees

/-!
# Machines of programs that match

Two runs of programs that match can make the same functions in different orders. A list tells for the
identity of every function of the one which function of the other is in its place. The frames of both
are the same, and their variables have values that match.
-/

namespace Lox

/-- How the runs of two programs match. -/
structure Matching where
  /-- The distances of the uses in the one program. -/
  table : Distances
  /-- The distances of the uses in the other program. -/
  table' : Distances
  /-- Variables may be assigned instead of being counted up or down. -/
  respells : Prop
  /-- The lists of identities that there may be. -/
  admits : List Nat → Prop
  admits_nil : admits []
  /-- A function that both make next may have its own identity. -/
  admits_next : ∀ w, admits w → admits (w ++ [w.length])
  /-- What is told of the cause of an error. -/
  blur : RuntimeError.Cause → RuntimeError.Cause
  /-- The same is told whether a variable is counted up or down or is assigned. -/
  blur_step : respells → ∀ (operator : Token) (v : Value),
    (v.step operator).mapError blur = (v.binary operator.sign (.num 1.0)).mapError blur

namespace Matching

/-- Uses match that are at the same distance. -/
def uses (M : Matching) (id id' : Nat) : Prop := M.table'[id']? = M.table[id]?

/-! ## Values -/

/-- Two functions are the same but for their identities and their trees, which match. -/
structure Closures (M : Matching) (w : List Nat) (c c' : Closure) : Prop where
  identity : w[c.identity]? = some c'.identity
  keyword : c'.keyword = c.keyword
  params : c'.params = c.params
  declaredName : c'.declaredName = c.declaredName
  env : c'.env = c.env
  body : Stmt.AllMatches M.respells M.uses c.body c'.body

/-- Two values are equal, or functions that match. -/
inductive Values (M : Matching) (w : List Nat) : Value → Value → Prop
  | plain {v : Value} (plain : v.Plain) : Values M w v v
  | closure {c c' : Closure} (closures : M.Closures w c c') :
      Values M w (.closure c) (.closure c')

variable {M : Matching} {w w' : List Nat}

theorem Closures.later (further : w <+: w') {c c' : Closure} (closures : M.Closures w c c') :
    M.Closures w' c c' :=
  { closures with identity := getElem?_further further closures.identity }

theorem Closures.name {c c' : Closure} (closures : M.Closures w c c') : c'.name = c.name := by
  unfold Closure.name
  rw [closures.declaredName]

namespace Values

variable {v v' u u' : Value}

theorem later (further : w <+: w') (values : M.Values w v v') : M.Values w' v v' := by
  cases values with
  | plain plain => exact .plain plain
  | closure closures => exact .closure (closures.later further)

theorem all_later (further : w <+: w') {vs vs' : List Value}
    (values : List.Forall₂ (M.Values w) vs vs') : List.Forall₂ (M.Values w') vs vs' :=
  values.imp fun _ _ value => value.later further

theorem truthy (values : M.Values w v v') : v'.truthy = v.truthy := by
  cases values <;> rfl

theorem text (values : M.Values w v v') : v'.text = v.text := by
  cases values with
  | plain => rfl
  | closure closures => simp only [Value.text, closures.name]

theorem texts {vs vs' : List Value} (values : List.Forall₂ (M.Values w) vs vs') :
    vs'.map (·.text) = vs.map (·.text) := by
  induction values with
  | nil => rfl
  | cons value _ ih => rw [List.map_cons, List.map_cons, value.text, ih]

theorem settles (values : M.Values w v v') (operator : Token) :
    v'.settles operator = v.settles operator := by
  simp only [Value.settles, values.truthy]

theorem unary (values : M.Values w v v') (operator : Token) :
    v'.unary operator = v.unary operator := by
  cases values with
  | plain => rfl
  | closure =>
    unfold Value.unary
    cases operator.kind <;> rfl

theorem step (values : M.Values w v v') (operator : Token) : v'.step operator = v.step operator := by
  cases values <;> rfl

/-- Different functions have different ones in their place. -/
theorem equal (nodup : w.Nodup) (left : M.Values w v v') (right : M.Values w u u') :
    v'.equal u' = v.equal u := by
  cases left with
  | plain plain =>
    cases right with
    | plain => rfl
    | closure => cases v <;> first | rfl | exact absurd rfl (plain _)
  | @closure c c' closures =>
    cases right with
    | plain plain => cases u <;> first | rfl | exact absurd rfl (plain _)
    | @closure d d' closures' =>
      have same : (c'.identity = d'.identity) ↔ (c.identity = d.identity) := by
        have first := closures.identity
        have second := closures'.identity
        constructor
        · intro same
          rw [← same] at second
          exact (List.getElem?_inj (List.getElem?_eq_some_iff.1 first).1 nodup).1
            (first.trans second.symm)
        · intro same
          rw [← same, first] at second
          exact Option.some.inj second
      simp only [Value.equal, beq_eq_beq.2 same]

theorem binary (nodup : w.Nodup) (left : M.Values w v v') (right : M.Values w u u')
    (operator : Token) : v'.binary operator u' = v.binary operator u := by
  have sums : v'.add u' = v.add u := by
    cases left <;> cases right <;> first | rfl | (cases v <;> rfl)
  unfold Value.binary
  rw [sums, equal nodup left right]
  cases left with
  | plain =>
    cases right with
    | plain => rfl
    | closure => cases v <;> rfl
  | closure => cases right <;> rfl

end Values

/-! ## Stores and machines -/

/-- Two stores have as many frames, with the same names in them and values that match. -/
structure Stores (M : Matching) (w : List Nat) (s s' : Store) : Prop where
  size : s'.frames.size = s.frames.size
  values : ∀ (r : Ref) (name : String),
    Option.Rel (M.Values w) (s.bindings r)[name]? (s'.bindings r)[name]?

/-- Two machines match, with as many functions made in the one as in the other. What they note for
debugging is left open. -/
structure Machines (M : Matching) (w : List Nat) (m m' : Machine) : Prop where
  stores : M.Stores w m.store m'.store
  console : m'.console = m.console
  closures : m.closures = w.length
  closures' : m'.closures = w.length
  nodup : w.Nodup
  inside : ∀ i ∈ w, i < w.length
  admitted : M.admits w

theorem sharesConsole : SharesConsole M.Machines :=
  ⟨fun states => states.console, fun _ states => { states with console := rfl },
    fun _ _ states => { states with }⟩

namespace Stores

variable {s s' : Store}

theorem later (further : w <+: w') (stores : M.Stores w s s') : M.Stores w' s s' :=
  ⟨stores.size, fun r name => rel_imp (Values.later further) (stores.values r name)⟩

theorem bind (stores : M.Stores w s s') (r : Ref) (name : String) {v v' : Value}
    (values : M.Values w v v') : M.Stores w (s.bind r name v) (s'.bind r name v') := by
  refine ⟨by rw [Store.size_bind, Store.size_bind, stores.size], fun r' name' => ?_⟩
  rw [Store.bindings_bind, Store.bindings_bind, stores.size]
  by_cases here : r = r' ∧ r < s.frames.size
  · rw [if_pos here, if_pos here, getElem?_insert_string, getElem?_insert_string]
    by_cases isName : name = name'
    · rw [if_pos isName, if_pos isName]
      exact .some values
    · rw [if_neg isName, if_neg isName]
      exact stores.values r name'
  · rw [if_neg here, if_neg here]
    exact stores.values r' name'

theorem grow (stores : M.Stores w s s') : M.Stores w s.grow s'.grow := by
  refine ⟨by rw [Store.size_grow, Store.size_grow, stores.size], fun r name => ?_⟩
  rw [Store.bindings_grow, Store.bindings_grow]
  exact stores.values r name

theorem nextEnv (stores : M.Stores w s s') (outer : List Ref) :
    s'.nextEnv outer = s.nextEnv outer := by
  unfold Store.nextEnv
  rw [stores.size]

theorem defineAll (stores : M.Stores w s s') (env : Env) (names : List String) {vs vs' : List Value}
    (values : List.Forall₂ (M.Values w) vs vs') :
    M.Stores w (s.defineAll env (names.zip vs)) (s'.defineAll env (names.zip vs')) := by
  induction names generalizing s s' vs vs' with
  | nil => exact stores
  | cons name rest ih =>
    cases values with
    | nil => exact stores
    | cons value values => exact ih (stores.bind env.frame name value) values

/-! ### What is found -/

theorem contains (stores : M.Stores w s s') (r : Ref) (name : String) :
    (s'.bindings r).contains name = (s.bindings r).contains name := by
  rw [Std.TreeMap.contains_eq_isSome_getElem?, Std.TreeMap.contains_eq_isSome_getElem?]
  exact rel_isSome (stores.values r name)

theorem ownerAt (stores : M.Stores w s s') (env : Env) (distance : Nat) (name : String) :
    s'.ownerAt env distance name = s.ownerAt env distance name := by
  simp only [Store.ownerAt, stores.contains]

theorem owner (stores : M.Stores w s s') (env : Env) (name : String) :
    s'.owner env name = s.owner env name := by
  simp only [Store.owner, stores.contains]

theorem getAt (stores : M.Stores w s s') (env : Env) (distance : Nat) (name : String) :
    FoundMoved (M.Values w) (s.getAt env distance name) (s'.getAt env distance name) := by
  cases found : env.frameAt distance with
  | error missing =>
    rw [Store.getAt, Store.getAt, found]
    exact .error missing
  | ok r =>
    rw [Store.getAt_of_frame found, Store.getAt_of_frame found]
    exact .of_rel (stores.values r name) _

theorem get_global (stores : M.Stores w s s') (name : String) :
    FoundMoved (M.Values w) (s.get .global name) (s'.get .global name) := by
  rw [Store.get_of_global, Store.get_of_global]
  exact .of_rel (stores.values 0 name) _

theorem initial : M.Stores w .initial .initial := by
  refine ⟨rfl, fun r name => ?_⟩
  cases found : (Store.initial.bindings r)[name]? with
  | none => exact .none
  | some v =>
    refine .some (.plain ?_)
    by_cases isFirst : r = 0
    · exact Store.initial_plain (isFirst ▸ found)
    · have outside : Store.initial.frames[r]? = none :=
        Array.getElem?_eq_none (Nat.one_le_iff_ne_zero.2 isFirst)
      simp [Store.bindings, outside] at found

end Stores

namespace Machines

variable {m m' : Machine}

/-- The first machines match. -/
theorem initial (console : Console) (debugLevel : Nat) (trace trace' : Trace) :
    M.Machines [] { Machine.initial console debugLevel with trace }
      { Machine.initial console debugLevel with trace := trace' } where
  stores := .initial
  console := rfl
  closures := rfl
  closures' := rfl
  nodup := List.nodup_nil
  inside := fun _ member => absurd member List.not_mem_nil
  admitted := M.admits_nil

/-- The stores of machines may become others that match. -/
theorem withStores (states : M.Machines w m m') {s s' : Store} (stores : M.Stores w s s') :
    M.Machines w { m with store := s } { m' with store := s' } :=
  { states with stores }

/-! The functions made next in both have the next identities, in any order. -/

section
variable (states : M.Machines w m m') {more : List Nat}
  (next : ∀ i ∈ more, w.length ≤ i ∧ i < w.length + more.length)
include states next

theorem nodup_append (nodup : more.Nodup) : (w ++ more).Nodup := by
  refine List.nodup_append.2 ⟨states.nodup, nodup, fun i old i' new same => ?_⟩
  have below := states.inside i old
  have beyond := (next i' new).1
  omega

theorem inside_append : ∀ i ∈ w ++ more, i < (w ++ more).length := by
  intro i member
  rw [List.length_append]
  rcases List.mem_append.1 member with old | new
  · exact Nat.lt_add_right _ (states.inside i old)
  · exact (next i new).2

end

end Machines

/-! ## Steps of machines -/

section Steps
variable {n : Nat} {v v' : Value}

theorem trails_lookUp (env : Env) {id id' : Nat} (use : M.uses id id') (name : Token) :
    Trails M.Machines M.Values n w (Running.lookUp (.distances M.table) env id name)
      fun _ => Running.lookUp (.distances M.table') env id' name := by
  refine trails_step fun m m' states => sameEnd_ofFound name ?_ states
  dsimp only
  rw [show M.table'[id']? = M.table[id]? from use]
  cases M.table[id]? with
  | none => exact states.stores.get_global name.lexeme
  | some distance => exact states.stores.getAt env distance name.lexeme

theorem trails_ownerOf (env : Env) {id id' : Nat} (use : M.uses id id') (name : Token) :
    Trails M.Machines (fun _ r r' => r' = r) n w
      (Running.ownerOf (.distances M.table) env id name)
      fun _ => Running.ownerOf (.distances M.table') env id' name := by
  refine trails_step fun m m' states => sameEnd_ofFound name ?_ states
  dsimp only
  rw [show M.table'[id']? = M.table[id]? from use]
  simp only [states.stores.ownerAt, states.stores.owner]
  exact FoundMoved.refl _

theorem trails_bind (r : Ref) (name : String) (values : M.Values w v v') :
    Trails M.Machines (fun _ _ _ => True) n w (Running.modifyStore (·.bind r name v))
      fun _ => Running.modifyStore (·.bind r name v') :=
  trails_step fun _ _ states =>
    .ok w List.prefix_rfl (states.withStores (states.stores.bind r name values)) trivial

theorem trails_assign (env : Env) {id id' : Nat} (use : M.uses id id') (name : Token)
    (values : M.Values w v v') :
    Trails M.Machines (fun _ _ _ => True) n w
      (Running.assign (.distances M.table) env id name v)
      fun _ => Running.assign (.distances M.table') env id' name v' := by
  refine (trails_ownerOf env use name).bind ?_
  rintro w' further _ r rfl
  exact trails_bind r name.lexeme (values.later further)

theorem trails_define (env : Env) (name : Token) (values : M.Values w v v') :
    Trails M.Machines (fun _ _ _ => True) n w (Running.define env name v)
      fun _ => Running.define env name v' :=
  (trails_bind env.frame name.lexeme values).bind fun _ _ _ _ _ => sharesConsole.trails_note _ _

theorem trails_newFrame (outer : List Ref) :
    Trails M.Machines (fun _ env env' => env' = env) n w (Running.newFrame outer)
      fun _ => Running.newFrame outer :=
  trails_step fun _ _ states =>
    .ok w List.prefix_rfl (states.withStores states.stores.grow) (states.stores.nextEnv outer)

theorem trails_close (env : Env) (keyword : Token) (params : List Token) {body body' : List Stmt}
    (statements : Stmt.AllMatches M.respells M.uses body body') (name : Option Token) :
    Trails M.Machines M.Values n w (Running.close env keyword params body name)
      fun _ => Running.close env keyword params body' name := by
  refine trails_step fun m m' states => ?_
  have further : w <+: w ++ [w.length] := List.prefix_append _ _
  refine .ok (w ++ [w.length]) further ?_
    (.closure ⟨?_, rfl, rfl, rfl, rfl, statements⟩)
  · have next : ∀ i ∈ [w.length], w.length ≤ i ∧ i < w.length + 1 := by simp
    exact ⟨states.stores.later further, states.console, by simp [states.closures],
      by simp [states.closures'], states.nodup_append next (List.nodup_singleton _),
      states.inside_append next, M.admits_next w states.admitted⟩
  · show (w ++ [w.length])[m.closures]? = some m'.closures
    rw [states.closures, states.closures', List.getElem?_concat_length]

theorem trails_bindArguments {c c' : Closure} (closures : M.Closures w c c') {vs vs' : List Value}
    (values : List.Forall₂ (M.Values w) vs vs') :
    Trails M.Machines (fun _ env env' => env' = env) n w (Running.bindArguments c vs)
      fun _ => Running.bindArguments c' vs' := by
  unfold Running.bindArguments
  rw [closures.params, closures.env]
  refine (trails_newFrame c.env.chain).bind ?_
  rintro w' further _ inner rfl
  have bound : Trails M.Machines (fun _ _ _ => True) n w'
      (Running.modifyStore (·.defineAll inner ((c.params.map (·.lexeme)).zip vs)))
      fun _ => Running.modifyStore (·.defineAll inner ((c.params.map (·.lexeme)).zip vs')) :=
    trails_step fun m m' states => .ok w' List.prefix_rfl
      (states.withStores (states.stores.defineAll inner _ (Values.all_later further values))) trivial
  exact bound.bind fun _ _ _ _ _ => trails_pure rfl

theorem trails_callNative (f : Native) {vs vs' : List Value}
    (values : List.Forall₂ (M.Values w) vs vs') :
    Trails M.Machines M.Values n w (Running.callNative f vs) fun _ => Running.callNative f vs' := by
  refine (sharesConsole.trails_callNative f (Values.texts values)).imp ?_
  rintro w' further v _ ⟨rfl, plain⟩
  exact .plain plain

end Steps

end Matching

end Lox
