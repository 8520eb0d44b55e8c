import Mathlib.Data.List.Nodup
import Lox.Proofs.Alike.Outlines
import Lox.Proofs.Folding.Layers
import Lox.Proofs.Folding.Trailing

/-!
# Machines of folded programs

A run of a folded program makes more frames than one of the program before. A list tells for every
frame of the latter which one of the former is in its place. Steps at places that correspond find
the same variables and keep their values the same, up to the trees of functions.
-/

namespace Lox

/-! ## Environments -/

/-- The frames of one chain have others in their place in another chain. -/
inductive Chained (w : List Ref) : Layers → List Ref → List Ref → Prop
  | global (first : w[0]? = some 0) : Chained w [] [0] [0]
  | shared {L : Layers} {r r' : Ref} {chain chain' : List Ref} (same : w[r]? = some r')
      (outer : Chained w L chain chain') : Chained w (.shared :: L) (r :: chain) (r' :: chain')
  | extra {L : Layers} {r' : Ref} {chain chain' : List Ref} (outer : Chained w L chain chain') :
      Chained w (.extra :: L) chain (r' :: chain')

theorem Chained.later {w w' : List Ref} (further : w <+: w') {L : Layers} {chain chain' : List Ref}
    (chained : Chained w L chain chain') : Chained w' L chain chain' := by
  induction chained with
  | global first => exact .global (getElem?_further further first)
  | shared same _ ih => exact .shared (getElem?_further further same) ih
  | extra _ ih => exact .extra ih

/-- The frames at distances that lead to the same scope have each other's place. -/
theorem Chained.leads {w : List Ref} {L : Layers} {chain chain' : List Ref}
    (chained : Chained w L chain chain') {distance distance' : Nat}
    (leads : L.Leads distance distance') :
    ∃ r r', chain[distance]? = some r ∧ chain'[distance']? = some r' ∧ w[r]? = some r' := by
  induction chained generalizing distance distance' with
  | global => cases leads
  | shared same _ ih =>
    cases leads with
    | here => exact ⟨_, _, rfl, rfl, same⟩
    | shared outer =>
      obtain ⟨r, r', found, found', same⟩ := ih outer
      exact ⟨r, r', by simpa using found, by simpa using found', same⟩
  | extra _ ih =>
    cases leads with
    | extra outer =>
      obtain ⟨r, r', found, found', same⟩ := ih outer
      exact ⟨r, r', found, by simpa using found', same⟩

/-- The frames of one environment have others in their place in another one. -/
def Env.Moved (w : List Ref) (L : Layers) (env env' : Env) : Prop :=
  Chained w L env.chain env'.chain

namespace Env.Moved

variable {w w' : List Ref} {L : Layers} {env env' : Env}

theorem later (further : w <+: w') (moved : env.Moved w L env') : env.Moved w' L env' :=
  Chained.later further moved

/-- Where something may be declared, the innermost frames have each other's place. -/
theorem frame (moved : env.Moved w L env') (declares : L.head? ≠ some .extra) :
    w[env.frame]? = some env'.frame := by
  obtain ⟨frame, outer⟩ := env
  obtain ⟨frame', outer'⟩ := env'
  cases moved with
  | global first => exact first
  | shared same _ => exact same
  | extra => simp at declares

end Env.Moved

/-! ## Values -/

/-- A value, of a function without its tree and its frames. -/
def Value.stripped : Value → Value
  | .closure c => .closure { c with body := [], env := .global }
  | v => v

namespace Value

theorem truthy_stripped (v : Value) : v.stripped.truthy = v.truthy := by cases v <;> rfl

theorem text_stripped (v : Value) : v.stripped.text = v.text := by cases v <;> rfl

theorem equal_stripped (v w : Value) : v.stripped.equal w.stripped = v.equal w := by
  cases v <;> cases w <;> rfl

theorem settles_stripped (operator : Token) (v : Value) :
    v.stripped.settles operator = v.settles operator := by
  simp only [settles, truthy_stripped]

theorem unary_stripped (operator : Token) (v : Value) :
    v.stripped.unary operator = v.unary operator := by
  cases v with
  | closure c =>
    unfold unary
    cases operator.kind <;> rfl
  | _ => rfl

theorem step_stripped (operator : Token) (v : Value) :
    v.stripped.step operator = v.step operator := by
  cases v <;> rfl

theorem binary_stripped (operator : Token) (v w : Value) :
    v.stripped.binary operator w.stripped = v.binary operator w := by
  have sums : v.stripped.add w.stripped = v.add w := by cases v <;> cases w <;> rfl
  unfold binary
  rw [sums, equal_stripped]
  cases v <;> cases w <;> rfl

end Value

section
variable (T T' : Distances)

/-- Two functions are the same but for their trees and frames. One tree is the other one folded, and
the frames have each other's place. -/
structure Closure.Moved (w : List Ref) (c c' : Closure) : Prop where
  identity : c'.identity = c.identity
  keyword : c'.keyword = c.keyword
  params : c'.params = c.params
  declaredName : c'.declaredName = c.declaredName
  function : ∃ L, c.env.Moved w L c'.env ∧ Stmt.AllMoved T T' (.shared :: L) none c.body c'.body

/-- Two values are equal, or functions that are the same but for their trees and frames. -/
inductive Value.Moved (w : List Ref) : Value → Value → Prop
  | plain {v : Value} (plain : v.Plain) : Value.Moved w v v
  | closure {c c' : Closure} (moved : c.Moved T T' w c') : Value.Moved w (.closure c) (.closure c')

end

variable {T T' : Distances} {w w' : List Ref}

theorem Closure.Moved.later (further : w <+: w') {c c' : Closure} (moved : c.Moved T T' w c') :
    c.Moved T T' w' c' := by
  obtain ⟨identity, keyword, params, declaredName, L, env, body⟩ := moved
  exact ⟨identity, keyword, params, declaredName, L, env.later further, body⟩

theorem Closure.Moved.name {c c' : Closure} (moved : c.Moved T T' w c') : c'.name = c.name := by
  unfold Closure.name
  rw [moved.declaredName]

namespace Value.Moved

variable {v v' u u' : Value}

theorem later (further : w <+: w') (moved : v.Moved T T' w v') : v.Moved T T' w' v' := by
  cases moved with
  | plain plain => exact .plain plain
  | closure moved => exact .closure (moved.later further)

theorem stripped (moved : v.Moved T T' w v') : v'.stripped = v.stripped := by
  cases moved with
  | plain plain => rfl
  | closure moved =>
    simp only [Value.stripped, moved.identity, moved.keyword, moved.params, moved.declaredName]

theorem truthy (moved : v.Moved T T' w v') : v'.truthy = v.truthy := by
  rw [← v'.truthy_stripped, moved.stripped, v.truthy_stripped]

theorem text (moved : v.Moved T T' w v') : v'.text = v.text := by
  rw [← v'.text_stripped, moved.stripped, v.text_stripped]

theorem settles (moved : v.Moved T T' w v') (operator : Token) :
    v'.settles operator = v.settles operator := by
  rw [← settles_stripped operator v', moved.stripped, settles_stripped]

theorem unary (moved : v.Moved T T' w v') (operator : Token) :
    v'.unary operator = v.unary operator := by
  rw [← unary_stripped operator v', moved.stripped, unary_stripped]

theorem step (moved : v.Moved T T' w v') (operator : Token) :
    v'.step operator = v.step operator := by
  rw [← step_stripped operator v', moved.stripped, step_stripped]

theorem binary (moved : v.Moved T T' w v') (moved' : u.Moved T T' w u') (operator : Token) :
    v'.binary operator u' = v.binary operator u := by
  rw [← binary_stripped operator v', moved.stripped, moved'.stripped, binary_stripped]

end Value.Moved

/-! ## Stores and machines -/

section
variable (T T' : Distances)

/-- Every frame of one store has another one in its place in the other store, with the same names
and values that correspond. -/
structure Store.Moved (w : List Ref) (s s' : Store) : Prop where
  size : s.frames.size = w.length
  first : w[0]? = some 0
  nodup : w.Nodup
  inside : ∀ r' ∈ w, r' < s'.frames.size
  values : ∀ {r r' : Ref}, w[r]? = some r' → ∀ name : String,
    Option.Rel (Value.Moved T T' w) (s.bindings r)[name]? (s'.bindings r')[name]?

/-- Two machines are the same up to their frames and trees, and what they note for debugging. -/
structure Machine.Moved (w : List Ref) (m m' : Machine) : Prop where
  store : m.store.Moved T T' w m'.store
  closures : m'.closures = m.closures
  console : m'.console = m.console

end

namespace Store.Moved

variable {s s' : Store}

theorem bind (moved : s.Moved T T' w s') {r r' : Ref} (same : w[r]? = some r') (name : String)
    {v v' : Value} (values : v.Moved T T' w v') :
    (s.bind r name v).Moved T T' w (s'.bind r' name v') := by
  have inside : r < s.frames.size := by
    rw [moved.size]
    exact (List.getElem?_eq_some_iff.1 same).1
  have inside' := moved.inside r' (List.mem_of_getElem? same)
  refine ⟨by rw [size_bind, moved.size], moved.first, moved.nodup, ?_, ?_⟩
  · rw [size_bind]
    exact moved.inside
  · intro other other' sameOther other_name
    rw [bindings_bind, bindings_bind]
    by_cases here : r = other
    · subst here
      obtain rfl : r' = other' := Option.some.inj (same.symm.trans sameOther)
      simp only [inside, inside', and_self, if_true]
      rw [getElem?_insert_string, getElem?_insert_string]
      by_cases isName : name = other_name
      · simp only [isName, if_true]
        exact .some values
      · simp only [isName, if_false]
        exact moved.values same other_name
    · have apart : ¬ r' = other' := by
        rintro rfl
        obtain ⟨_, isFrame⟩ := List.getElem?_eq_some_iff.1 same
        obtain ⟨_, isFrame'⟩ := List.getElem?_eq_some_iff.1 sameOther
        exact here (moved.nodup.getElem_inj_iff.1 (isFrame.trans isFrame'.symm))
      simp only [here, apart, false_and, if_false]
      exact moved.values sameOther other_name

/-- A frame that is in no frame's place makes no difference. -/
theorem grow_right (moved : s.Moved T T' w s') : s.Moved T T' w s'.grow := by
  refine ⟨moved.size, moved.first, moved.nodup, fun r' member => ?_, fun same name => ?_⟩
  · rw [size_grow]
    exact Nat.lt_succ_of_lt (moved.inside r' member)
  · rw [bindings_grow]
    exact moved.values same name

theorem grow (moved : s.Moved T T' w s') :
    s.grow.Moved T T' (w ++ [s'.frames.size]) s'.grow := by
  have further : w <+: w ++ [s'.frames.size] := List.prefix_append _ _
  refine ⟨by simp [size_grow, moved.size], getElem?_further further moved.first, ?_, ?_, ?_⟩
  · refine List.nodup_append.2 ⟨moved.nodup, List.nodup_singleton _, ?_⟩
    rintro r' member other isNew rfl
    have below := moved.inside r' member
    rw [List.mem_singleton.1 isNew] at below
    exact Nat.lt_irrefl _ below
  · intro r' member
    rw [size_grow]
    rcases List.mem_append.1 member with old | new
    · exact Nat.lt_succ_of_lt (moved.inside r' old)
    · rw [List.mem_singleton.1 new]
      exact Nat.lt_succ_self _
  · intro r r' same name
    rw [bindings_grow, bindings_grow]
    by_cases old : r < w.length
    · rw [List.getElem?_append_left old] at same
      exact rel_imp (Value.Moved.later further) (moved.values same name)
    · have outside : s.frames[r]? = none :=
        Array.getElem?_eq_none (by rw [moved.size]; exact Nat.le_of_not_lt old)
      rw [List.getElem?_append_right (Nat.le_of_not_lt old)] at same
      obtain rfl : r' = s'.frames.size := List.mem_singleton.1 (List.mem_of_getElem? same)
      simp [bindings, outside]

end Store.Moved

namespace Machine.Moved

variable {m m' : Machine}

/-- The stores of machines may become others that correspond. -/
theorem withStores (moved : m.Moved T T' w m') {s s' : Store} (stores : s.Moved T T' w' s') :
    Machine.Moved T T' w' { m with store := s } { m' with store := s' } :=
  ⟨stores, moved.closures, moved.console⟩

end Machine.Moved

/-! ## What is found -/

/-- What is found corresponds, or is missing for one and the same reason. -/
inductive FoundMoved {α α' : Type} (P : α → α' → Prop) :
    Except Missing α → Except Missing α' → Prop
  | ok {a : α} {a' : α'} (found : P a a') : FoundMoved P (.ok a) (.ok a')
  | error (missing : Missing) : FoundMoved P (.error missing) (.error missing)

theorem FoundMoved.refl {α : Type} (found : Except Missing α) :
    FoundMoved (fun a a' => a' = a) found found := by
  cases found with
  | ok a => exact .ok rfl
  | error missing => exact .error missing

/-- Values are found in both places, or are missing in both. -/
theorem FoundMoved.of_rel {α α' : Type} {P : α → α' → Prop} {x : Option α} {y : Option α'}
    (values : Option.Rel P x y) (missing : Missing) :
    FoundMoved P (x.elim (.error missing) .ok) (y.elim (.error missing) .ok) := by
  cases values with
  | none => exact .error missing
  | some value => exact .ok value

theorem sameEnd_ofFound {R : List Ref → Machine → Machine → Prop} {α α' : Type}
    {P : List Ref → α → α' → Prop} {m m' : Machine} {found : Except Missing α}
    {found' : Except Missing α'} (name : Token) (moved : FoundMoved (P w) found found')
    (states : R w m m') :
    SameEnd R P w (Running.ofFound name found m) (Running.ofFound name found' m') := by
  cases moved with
  | ok found => exact .ok w List.prefix_rfl states found
  | error missing =>
    refine .error ?_ w List.prefix_rfl states
    cases missing <;> exact nofun

namespace Store.Moved

variable {s s' : Store}

theorem contains (moved : s.Moved T T' w s') {r r' : Ref} (same : w[r]? = some r')
    (name : String) : (s'.bindings r').contains name = (s.bindings r).contains name := by
  rw [Std.TreeMap.contains_eq_isSome_getElem?, Std.TreeMap.contains_eq_isSome_getElem?]
  exact rel_isSome (moved.values same name)

variable {L : Layers} {env env' : Env}

theorem frameAt (moved : env.Moved w L env') {distance distance' : Nat}
    (leads : L.Leads distance distance') :
    ∃ r r', env.frameAt distance = .ok r ∧ env'.frameAt distance' = .ok r' ∧ w[r]? = some r' := by
  obtain ⟨r, r', found, found', same⟩ := Chained.leads moved leads
  refine ⟨r, r', ?_, ?_, same⟩
  · unfold Env.frameAt
    rw [found]
  · unfold Env.frameAt
    rw [found']

theorem getAt (moved : s.Moved T T' w s') (envs : env.Moved w L env') {distance distance' : Nat}
    (leads : L.Leads distance distance') (name : String) :
    FoundMoved (Value.Moved T T' w) (s.getAt env distance name) (s'.getAt env' distance' name) := by
  obtain ⟨r, r', found, found', same⟩ := frameAt envs leads
  rw [getAt_of_frame found, getAt_of_frame found']
  exact .of_rel (moved.values same name) _

theorem ownerAt (moved : s.Moved T T' w s') (envs : env.Moved w L env') {distance distance' : Nat}
    (leads : L.Leads distance distance') (name : String) :
    FoundMoved (fun r r' => w[r]? = some r') (s.ownerAt env distance name)
      (s'.ownerAt env' distance' name) := by
  obtain ⟨r, r', found, found', same⟩ := frameAt envs leads
  unfold Store.ownerAt
  rw [found, found', ok_bind, ok_bind, moved.contains same]
  cases (s.bindings r).contains name with
  | true => exact .ok same
  | false => exact .error _

theorem get_global (moved : s.Moved T T' w s') (name : String) :
    FoundMoved (Value.Moved T T' w) (s.get .global name) (s'.get .global name) := by
  rw [get_of_global, get_of_global]
  exact .of_rel (moved.values moved.first name) _

theorem owner_global (moved : s.Moved T T' w s') (name : String) :
    FoundMoved (fun r r' => w[r]? = some r') (s.owner .global name) (s'.owner .global name) := by
  have same := moved.contains moved.first name
  simp only [Store.owner, Env.global, Env.chain, List.find?_cons, List.find?_nil, same]
  cases (s.bindings 0).contains name with
  | true => exact .ok moved.first
  | false => exact .error _

theorem defineAll (moved : s.Moved T T' w s') (same : w[env.frame]? = some env'.frame)
    (names : List String) {vs vs' : List Value}
    (values : List.Forall₂ (Value.Moved T T' w) vs vs') :
    (s.defineAll env (names.zip vs)).Moved T T' w (s'.defineAll env' (names.zip vs')) := by
  induction names generalizing s s' vs vs' with
  | nil => exact moved
  | cons name rest ih =>
    cases values with
    | nil => exact moved
    | cons value values => exact ih (moved.bind same name value) values

end Store.Moved

/-! ## Steps of machines -/

section Steps
variable {n : Nat} {L : Layers} {env env' : Env} {v v' : Value}

theorem trails_lookUp (moved : env.Moved w L env') {id id' : Nat} (use : UseMoved T T' L id id')
    (name : Token) :
    Trails (Machine.Moved T T') (Value.Moved T T') n w (Running.lookUp (.distances T) env id name)
      fun _ => Running.lookUp (.distances T') env' id' name := by
  refine trails_step fun m m' states => sameEnd_ofFound name ?_ states
  dsimp only
  cases use with
  | global missing missing' =>
    rw [missing, missing']
    exact states.store.get_global name.lexeme
  | found isFound isFound' leads =>
    rw [isFound, isFound']
    exact states.store.getAt moved leads name.lexeme

theorem trails_assign (moved : env.Moved w L env') {id id' : Nat} (use : UseMoved T T' L id id')
    (name : Token) (values : v.Moved T T' w v') :
    Trails (Machine.Moved T T') (fun _ _ _ => True) n w
      (Running.assign (.distances T) env id name v)
      fun _ => Running.assign (.distances T') env' id' name v' := by
  have owners : Trails (Machine.Moved T T') (fun w r r' => w[r]? = some r') n w
      (Running.ownerOf (.distances T) env id name)
      fun _ => Running.ownerOf (.distances T') env' id' name := by
    refine trails_step fun m m' states => sameEnd_ofFound name ?_ states
    dsimp only
    cases use with
    | global missing missing' =>
      rw [missing, missing']
      exact states.store.owner_global name.lexeme
    | found isFound isFound' leads =>
      rw [isFound, isFound']
      exact states.store.ownerAt moved leads name.lexeme
  refine owners.bind fun w' further r r' same => trails_step fun m m' states => ?_
  exact .ok w' List.prefix_rfl
    (states.withStores (states.store.bind same name.lexeme (values.later further))) trivial

theorem trails_define (moved : env.Moved w L env') (declares : L.head? ≠ some .extra) (name : Token)
    (values : v.Moved T T' w v') :
    Trails (Machine.Moved T T') (fun _ _ _ => True) n w (Running.define env name v)
      fun _ => Running.define env' name v' := by
  refine trails_step fun m m' states => ?_
  have bound := states.store.bind (moved.frame declares) name.lexeme values
  exact .ok w List.prefix_rfl ⟨bound, states.closures, states.console⟩ trivial

theorem trails_newFrame (moved : env.Moved w L env') :
    Trails (Machine.Moved T T')
      (fun w inner inner' => inner.Moved w (.shared :: L) inner' ∧ inner'.outer = env'.chain) n w
      (Running.newFrame env.chain) fun _ => Running.newFrame env'.chain := by
  refine trails_step fun m m' states => ?_
  have further : w <+: w ++ [m'.store.frames.size] := List.prefix_append _ _
  refine .ok (w ++ [m'.store.frames.size]) further (states.withStores states.store.grow) ?_
  have same : (w ++ [m'.store.frames.size])[m.store.frames.size]? = some m'.store.frames.size := by
    rw [states.store.size, List.getElem?_concat_length]
  exact ⟨.shared same (moved.later further), rfl⟩

/-- A frame more than before is behind the frames around it. -/
theorem trails_extraFrame {α α' : Type} {P : List Ref → α → α' → Prop} {run : Running α}
    {runs : Nat → Env → Running α'} (moved : env.Moved w L env')
    (inside : ∀ inner, env.Moved w (.extra :: L) inner →
      Trails (Machine.Moved T T') P n w run fun k => runs k inner) :
    Trails (Machine.Moved T T') P n w run fun k => Running.newFrame env'.chain >>= runs k :=
  fun m m' states => inside (m'.store.nextEnv env'.chain) (.extra moved) m
    { m' with store := m'.store.grow }
    ⟨states.store.grow_right, states.closures, states.console⟩

theorem trails_close (moved : env.Moved w L env') (keyword : Token) (params : List Token)
    {body body' : List Stmt} (statements : Stmt.AllMoved T T' (.shared :: L) none body body')
    (name : Option Token) :
    Trails (Machine.Moved T T') (Value.Moved T T') n w (Running.close env keyword params body name)
      fun _ => Running.close env' keyword params body' name := by
  refine trails_step fun m m' states => ?_
  refine .ok w List.prefix_rfl ⟨states.store, ?_, states.console⟩
    (.closure ⟨states.closures, rfl, rfl, rfl, L, moved, statements⟩)
  dsimp only
  rw [states.closures]

theorem trails_bindArguments {c c' : Closure} (moved : c.env.Moved w L c'.env)
    (params : c'.params = c.params) {vs vs' : List Value}
    (values : List.Forall₂ (Value.Moved T T' w) vs vs') :
    Trails (Machine.Moved T T') (fun w inner inner' => inner.Moved w (.shared :: L) inner') n w
      (Running.bindArguments c vs) fun _ => Running.bindArguments c' vs' := by
  unfold Running.bindArguments
  rw [params]
  refine (trails_newFrame moved).bind fun w' further inner inner' ⟨entered, _⟩ => ?_
  have bound : Trails (Machine.Moved T T') (fun _ _ _ => True) n w'
      (Running.modifyStore (·.defineAll inner ((c.params.map (·.lexeme)).zip vs)))
      fun _ => Running.modifyStore (·.defineAll inner' ((c.params.map (·.lexeme)).zip vs')) := by
    refine trails_step fun m m' states => .ok w' List.prefix_rfl ?_ trivial
    have later := values.imp fun _ _ value => Value.Moved.later further value
    exact states.withStores (states.store.defineAll (entered.frame (by simp)) _ later)
  exact bound.bind fun w'' further' _ _ _ => trails_pure (entered.later further')

/-! ## Native functions -/

private theorem texts_stripped {vs vs' : List Value}
    (values : List.Forall₂ (Value.Moved T T' w) vs vs') :
    vs'.map (·.text) = vs.map (·.text) := by
  induction values with
  | nil => rfl
  | cons value _ ih => rw [List.map_cons, List.map_cons, value.text, ih]

theorem Machine.Moved.sharesConsole : SharesConsole (Machine.Moved T T') :=
  ⟨fun states => states.console, fun _ states => ⟨states.store, states.closures, rfl⟩,
    fun _ _ states => ⟨states.store, states.closures, states.console⟩⟩

theorem trails_note (e e' : Event) :
    Trails (Machine.Moved T T') (fun _ _ _ => True) n w (Running.note e) fun _ => Running.note e' :=
  Machine.Moved.sharesConsole.trails_note e e'

theorem trails_callNative (f : Native) {vs vs' : List Value}
    (values : List.Forall₂ (Value.Moved T T' w) vs vs') :
    Trails (Machine.Moved T T') (Value.Moved T T') n w (Running.callNative f vs)
      fun _ => Running.callNative f vs' := by
  refine (Machine.Moved.sharesConsole.trails_callNative f (texts_stripped values)).imp ?_
  rintro w' further v _ ⟨rfl, plain⟩
  exact .plain plain

end Steps

/-! ## The first machines -/

/-- The first store has the native functions alone. -/
theorem Store.moved_initial : Store.Moved T T' [0] .initial .initial := by
  refine ⟨rfl, rfl, List.nodup_singleton 0, ?_, ?_⟩
  · intro r' member
    rw [List.mem_singleton.1 member]
    exact Nat.zero_lt_one
  · intro r r' same name
    obtain ⟨inside, isFrame⟩ := List.getElem?_eq_some_iff.1 same
    obtain rfl : r = 0 := Nat.lt_one_iff.1 inside
    obtain rfl : 0 = r' := isFrame
    cases value : (Store.initial.bindings 0)[name]? with
    | none => exact .none
    | some v => exact .some (.plain (initial_plain value))

end Lox
