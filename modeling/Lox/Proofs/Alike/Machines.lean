import Lox.Proofs.Alike.Runs
import Lox.Proofs.Scopes.Tables

/-!
# Machines of runs of one shape

Two stores are alike if they have the same frames, and alike values in each frame under
corresponding names. The mark of a frame tells which names correspond in it. The steps of two
machines keep their stores alike if uses of names find their variables at the same distances.
-/

namespace Lox

variable {μ : Type}

/-- The names that correspond in the frames of each mark; the global frame has a mark of its own,
in which names correspond to themselves. -/
structure Keys (μ : Type) where
  key : μ → String → String
  injective : ∀ mark, Function.Injective (key mark)
  root : μ
  key_root : ∀ name, key root name = name

/-- Two stores have the same frames, with alike values under corresponding names. -/
structure Store.Alike (L : Likeness μ) (K : Keys μ) (marks : List μ) (s s' : Store) : Prop where
  size : s.frames.size = marks.length
  size' : s'.frames.size = marks.length
  values : ∀ {r mark}, marks[r]? = some mark → ∀ name,
    Option.Rel (Value.Alike L marks) (s.bindings r)[name]? (s'.bindings r)[K.key mark name]?

/-- Two machines are alike but for what they note for debugging. -/
structure Machine.Alike (L : Likeness μ) (K : Keys μ) (marks : List μ) (m m' : Machine) : Prop where
  root : marks[0]? = some K.root
  store : m.store.Alike L K marks m'.store
  closures : m'.closures = m.closures
  console : m'.console = m.console

variable {L L' : Likeness μ} {K : Keys μ} {marks marks' : List μ}

/-! ## What each change of the stores keeps -/

theorem rel_imp {α β : Type} {r r' : α → β → Prop} (imp : ∀ {a b}, r a b → r' a b) {x : Option α}
    {y : Option β} (rel : Option.Rel r x y) : Option.Rel r' x y := by
  cases rel with
  | none => exact .none
  | some related => exact .some (imp related)

theorem rel_isSome {α β : Type} {r : α → β → Prop} {x : Option α} {y : Option β}
    (rel : Option.Rel r x y) : y.isSome = x.isSome := by
  cases rel <;> rfl

theorem rel_map {α β γ : Type} {r : α → β → Prop} {x : Option α} {y : Option β}
    (rel : Option.Rel r x y) {f : α → γ} {g : β → γ} (same : ∀ {a b}, r a b → g b = f a) :
    y.map g = x.map f := by
  cases rel with
  | none => rfl
  | some related => exact congrArg some (same related)

namespace Store.Alike

variable {s s' : Store}

theorem mono (below : L.Below L') (alike : s.Alike L K marks s') : s.Alike L' K marks s' :=
  ⟨alike.size, alike.size', fun found name =>
    rel_imp (fun value => value.mono below List.prefix_rfl) (alike.values found name)⟩

theorem bind (alike : s.Alike L K marks s') {r : Ref} {mark : μ} (found : marks[r]? = some mark)
    (name : String) {v v' : Value} (values : v.Alike L marks v') :
    (s.bind r name v).Alike L K marks (s'.bind r (K.key mark name) v') := by
  refine ⟨by rw [size_bind, alike.size], by rw [size_bind, alike.size'], ?_⟩
  intro r' mark' found' other
  rw [bindings_bind, bindings_bind, alike.size, alike.size']
  by_cases here : r = r' ∧ r < marks.length
  · obtain ⟨rfl, inside⟩ := here
    cases found.symm.trans found'
    simp only [inside, and_self, if_true]
    rw [getElem?_insert_string, getElem?_insert_string]
    by_cases same : name = other
    · subst same
      simp only [if_true]
      exact .some values
    · have different : ¬ K.key mark name = K.key mark other :=
        fun equal => same (K.injective mark equal)
      simp only [same, different, if_false]
      exact alike.values found' other
  · simp only [here, if_false]
    exact alike.values found' other

theorem grow (alike : s.Alike L K marks s') (mark : μ) :
    s.grow.Alike L K (marks ++ [mark]) s'.grow := by
  refine ⟨by simp [size_grow, alike.size], by simp [size_grow, alike.size'], ?_⟩
  intro r mark' found name
  rw [bindings_grow, bindings_grow]
  by_cases old : r < marks.length
  · rw [List.getElem?_append_left old] at found
    exact rel_imp (fun value => value.later (List.prefix_append _ _)) (alike.values found name)
  · have outside : s.frames[r]? = none :=
      Array.getElem?_eq_none (by rw [alike.size]; exact Nat.le_of_not_lt old)
    have outside' : s'.frames[r]? = none :=
      Array.getElem?_eq_none (by rw [alike.size']; exact Nat.le_of_not_lt old)
    simp [bindings, outside, outside']

end Store.Alike

theorem Machine.Alike.mono {m m' : Machine} (below : L.Below L') (alike : m.Alike L K marks m') :
    m.Alike L' K marks m' :=
  ⟨alike.root, alike.store.mono below, alike.closures, alike.console⟩

/-- What is noted for debugging makes no difference. -/
theorem Machine.Alike.traced {m m' : Machine} (alike : m.Alike L K marks m') (trace trace' : Trace) :
    Machine.Alike L K marks { m with trace } { m' with trace := trace' } :=
  ⟨alike.root, alike.store, alike.closures, alike.console⟩

/-- The stores of alike machines may become others that are alike. -/
theorem Machine.Alike.withStores {m m' : Machine} (alike : m.Alike L K marks m')
    (further : marks <+: marks') {s s' : Store} (stores : s.Alike L K marks' s') :
    Machine.Alike L K marks' { m with store := s } { m' with store := s' } :=
  ⟨getElem?_further further alike.root, stores, alike.closures, alike.console⟩

/-- If there are as many frames as before, none has been marked. -/
theorem Machine.Alike.marks_eq {m m' n n' : Machine} (alike : m.Alike L K marks m')
    (later : n.Alike L K marks' n') (further : marks <+: marks')
    (size : n.store.frames.size = m.store.frames.size) : marks = marks' := by
  refine further.eq_of_length ?_
  rw [← alike.store.size, ← size, later.store.size]

/-! ## What is found -/

/-- Two variables have no value for the same reason. -/
inductive Missing.Alike (L : Likeness μ) : Missing → Missing → Prop
  | undefined (name : String) : Missing.Alike L (.undefined name) (.undefined name)
  | uninitialized {name name' : String} (names : L.missing name name') :
      Missing.Alike L (.uninitialized name) (.uninitialized name')
  | noFrame (excess : Nat) : Missing.Alike L (.noFrame excess) (.noFrame excess)

/-- What is found is alike, or is missing for the same reason. -/
inductive FoundAlike (L : Likeness μ) {α α' : Type} (P : α → α' → Prop) :
    Except Missing α → Except Missing α' → Prop
  | ok {a : α} {a' : α'} (found : P a a') : FoundAlike L P (.ok a) (.ok a')
  | error {e e' : Missing} (missing : e.Alike L e') : FoundAlike L P (.error e) (.error e')

/-- Values are found in both places, or are missing in both. -/
theorem FoundAlike.of_rel {L : Likeness μ} {α α' : Type} {P : α → α' → Prop} {x : Option α}
    {y : Option α'} (values : Option.Rel P x y) {e e' : Missing} (missing : e.Alike L e') :
    FoundAlike L P (x.elim (.error e) .ok) (y.elim (.error e') .ok) := by
  cases values with
  | none => exact .error missing
  | some value => exact .ok value

theorem Missing.Alike.stop {e e' : Missing} (alike : e.Alike L e') {line line' : Int}
    (lines : L.lines line line') : (e.stop (some line)).Alike L (e'.stop (some line')) := by
  cases alike with
  | undefined name => exact .error ⟨.same _, .some lines, .nil⟩
  | uninitialized names => exact .error ⟨.uninitialized names, .some lines, .nil⟩
  | noFrame excess => exact .fault _

/-- What is found in alike states ends a run alike. -/
theorem runs_ofFound {α α' : Type} {R : List μ → Machine → Machine → Prop}
    {P : List μ → α → α' → Prop}
    {name name' : Token} (lines : L.lines name.line name'.line) {found : Except Missing α}
    {found' : Except Missing α'} (alike : FoundAlike L (P marks) found found') :
    RunsAlike L R P marks (Running.ofFound name found) (Running.ofFound name' found') := by
  cases alike with
  | ok found => exact runs_pure found
  | error missing => exact runs_throw (missing.stop lines)

theorem ok_bind {ε α β : Type} (a : α) (f : α → Except ε β) :
    (Except.ok a >>= f) = f a := rfl

theorem Store.getAt_of_frame {env : Env} {distance : Nat} {r : Ref}
    (found : env.frameAt distance = .ok r) (s : Store) (name : String) :
    s.getAt env distance name =
      (s.bindings r)[name]?.elim (.error (.uninitialized name)) .ok := by
  unfold Store.getAt
  rw [found, ok_bind]
  cases (s.bindings r)[name]? <;> rfl

theorem Store.get_of_global (s : Store) (name : String) :
    s.get .global name = (s.bindings 0)[name]?.elim (.error (.undefined name)) .ok := by
  simp only [Store.get, Env.global, Env.chain, List.findSome?_cons, List.findSome?_nil]
  cases (s.bindings 0)[name]? <;> rfl

namespace Store.Alike

variable {s s' : Store} (alike : s.Alike L K marks s')
include alike

theorem contains {r : Ref} {mark : μ} (found : marks[r]? = some mark) (name : String) :
    (s'.bindings r).contains (K.key mark name) = (s.bindings r).contains name := by
  rw [Std.TreeMap.contains_eq_isSome_getElem?, Std.TreeMap.contains_eq_isSome_getElem?]
  exact rel_isSome (alike.values found name)

theorem getAt {env : Env} {around : List μ} (marked : env.Marked marks around) (distance : Nat)
    {name name' : String}
    (names : ∀ mark, around[distance]? = some mark → L.missing name name' ∧
      name' = K.key mark name) :
    FoundAlike L (Value.Alike L marks) (s.getAt env distance name)
      (s'.getAt env distance name') := by
  have frame := marked.frameAt distance
  cases inside : around[distance]? with
  | none =>
    simp only [inside] at frame
    rw [Store.getAt, Store.getAt, frame]
    exact .error (.noFrame _)
  | some mark =>
    simp only [inside] at frame
    obtain ⟨r, found, isMark⟩ := frame
    obtain ⟨missing, rfl⟩ := names mark inside
    rw [getAt_of_frame found, getAt_of_frame found]
    exact .of_rel (alike.values isMark name) (.uninitialized missing)

/-- The frames with corresponding names have the same mark, by which the names correspond. -/
theorem ownerAt {env : Env} {around : List μ} (marked : env.Marked marks around) (distance : Nat)
    {name name' : String}
    (names : ∀ mark, around[distance]? = some mark → L.missing name name' ∧
      name' = K.key mark name) :
    FoundAlike L (fun r r' => r' = r ∧ ∃ mark, marks[r]? = some mark ∧ name' = K.key mark name)
      (s.ownerAt env distance name) (s'.ownerAt env distance name') := by
  have frame := marked.frameAt distance
  unfold Store.ownerAt
  cases inside : around[distance]? with
  | none =>
    simp only [inside] at frame
    rw [frame]
    exact .error (.noFrame _)
  | some mark =>
    simp only [inside] at frame
    obtain ⟨r, found, isMark⟩ := frame
    obtain ⟨missing, rfl⟩ := names mark inside
    rw [found]
    show FoundAlike L _ (if (s.bindings r).contains name then Except.ok r
        else .error (.uninitialized name))
      (if (s'.bindings r).contains (K.key mark name) then Except.ok r
        else .error (.uninitialized (K.key mark name)))
    rw [alike.contains isMark]
    cases (s.bindings r).contains name with
    | true => exact .ok ⟨rfl, mark, isMark, rfl⟩
    | false => exact .error (.uninitialized missing)

theorem get_global (root : marks[0]? = some K.root) (name : String) :
    FoundAlike L (Value.Alike L marks) (s.get .global name) (s'.get .global name) := by
  have values := alike.values root name
  rw [K.key_root] at values
  rw [get_of_global, get_of_global]
  exact .of_rel values (.undefined name)

theorem owner_global (root : marks[0]? = some K.root) (name : String) :
    FoundAlike L (fun r r' => r' = r ∧ ∃ mark, marks[r]? = some mark ∧ name = K.key mark name)
      (s.owner .global name) (s'.owner .global name) := by
  have same := alike.contains root name
  rw [K.key_root] at same
  simp only [Store.owner, Env.global, Env.chain, List.find?_cons, List.find?_nil, same]
  cases (s.bindings 0).contains name with
  | true => exact .ok ⟨rfl, K.root, root, (K.key_root name).symm⟩
  | false => exact .error (.undefined name)

end Store.Alike

/-! ## Steps of machines -/

/-- Uses of names that correspond find their variables at the same distances under corresponding
names, and corresponding declarations declare corresponding names. -/
structure Likeness.Finds (L : Likeness μ) (K : Keys μ) (T T' : Distances) : Prop where
  lines : ∀ {around id id' name name'}, L.uses around id name id' name' →
    L.lines name.line name'.line
  distance : ∀ {around id id' name name'}, L.uses around id name id' name' → T'[id']? = T[id]?
  names : ∀ {around id id' name name'}, L.uses around id name id' name' →
    ∀ {distance}, T[id]? = some distance → ∀ mark, around[distance]? = some mark →
      L.missing name.lexeme name'.lexeme ∧ name'.lexeme = K.key mark name.lexeme
  globals : ∀ {around id id' name name'}, L.uses around id name id' name' → T[id]? = none →
    name'.lexeme = name.lexeme
  declared : ∀ {mark around name name'}, L.names (mark :: around) name name' →
    name'.lexeme = K.key mark name.lexeme

variable {T T' : Distances}

theorem Machine.Alike.bind {m m' : Machine} (states : m.Alike L K marks m') {r : Ref} {mark : μ}
    (found : marks[r]? = some mark) (name : String) {v v' : Value} (values : v.Alike L marks v') :
    Machine.Alike L K marks { m with store := m.store.bind r name v }
      { m' with store := m'.store.bind r (K.key mark name) v' } :=
  states.withStores List.prefix_rfl (states.store.bind found name values)

theorem runs_newFrame {around : List μ} {env : Env} (marked : env.Marked marks around) (mark : μ) :
    RunsAlike L (Machine.Alike L K)
      (fun marks env env' => env' = env ∧ env.Marked marks (mark :: around)) marks
      (Running.newFrame env.chain) (Running.newFrame env.chain) := by
  intro m m' states
  have same : m'.store.nextEnv env.chain = m.store.nextEnv env.chain := by
    simp only [Store.nextEnv, states.store.size, states.store.size']
  refine .ok (marks ++ [mark]) (List.prefix_append _ _) ?_ ⟨same, marked.next mark states.store.size⟩
  exact states.withStores (List.prefix_append _ _) (states.store.grow mark)

section Steps
variable (finds : L.Finds K T T')
include finds

private theorem runs_lookUp {around : List μ} {env : Env} {id id' : Nat} {name name' : Token}
    (marked : env.Marked marks around) (use : L.uses around id name id' name') :
    RunsAlike L (Machine.Alike L K) (Value.Alike L) marks
      (Running.lookUp (.distances T) env id name) (Running.lookUp (.distances T') env id' name') := by
  intro m m' states
  refine runs_ofFound (finds.lines use) ?_ m m' states
  dsimp only
  rw [finds.distance use]
  cases found : T[id]? with
  | some distance => exact states.store.getAt marked distance (finds.names use found)
  | none =>
    rw [finds.globals use found]
    exact states.store.get_global states.root name.lexeme

private theorem runs_ownerOf {around : List μ} {env : Env} {id id' : Nat} {name name' : Token}
    (marked : env.Marked marks around) (use : L.uses around id name id' name') :
    RunsAlike L (Machine.Alike L K)
      (fun marks r r' => r' = r ∧
        ∃ mark, marks[r]? = some mark ∧ name'.lexeme = K.key mark name.lexeme) marks
      (Running.ownerOf (.distances T) env id name)
      (Running.ownerOf (.distances T') env id' name') := by
  intro m m' states
  refine runs_ofFound (finds.lines use) ?_ m m' states
  dsimp only
  rw [finds.distance use]
  cases found : T[id]? with
  | some distance => exact states.store.ownerAt marked distance (finds.names use found)
  | none =>
    rw [finds.globals use found]
    exact states.store.owner_global states.root name.lexeme

private theorem runs_assign {around : List μ} {env : Env} {id id' : Nat} {name name' : Token}
    {v v' : Value} (marked : env.Marked marks around) (use : L.uses around id name id' name')
    (values : v.Alike L marks v') :
    RunsAlike L (Machine.Alike L K) (fun _ _ _ => True) marks
      (Running.assign (.distances T) env id name v)
      (Running.assign (.distances T') env id' name' v') := by
  refine (runs_ownerOf finds marked use).bind fun marks' further r r' found => ?_
  obtain ⟨rfl, mark, isMark, isName⟩ := found
  rw [isName]
  intro m m' states
  exact .ok marks' List.prefix_rfl (states.bind isMark _ (values.later further)) trivial

private theorem runs_define {around : List μ} {env : Env} {name name' : Token} {v v' : Value}
    (marked : env.Marked marks around) (names : L.names around name name')
    (values : v.Alike L marks v') :
    RunsAlike L (Machine.Alike L K) (fun _ _ _ => True) marks (Running.define env name v)
      (Running.define env name' v') := by
  cases around with
  | nil => simp [Env.Marked, Env.chain] at marked
  | cons mark around =>
    intro m m' states
    have bound := states.bind marked.frame name.lexeme values
    rw [← finds.declared names] at bound
    exact .ok marks List.prefix_rfl ⟨bound.root, bound.store, bound.closures, bound.console⟩ trivial

theorem defineAll_alike {around : List μ} {mark : μ} {env : Env}
    (marked : env.Marked marks (mark :: around)) {params params' : List Token}
    (names : List.Forall₂ (L.names (mark :: around)) params params') :
    ∀ {vs vs' : List Value}, List.Forall₂ (Value.Alike L marks) vs vs' → ∀ {s s' : Store},
      s.Alike L K marks s' →
      (s.defineAll env ((params.map (·.lexeme)).zip vs)).Alike L K marks
        (s'.defineAll env ((params'.map (·.lexeme)).zip vs')) := by
  induction names with
  | nil =>
    intro vs vs' _ s s' stores
    exact stores
  | cons isName _ ih =>
    intro vs vs' values s s' stores
    cases values with
    | nil => exact stores
    | cons value values =>
      have bound (name : String) := stores.bind marked.frame name value
      refine ih values ?_
      dsimp only [Store.define]
      rw [finds.declared isName]
      exact bound _

private theorem runs_bindArguments {around : List μ} {mark : μ} {c c' : Closure}
    {vs vs' : List Value} (marked : c.env.Marked marks around) (env : c'.env = c.env)
    (names : List.Forall₂ (L.names (mark :: around)) c.params c'.params)
    (values : List.Forall₂ (Value.Alike L marks) vs vs') :
    RunsAlike L (Machine.Alike L K)
      (fun marks env env' => env' = env ∧ env.Marked marks (mark :: around)) marks
      (Running.bindArguments c vs) (Running.bindArguments c' vs') := by
  unfold Running.bindArguments
  rw [env]
  refine (runs_newFrame marked mark).bind fun marks' further inner inner' opened => ?_
  obtain ⟨rfl, inside⟩ := opened
  refine RunsAlike.bind (P := fun _ _ _ => True) ?_ fun marks'' further' _ _ _ =>
    runs_pure ⟨rfl, inside.mono further'⟩
  intro m m' states
  have later := values.imp fun _ _ value => Value.Alike.later value further
  have bound := defineAll_alike finds inside names later states.store
  exact .ok marks' List.prefix_rfl (states.withStores List.prefix_rfl bound) trivial

end Steps

private theorem runs_close {around : List μ} {mark : μ} {env : Env} {keyword keyword' : Token}
    {params params' : List Token} {body body' : List Stmt} {name name' : Option Token}
    (marked : env.Marked marks around)
    (enter : L.enters around (.function keyword params body name)
      (.function keyword' params' body' name') mark)
    (lines : L.lines keyword.line keyword'.line)
    (title : name'.map (·.lexeme) = name.map (·.lexeme))
    (names : List.Forall₂ (L.names (mark :: around)) params params')
    (statements : Stmt.AllAlike L (mark :: around) body body') :
    RunsAlike L (Machine.Alike L K) (Value.Alike L) marks
      (Running.close env keyword params body name)
      (Running.close env keyword' params' body' name') := by
  intro m m' states
  refine .ok marks List.prefix_rfl ⟨states.root, states.store, ?_, states.console⟩
    (.closure ⟨states.closures, rfl, title, lines, around, mark, marked, enter, names, statements⟩)
  dsimp only
  rw [states.closures]

private theorem runs_note (e e' : Event) :
    RunsAlike L (Machine.Alike L K) (fun _ _ _ => True) marks (Running.note e) (Running.note e') := by
  intro m m' states
  exact .ok marks List.prefix_rfl ⟨states.root, states.store, states.closures, states.console⟩ trivial

/-- What a run does that sees the console alone is the same on both sides. -/
private theorem runs_console {α : Type} {P : List μ → α → α → Prop} {run : Running α}
    (f : Console → Running α) (sees : ∀ m, run m = f m.console m)
    (each : ∀ c, RunsAlike L (Machine.Alike L K) P marks (f c) (f c)) :
    RunsAlike L (Machine.Alike L K) P marks run run := by
  intro m m' states
  rw [sees, sees, states.console]
  exact each _ m m' states

private theorem runs_modifyConsole (f : Console → Console) :
    RunsAlike L (Machine.Alike L K) (fun _ _ _ => True) marks (Running.modifyConsole f)
      (Running.modifyConsole f) := by
  intro m m' states
  refine .ok marks List.prefix_rfl ⟨states.root, states.store, states.closures, ?_⟩ trivial
  exact congrArg f states.console

private theorem texts_eq {vs vs' : List Value}
    (values : List.Forall₂ (Value.Alike L marks) vs vs') :
    vs'.map (·.text) = vs.map (·.text) := by
  induction values with
  | nil => rfl
  | cons value _ ih => rw [List.map_cons, List.map_cons, value.text, ih]

private theorem runs_writeLine (text : String) :
    RunsAlike L (Machine.Alike L K) (fun _ _ _ => True) marks (Running.writeLine text)
      (Running.writeLine text) := by
  refine runs_console (fun console => if console.writable
    then Running.modifyConsole (·.write (text ++ "\n")) else Running.fail .writing none)
    (fun _ => rfl) fun console => ?_
  cases console.writable with
  | true =>
    simp only [if_true]
    exact runs_modifyConsole _
  | false => exact runs_fail .writing .none

private theorem runs_readLine :
    RunsAlike L (Machine.Alike L K) (fun _ line line' => line' = line) marks Running.readLine
      Running.readLine := by
  refine runs_console (fun console => if console.readFails then Running.fail .reading none
    else Running.takeLine console.unread) (fun _ => rfl) fun console => ?_
  cases console.readFails with
  | true => exact runs_fail .reading .none
  | false =>
    cases console.unread with
    | nil => exact runs_pure rfl
    | cons line rest => exact (runs_modifyConsole _).bind fun _ _ _ _ _ => runs_pure rfl

private theorem runs_readClock :
    RunsAlike L (Machine.Alike L K) (fun _ x x' => x' = x) marks Running.readClock
      Running.readClock :=
  runs_console (fun console => do
    Running.modifyConsole ({ · with readings := console.readings + 1 })
    return console.clock console.readings) (fun _ => rfl)
    fun _ => (runs_modifyConsole _).bind fun _ _ _ _ _ => runs_pure rfl

/-- A native function sees the console, and its arguments as texts. -/
private theorem runs_callNative (f : Native) {vs vs' : List Value}
    (values : List.Forall₂ (Value.Alike L marks) vs vs') :
    RunsAlike L (Machine.Alike L K) (Value.Alike L) marks (Running.callNative f vs)
      (Running.callNative f vs') := by
  cases f with
  | clock =>
    refine runs_readClock.bind fun marks' further x x' same => ?_
    subst same
    exact runs_pure (.num _)
  | print =>
    simp only [Running.callNative]
    rw [texts_eq values]
    exact (runs_writeLine _).bind fun _ _ _ _ _ => runs_pure .nil
  | input =>
    refine runs_readLine.bind fun marks' further line line' same => ?_
    cases same
    cases line with
    | none => exact runs_pure .nil
    | some line => exact runs_pure (.str _)

/-- The steps of two machines agree if uses of names find their variables at the same distances. -/
theorem agreement_of_finds (finds : L.Finds K T T') :
    Agreement L (Machine.Alike L K) (Access.distances T).steps (Access.distances T').steps where
  lookUp := runs_lookUp finds
  assign := runs_assign finds
  define := runs_define finds
  openBlock marked _ := runs_newFrame marked _
  close := runs_close
  bindArguments marked env _ names values := runs_bindArguments finds marked env names values
  callNative f values := runs_callNative f values
  note _ := runs_note _ _
  literal _ _ := Value.Alike.ofLiteral

/-! ## The first machines -/

theorem Store.initial_plain {name : String} {v : Value}
    (found : (Store.initial.bindings 0)[name]? = some v) : v.Plain := by
  simp only [Store.initial, Store.bindings, List.foldl_cons, List.foldl_nil, List.getElem?_toArray,
    List.getElem?_cons_zero, Option.getD_some, getElem?_insert_string] at found
  rintro c rfl
  split_ifs at found <;> simp at found

/-- The first store is like itself. -/
theorem Store.alike_initial : Store.Alike L K [K.root] .initial .initial := by
  refine ⟨rfl, rfl, fun {r mark} found name => ?_⟩
  obtain ⟨rfl, rfl⟩ : r = 0 ∧ mark = K.root := by
    cases r with
    | zero => simpa using found.symm
    | succ r => simp at found
  rw [K.key_root]
  cases value : (Store.initial.bindings 0)[name]? with
  | none => exact .none
  | some v => exact .some (initial_plain value).alike

/-- First machines with the same console are alike, whatever they note for debugging. -/
theorem Machine.alike_initial (console : Console) (debugLevel debugLevel' : Nat) :
    Machine.Alike L K [K.root] (.initial console debugLevel) (.initial console debugLevel') :=
  ⟨rfl, Store.alike_initial, rfl, rfl⟩

end Lox
