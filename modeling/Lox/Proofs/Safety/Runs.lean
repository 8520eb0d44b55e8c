import Lox.Proofs.Alike.Values
import Lox.Proofs.Runs.Keeps
import Lox.Proofs.Safety.Frames
import Lox.Run.Eval

/-!
# Runs of trees that fit

A tree that fits into the frames around it is run without a fault. It ends in no other way than its
place allows, its value fits, and if it ends early, then for no stray `break`, `continue` or `return`.
Where variables have their values before they are used, the only error about a name is that a global
variable is missing.

Each rule is about runs in any store that has grown from a given one, so that what was known at the
beginning of a part is known at its end.
-/

namespace Lox

/-! ## Errors that are to be expected -/

/-- A statement has ended with nothing to leave. -/
def RuntimeError.Cause.IsStray : RuntimeError.Cause → Prop
  | strayBreak | strayContinue | strayReturn | strayLoopControl => True
  | _ => False

/-- A cause that lies in values, neither in a name nor in the place of a statement. -/
structure RuntimeError.Cause.OfValues (cause : RuntimeError.Cause) : Prop where
  inPlace : ¬ cause.IsStray
  notName : cause.kind ≠ .name

/-- Nothing is stray, and if variables have their values before they are used, then a missing name is
that of a global variable, which the resolution left without a distance. -/
structure RuntimeError.Expected (W : Usage) (e : RuntimeError) : Prop where
  inPlace : ¬ e.cause.IsStray
  isGlobal : W.definite → e.cause.kind = .name → ∃ id name, W.uses id name ∧
    W.table[id]? = none ∧ e.cause = .undefined name.lexeme ∧ e.line = some name.line

/-- A run ends with an error that is to be expected, or for lack of fuel. -/
def Stop.Expected (W : Usage) : Stop → Prop
  | .error e => e.Expected W
  | .fault _ => False
  | .outOfFuel => True

theorem RuntimeError.Cause.OfValues.expected {W : Usage} {cause : RuntimeError.Cause}
    (ofValues : cause.OfValues) (line : Option Int) : Stop.Expected W (.error ⟨cause, line, []⟩) :=
  ⟨ofValues.inPlace, fun _ isName => absurd isName ofValues.notName⟩

theorem Stop.Expected.inCall {W : Usage} {stop : Stop} (expected : stop.Expected W)
    (step : CallStep) : (stop.inCall step).Expected W := by
  cases stop with
  | error e => exact ⟨expected.inPlace, expected.isGlobal⟩
  | fault => exact expected
  | outOfFuel => exact expected

/-! ## Operators -/

/-- What an operator makes of values is no function, and it fails for the values alone. -/
def OfOperator : Except RuntimeError.Cause Value → Prop
  | .ok v => v.Plain
  | .error cause => cause.OfValues

theorem Value.ofOperator_unary (operator : Token) (v : Value) : OfOperator (v.unary operator) := by
  cases result : v.unary operator with
  | ok w => exact Value.plain_unary result
  | error cause =>
    unfold Value.unary at result
    split at result
    · cases result
    · cases result
      exact ⟨not_false, nofun⟩
    · cases result
    · cases result
      exact ⟨not_false, nofun⟩

theorem Value.ofOperator_binary (operator : Token) (v w : Value) :
    OfOperator (v.binary operator w) := by
  cases result : v.binary operator w with
  | ok u => exact Value.plain_binary result
  | error cause =>
    unfold Value.binary Value.add Value.arithmetic at result
    split at result
    · split at result
      · cases result
      · cases result
      · cases result
        exact ⟨not_false, nofun⟩
    · cases result
    · cases result
    · split at result
      · split at result <;> first | (cases result; done) | (cases result; exact ⟨not_false, nofun⟩)
      · cases result
        exact ⟨not_false, nofun⟩

theorem Value.ofOperator_step (operator : Token) (v : Value) : OfOperator (v.step operator) := by
  cases result : v.step operator with
  | ok w => exact Value.plain_step result
  | error cause =>
    unfold Value.step at result
    split at result
    · cases result
    · cases result
      exact ⟨not_false, nofun⟩

theorem Value.Plain.fits {v : Value} (plain : v.Plain) (W : Usage) (s : Store) : v.Fits W s := by
  cases v with
  | closure c => exact absurd rfl (plain c)
  | nil | bool | num | str | native => trivial

/-! ## Rules -/

section
variable {α β : Type} {W : Usage} {s s' : Store} {P Q : Store → α → Prop}

/-- From a machine a run went on to a store that has grown and still fits, with a result as wanted, or
with an end that is to be expected. -/
def SafeFrom (W : Usage) (m : Machine) (P : Store → α → Prop) :
    EStateM.Result Stop Machine α → Prop
  | .ok a m' => m.store.Grown m'.store ∧ m'.store.Fits W ∧ P m'.store a
  | .error stop m' => m.store.Grown m'.store ∧ m'.store.Fits W ∧ stop.Expected W

/-- In all stores that fit and have grown from a given one, a run is safe and its result is as
wanted. -/
def Safe (W : Usage) (s : Store) (P : Store → α → Prop) (run : Running α) : Prop :=
  ∀ m : Machine, s.Grown m.store → m.store.Fits W → SafeFrom W m P (run m)

theorem safe_pure {a : α} (wanted : ∀ s', s.Grown s' → P s' a) : Safe W s P (pure a) :=
  fun _ grown fits => ⟨.refl _, fits, wanted _ grown⟩

theorem safe_throw {stop : Stop} (expected : stop.Expected W) :
    Safe W s P (throw stop : Running α) := fun _ _ fits => ⟨.refl _, fits, expected⟩

theorem safe_outOfFuel : Safe W s P (throw .outOfFuel : Running α) := safe_throw trivial

theorem safe_fail {cause : RuntimeError.Cause} (ofValues : cause.OfValues) (line : Option Int) :
    Safe W s P (Running.fail cause line : Running α) := safe_throw (ofValues.expected line)

theorem Safe.bind {Q : Store → β → Prop} {run : Running α} {f : α → Running β}
    (first : Safe W s P run) (second : ∀ s' a, s.Grown s' → P s' a → Safe W s' Q (f a)) :
    Safe W s Q (run >>= f) := by
  intro m grown fits
  have ends := first m grown fits
  cases ran : run m with
  | ok a m' =>
    rw [ran] at ends
    obtain ⟨further, fits', wanted⟩ := ends
    rw [run_bind_of_ok ran]
    have later := second m'.store a (grown.trans further) wanted m' (.refl _) fits'
    cases ranLater : f a m' with
    | ok b m'' =>
      rw [ranLater] at later
      exact ⟨further.trans later.1, later.2⟩
    | error stop m'' =>
      rw [ranLater] at later
      exact ⟨further.trans later.1, later.2⟩
  | error stop m' =>
    rw [ran] at ends
    rw [run_bind_of_error ran]
    exact ends

theorem Safe.weaken {run : Running α} (safe : Safe W s P run)
    (imp : ∀ s' a, s.Grown s' → P s' a → Q s' a) : Safe W s Q run := by
  intro m grown fits
  have ends := safe m grown fits
  cases ran : run m with
  | ok a m' =>
    rw [ran] at ends
    obtain ⟨further, fits', wanted⟩ := ends
    exact ⟨further, fits', imp _ a (grown.trans further) wanted⟩
  | error stop m' =>
    rw [ran] at ends
    exact ends

theorem Safe.inCall {run : Running α} (safe : Safe W s P run) (step : CallStep) :
    Safe W s P (Running.inCall step run) := by
  intro m grown fits
  have ends := safe m grown fits
  unfold Running.inCall EStateM.adaptExcept
  cases ran : run m with
  | ok a m' =>
    rw [ran] at ends
    exact ends
  | error stop m' =>
    rw [ran] at ends
    obtain ⟨further, fits', expected⟩ := ends
    exact ⟨further, fits', expected.inCall step⟩

theorem safe_ofResult {result : Except RuntimeError.Cause Value} (ofOperator : OfOperator result)
    (line : Int) :
    Safe W s (fun s' v => v.Fits W s') (Running.ofResult line result) := by
  cases result with
  | ok v => exact safe_pure fun s' _ => ofOperator.fits W s'
  | error cause => exact safe_fail ofOperator (some line)

theorem safe_checkArity (arity? : Option Nat) (count : Nat) (line : Int) :
    Safe W s (fun _ _ => ∀ arity, arity? = some arity → count = arity)
      (Running.checkArity arity? count line : Running Unit) := by
  cases arity? with
  | none =>
    refine safe_pure fun _ _ arity isArity => ?_
    cases isArity
  | some arity =>
    unfold Running.checkArity
    by_cases same : count = arity
    · simp only [same, if_true]
      exact safe_pure fun _ _ _ isArity => Option.some.inj isArity
    · simp only [same, if_false]
      exact safe_fail (by exact ⟨not_false, nofun⟩) (some line)

/-! ## Steps of a machine -/

/-- A step that leaves the store as it is. -/
theorem safe_modify {f : Machine → Machine} (same : ∀ m, (f m).store = m.store) :
    Safe W s (fun _ _ => True) (modify f : Running Unit) := by
  intro m _ fits
  show SafeFrom W m _ (.ok () (f m))
  refine ⟨?_, ?_, trivial⟩
  · rw [same m]
    exact .refl _
  · rw [same m]
    exact fits

theorem safe_get {f : Machine → Running α} (each : ∀ m, s.Grown m.store → m.store.Fits W →
    Safe W m.store P (f m)) : Safe W s P (get >>= f) := by
  intro m grown fits
  have got : (get : Running Machine) m = .ok m m := rfl
  rw [run_bind_of_ok got]
  exact each m grown fits m (.refl _) fits

theorem safe_note (e : Event) : Safe W s (fun _ _ => True) (Running.note e) :=
  safe_modify fun _ => rfl

/-- A value that fits, if only since a variable has it, is given to the variable. -/
theorem safe_bind {r : Ref} {name : String} {v : Value} {P : Store → Unit → Prop}
    (value : ∀ s', s.Grown s' → v.Fits W (s'.bind r name v))
    (wanted : ∀ s', s.Grown s' → P (s'.bind r name v) ()) :
    Safe W s P (Running.modifyStore (·.bind r name v)) :=
  fun m grown fits => ⟨m.store.grown_bind r name v, fits.bind (value _ grown), wanted _ grown⟩

/-! ### Finding and changing variables -/

section
variable {env : Env} {known : Names} {id : Nat} {name : Token}

theorem expected_undefined (used : W.uses id name) (noDistance : W.table[id]? = none) :
    (Missing.stop (some name.line) (.undefined name.lexeme)).Expected W :=
  ⟨not_false, fun _ _ => ⟨id, name, used, noDistance, rfl, rfl⟩⟩

theorem expected_uninitialized (notClaimed : ¬ W.definite) (line : Option Int) (name : String) :
    (Missing.stop line (.uninitialized name)).Expected W :=
  ⟨not_false, fun isDefinite => absurd isDefinite notClaimed⟩

/-- The frame at the distance of a use has its variable, if that is claimed. -/
theorem Usage.Binds.frameAt (binds : W.Binds known id name) (knows : env.Knows W.definite s known)
    {distance : Nat} (isDistance : W.table[id]? = some distance) :
    ∃ r, env.frameAt distance = .ok r ∧
      (W.definite → ((s.bindings r)[name.lexeme]?).isSome) := by
  obtain ⟨names, isKnown, member⟩ := binds.bound distance isDistance
  obtain ⟨r, isFrame, has⟩ := knows.frameAt isKnown
  exact ⟨r, isFrame, fun isDefinite => has.bound isDefinite _ (member isDefinite)⟩

theorem safe_lookUp (binds : W.Binds known id name) (knows : env.Knows W.definite s known) :
    Safe W s (fun s' v => v.Fits W s') (Running.lookUp (.distances W.table) env id name) := by
  refine safe_get fun m grown fits => ?_
  dsimp only
  cases isDistance : W.table[id]? with
  | none =>
    dsimp only
    rw [Store.get]
    cases found : Env.global.chain.findSome? fun r => (m.store.bindings r)[name.lexeme]? with
    | none => exact safe_throw (expected_undefined binds.used isDistance)
    | some v =>
      obtain ⟨r, _, isValue⟩ := List.exists_of_findSome?_eq_some found
      exact safe_pure fun s' later => (fits.values isValue).grown later
  | some distance =>
    obtain ⟨r, isFrame, bound⟩ := binds.frameAt (knows.grown grown) isDistance
    dsimp only
    cases found : (m.store.bindings r)[name.lexeme]? with
    | none =>
      have missing : m.store.getAt env distance name.lexeme =
          .error (.uninitialized name.lexeme) := by
        simp only [Store.getAt, isFrame, bind, Except.bind, found]
      have notClaimed : ¬ W.definite := fun isDefinite => by
        have isSome := bound isDefinite
        rw [found] at isSome
        cases isSome
      rw [missing]
      exact safe_throw (expected_uninitialized notClaimed _ _)
    | some v =>
      have isValue : m.store.getAt env distance name.lexeme = .ok v := by
        simp only [Store.getAt, isFrame, bind, Except.bind, found]
        rfl
      rw [isValue]
      exact safe_pure fun s' later => (fits.values found).grown later

theorem safe_ownerOf (binds : W.Binds known id name) (knows : env.Knows W.definite s known) :
    Safe W s (fun _ _ => True) (Running.ownerOf (.distances W.table) env id name) := by
  refine safe_get fun m grown fits => ?_
  dsimp only
  cases isDistance : W.table[id]? with
  | none =>
    dsimp only
    rw [Store.owner]
    split
    · exact safe_pure fun _ _ => trivial
    · exact safe_throw (expected_undefined binds.used isDistance)
  | some distance =>
    obtain ⟨r, isFrame, bound⟩ := binds.frameAt (knows.grown grown) isDistance
    dsimp only
    rw [Store.ownerAt, isFrame]
    show Safe W m.store _ (Running.ofFound name (if (m.store.bindings r).contains name.lexeme
      then .ok r else .error (.uninitialized name.lexeme)))
    rw [Std.TreeMap.contains_eq_isSome_getElem?]
    split
    · exact safe_pure fun _ _ => trivial
    · next missing =>
      exact safe_throw (expected_uninitialized (fun isDefinite => missing (bound isDefinite)) _ _)

theorem safe_assign (binds : W.Binds known id name) (knows : env.Knows W.definite s known)
    {v : Value} (value : v.Fits W s) :
    Safe W s (fun _ _ => True) (Running.assign (.distances W.table) env id name v) := by
  refine (safe_ownerOf binds knows).bind fun s' r grown _ => ?_
  refine safe_bind (fun s'' later => ?_) fun _ _ => trivial
  exact (value.grown (grown.trans later)).grown (s''.grown_bind r name.lexeme v)

/-- A value that fits, if only since a variable has it, is declared, and the variable is known. -/
theorem safe_define (knows : env.Knows W.definite s known) {v : Value}
    (value : ∀ s', s.Grown s' → v.Fits W (s'.define env name.lexeme v)) :
    Safe W s (fun s' _ => env.Knows W.definite s' (known.declare name))
      (Running.define env name v) := by
  have declared : Safe W s (fun s' _ => env.Knows W.definite s' (known.declare name))
      (Running.modifyStore (·.define env name.lexeme v)) :=
    safe_bind value fun s' later => (knows.grown later).declare name v
  exact declared.bind fun s' _ _ knows =>
    (safe_note _).weaken fun _ _ later _ => knows.grown later

end

/-! ### Frames and functions -/

section
variable {env : Env} {known : Names}

theorem safe_newFrame (knows : env.Knows W.definite s known) :
    Safe W s (fun s' inner => inner.Knows W.definite s' ([] :: known))
      (Running.newFrame env.chain) :=
  fun m grown fits => ⟨m.store.grown_grow, fits.grow, (knows.grown grown).enter⟩

/-- A function is made of a function literal in an environment. -/
theorem safe_close (env : Env) (keyword : Token) (params : List Token) (body : List Stmt)
    (name : Option Token) :
    Safe W s (fun _ v => ∃ identity, v = .closure ⟨identity, keyword, params, body, name, env⟩)
      (Running.close env keyword params body name) := by
  refine safe_get fun m _ _ => ?_
  have counted : Safe W m.store (fun _ _ => True)
      (modify fun m => { m with closures := m.closures + 1 } : Running Unit) :=
    safe_modify fun _ => rfl
  exact counted.bind fun _ _ _ _ => safe_pure fun _ _ => ⟨m.closures, rfl⟩

/-- The frame of a call has the parameters, if there is an argument for each. -/
theorem safe_bindArguments {c : Closure} (knows : c.env.Knows W.definite s known)
    {vs : List Value} (values : ∀ v ∈ vs, v.Fits W s) (count : W.definite → vs.length = c.arity) :
    Safe W s (fun s' env => env.Knows W.definite s' (c.params.map (·.lexeme) :: known))
      (Running.bindArguments c vs) := by
  refine (safe_newFrame knows).bind fun s' env grown inner => ?_
  have defined : Safe W s' (fun s'' _ => env.Knows W.definite s'' (c.params.map (·.lexeme) :: known))
      (Running.modifyStore (·.defineAll env ((c.params.map (·.lexeme)).zip vs))) := by
    intro m later fits
    have arguments : ∀ v ∈ vs, v.Fits W m.store :=
      fun v member => (values v member).grown (grown.trans later)
    have counted : W.definite → vs.length = (c.params.map (·.lexeme)).length :=
      fun isDefinite => by rw [List.length_map]; exact count isDefinite
    obtain ⟨fits', further, knows'⟩ := fits.defineParameters (inner.grown later) arguments counted
    exact ⟨further, fits', knows'⟩
  exact defined.bind fun _ _ _ knows => safe_pure fun _ later => knows.grown later

theorem safe_modifyConsole (f : Console → Console) :
    Safe W s (fun _ _ => True) (Running.modifyConsole f) :=
  safe_modify fun _ => rfl

theorem safe_writeLine (text : String) : Safe W s (fun _ _ => True) (Running.writeLine text) := by
  refine safe_get fun m _ _ => ?_
  split
  · exact safe_modifyConsole _
  · exact safe_fail (by exact ⟨not_false, nofun⟩) none

theorem safe_readLine : Safe W s (fun _ _ => True) Running.readLine := by
  refine safe_get fun m _ _ => ?_
  dsimp only
  split
  · exact safe_fail (by exact ⟨not_false, nofun⟩) none
  · cases m.console.unread with
    | nil => exact safe_pure fun _ _ => trivial
    | cons line rest =>
      exact (safe_modifyConsole _).bind fun _ _ _ _ => safe_pure fun _ _ => trivial

theorem safe_callNative (f : Native) (vs : List Value) :
    Safe W s (fun s' v => v.Fits W s') (Running.callNative f vs) := by
  cases f with
  | clock =>
    have read : Safe W s (fun _ _ => True) Running.readClock :=
      safe_get fun m _ _ => (safe_modifyConsole _).bind fun _ _ _ _ => safe_pure fun _ _ => trivial
    exact read.bind fun _ _ _ _ => safe_pure fun _ _ => trivial
  | print => exact (safe_writeLine _).bind fun _ _ _ _ => safe_pure fun _ _ => trivial
  | input =>
    refine safe_readLine.bind fun _ line _ _ => ?_
    cases line with
    | none => exact safe_pure fun _ _ => trivial
    | some line => exact safe_pure fun _ _ => trivial

end

/-! ## Runs of trees -/

/-- A statement ends as its place allows. -/
def Completion.Fits (W : Usage) (inLoop inFunction : Prop) (s : Store) : Completion → Prop
  | .finished => True
  | .broken | .continued => inLoop
  | .returned v => inFunction ∧ v.Fits W s

theorem Completion.Fits.grown {inLoop inFunction : Prop} {c : Completion}
    (fits : c.Fits W inLoop inFunction s) (grown : s.Grown s') : c.Fits W inLoop inFunction s' := by
  cases c with
  | returned v => exact ⟨fits.1, fits.2.grown grown⟩
  | finished | broken | continued => exact fits

/-- What fits outside of loops and functions ends normally. -/
theorem Completion.Fits.eq_finished {c : Completion}
    (fits : c.Fits W False False s) : c = .finished := by
  cases c with
  | finished => rfl
  | broken | continued => exact fits.elim
  | returned v => exact fits.1.elim

/-- What ends outside of all loops ends as it may inside of one. -/
theorem Completion.Fits.inLoop {inLoop inFunction : Prop} {c : Completion}
    (fits : c.Fits W False inFunction s) : c.Fits W inLoop inFunction s := by
  cases c with
  | finished | returned => exact fits
  | broken | continued => exact fits.elim

/-- A statement has ended as its place allows; if it has ended normally, more names may be known. -/
structure Ended (W : Usage) (env : Env) (known : Names) (inLoop inFunction : Prop) (s : Store)
    (c : Completion) : Prop where
  fits : c.Fits W inLoop inFunction s
  knows : c = .finished → env.Knows W.definite s known

/-- With the distances of a usage, trees that fit are run safely. -/
structure SafeAt (W : Usage) (n : Nat) : Prop where
  exec : ∀ {s env known inLoop inFunction} {t : Stmt}, env.Knows W.definite s known →
    t.Fits W known inLoop inFunction →
    Safe W s (Ended W env (t.learn known) inLoop inFunction)
      (exec (Access.distances W.table).steps n env t)
  rounds : ∀ {s env known inFunction condition body increment}, env.Knows W.definite s known →
    condition.Fits W known → body.Fits W known True inFunction → Expr.OptionFits W known increment →
    Safe W s (fun s' c => c.Fits W False inFunction s')
      (rounds (Access.distances W.table).steps n env condition body increment)
  eval : ∀ {s env known} {e : Expr}, env.Knows W.definite s known → e.Fits W known →
    Safe W s (fun s' v => v.Fits W s') (eval (Access.distances W.table).steps n env e)
  call : ∀ {s f vs line}, f.Fits W s → (∀ v ∈ vs, v.Fits W s) →
    Safe W s (fun s' v => v.Fits W s') (call (Access.distances W.table).steps n f vs line)
  enter : ∀ {s c vs}, c.Fits W s → (∀ v ∈ vs, v.Fits W s) → (W.definite → vs.length = c.arity) →
    Safe W s (fun s' v => v.Fits W s') (enter (Access.distances W.table).steps n c vs)

/-- Statements that fit one after the other end as their place allows. -/
theorem safe_inOrder {run : Stmt → Running Completion} {env : Env} {inLoop inFunction : Prop}
    (each : ∀ {s known t}, env.Knows W.definite s known → t.Fits W known inLoop inFunction →
      Safe W s (Ended W env (t.learn known) inLoop inFunction) (run t)) :
    ∀ {ss : List Stmt} {s : Store} {known : Names}, env.Knows W.definite s known →
      Stmt.AllFits W known inLoop inFunction ss →
      Safe W s (fun s' c => c.Fits W inLoop inFunction s') (Running.inOrder run ss) := by
  intro ss
  induction ss with
  | nil => exact fun _ _ => safe_pure fun _ _ => trivial
  | cons t rest ih =>
    intro s known knows fits
    refine (each knows fits.1).bind fun s' c grown ended => ?_
    cases c with
    | finished => exact ih (ended.knows rfl) fits.2
    | broken | continued | returned => exact safe_pure fun _ later => ended.fits.grown later

/-- The values of arguments that fit do so after all of them are evaluated. -/
theorem safe_mapM {run : Expr → Running Value} {env : Env} {known : Names}
    (each : ∀ {s e}, env.Knows W.definite s known → e.Fits W known →
      Safe W s (fun s' v => v.Fits W s') (run e)) :
    ∀ {es : List Expr} {s : Store}, env.Knows W.definite s known → Expr.AllFits W known es →
      Safe W s (fun s' vs => ∀ v ∈ vs, v.Fits W s') (es.mapM run) := by
  intro es
  induction es with
  | nil => exact fun _ _ => safe_pure fun _ _ _ member => absurd member List.not_mem_nil
  | cons e rest ih =>
    intro s knows fits
    rw [List.mapM_cons]
    refine (each knows fits.1).bind fun s' v grown value => ?_
    refine (ih (knows.grown grown) fits.2).bind fun s'' vs further values => ?_
    refine safe_pure fun _ later => List.forall_mem_cons.2 ⟨?_, fun v member => ?_⟩
    · exact value.grown (further.trans later)
    · exact (values v member).grown later

section
variable {n : Nat} {env : Env} {known : Names}

/-- A declared function fits since its variable has it, so that it can call itself. -/
private theorem safe_declareFunction (knows : env.Knows W.definite s known) {name : Token} {id : Nat}
    {keyword : Token} {params : List Token} {body : List Stmt} {title : Option Token}
    (fits : Stmt.AllFits W (params.map (·.lexeme) :: known.declare name) False True body) :
    Safe W s (fun s' _ => env.Knows W.definite s' (known.declare name)) (do
      let v ← eval (Access.distances W.table).steps n env (.lambda id keyword params body title)
      Running.define env name v) := by
  have made : Safe W s
      (fun _ v => ∃ identity, v = .closure ⟨identity, keyword, params, body, title, env⟩)
      (eval (Access.distances W.table).steps n env (.lambda id keyword params body title)) := by
    cases n with
    | zero => exact safe_outOfFuel
    | succ n => exact safe_close env keyword params body title
  refine made.bind fun s' v grown isClosure => ?_
  obtain ⟨identity, rfl⟩ := isClosure
  -- What is known is taken from the store in which the variable already has the function.
  refine safe_define (knows.grown grown) fun s'' later => ?_
  exact ⟨_, (knows.grown (grown.trans later)).declare name _, fits⟩

variable (below : SafeAt W n)
include below

private theorem safe_declaration (knows : env.Knows W.definite s known) {name : Token} {e : Expr}
    (fits : e.Fits W (known.inside name e)) :
    Safe W s (fun s' _ => env.Knows W.definite s' (known.declare name)) (do
      let v ← eval (Access.distances W.table).steps n env e
      Running.define env name v) := by
  have ofValue (fits : e.Fits W known) :
      Safe W s (fun s' _ => env.Knows W.definite s' (known.declare name)) (do
        let v ← eval (Access.distances W.table).steps n env e
        Running.define env name v) :=
    (below.eval knows fits).bind fun s' v grown value =>
      safe_define (knows.grown grown) fun s'' later =>
        (value.grown later).grown (s''.grown_bind env.frame name.lexeme v)
  cases e with
  | lambda id keyword params body title => exact safe_declareFunction knows fits
  | _ => exact ofValue fits

private theorem safe_exec {inLoop inFunction : Prop} {t : Stmt}
    (knows : env.Knows W.definite s known) (fits : t.Fits W known inLoop inFunction) :
    Safe W s (Ended W env (t.learn known) inLoop inFunction)
      (exec (Access.distances W.table).steps (n + 1) env t) := by
  have unchanged {s' : Store} {c : Completion} (grown : s.Grown s')
      (fits : c.Fits W inLoop inFunction s') : Ended W env known inLoop inFunction s' c :=
    ⟨fits, fun _ => knows.grown grown⟩
  cases t with
  | expression e =>
    exact (below.eval knows fits).bind fun _ _ grown _ =>
      safe_pure fun _ later => unchanged (grown.trans later) trivial
  | declaration name initializer =>
    have ended {s' : Store} (knows : env.Knows W.definite s' (known.declare name)) :
        Safe W s' (Ended W env (known.declare name) inLoop inFunction)
          (pure .finished : Running Completion) :=
      safe_pure fun _ later => ⟨trivial, fun _ => knows.grown later⟩
    cases initializer with
    | none =>
      have declared : Safe W s (fun s' _ => env.Knows W.definite s' (known.declare name))
          (Running.define env name .nil) := safe_define knows fun _ _ => trivial
      exact declared.bind fun _ _ _ knows => ended knows
    | some e =>
      have declared := (safe_declaration below knows fits).bind fun _ _ _ knows => ended knows
      rw [bind_assoc] at declared
      exact declared
  | block statements =>
    refine (safe_newFrame knows).bind fun s' inner grown inside => ?_
    refine (safe_inOrder below.exec inside fits).weaken fun s'' c later fits => ?_
    exact unchanged (grown.trans later) fits
  | ifElse condition thenBranch elseBranch =>
    obtain ⟨test, branch, other⟩ := fits
    refine (below.eval knows test).bind fun s' v grown _ => ?_
    refine (safe_note _).bind fun s'' _ grown' _ => ?_
    have grown := grown.trans grown'
    cases v.truthy with
    | true =>
      refine (below.exec (knows.grown grown) branch).weaken fun _ c later ended => ?_
      exact unchanged (grown.trans later) ended.fits
    | false =>
      cases elseBranch with
      | none => exact safe_pure fun _ later => unchanged (grown.trans later) trivial
      | some branch =>
        refine (below.exec (knows.grown grown) other).weaken fun _ c later ended => ?_
        exact unchanged (grown.trans later) ended.fits
  | whileLoop condition body increment =>
    obtain ⟨test, round, onward⟩ := fits
    refine (below.rounds knows test round onward).weaken fun s' c grown fits => ?_
    exact unchanged grown fits.inLoop
  | breakLoop keyword => exact safe_pure fun _ grown => unchanged grown fits
  | continueLoop keyword => exact safe_pure fun _ grown => unchanged grown fits
  | returnValue keyword value =>
    obtain ⟨isFunction, fits⟩ := fits
    cases value with
    | none => exact safe_pure fun _ grown => unchanged grown ⟨isFunction, trivial⟩
    | some e =>
      refine (below.eval knows fits).bind fun s' v grown value => ?_
      exact safe_pure fun _ later => unchanged (grown.trans later) ⟨isFunction, value.grown later⟩
  | misplaced kind => exact fits.elim

private theorem safe_rounds {inFunction : Prop} {condition : Expr} {body : Stmt}
    {increment : Option Expr} (knows : env.Knows W.definite s known) (test : condition.Fits W known)
    (round : body.Fits W known True inFunction) (onward : Expr.OptionFits W known increment) :
    Safe W s (fun s' c => c.Fits W False inFunction s')
      (rounds (Access.distances W.table).steps (n + 1) env condition body increment) := by
  refine (below.eval knows test).bind fun s' v grown _ => ?_
  have knows := knows.grown grown
  cases v.truthy with
  | false => exact safe_pure fun _ _ => trivial
  | true =>
    refine (below.exec knows round).bind fun s'' c grown' ended => ?_
    have knows := knows.grown grown'
    -- The loop takes what is meant for it, and hands a returned value on.
    cases c with
    | broken => exact safe_pure fun _ _ => trivial
    | returned v => exact safe_pure fun _ later => ended.fits.grown later
    | finished | continued =>
      cases increment with
      | none => exact below.rounds knows test round onward
      | some e =>
        exact (below.eval knows onward).bind fun _ _ grown _ =>
          below.rounds (knows.grown grown) test round onward

private theorem safe_eval {e : Expr} (knows : env.Knows W.definite s known)
    (fits : e.Fits W known) :
    Safe W s (fun s' v => v.Fits W s')
      (eval (Access.distances W.table).steps (n + 1) env e) := by
  cases e with
  | literal id value => exact safe_pure fun _ _ => Value.fits_ofLiteral value
  | grouping id inner => exact below.eval knows fits
  | unary id operator right =>
    have fits : right.Fits W known := fits
    exact (below.eval knows fits).bind fun _ v _ _ =>
      safe_ofResult (Value.ofOperator_unary operator v) operator.line
  | binary id left operator right =>
    refine (below.eval knows fits.1).bind fun _ v grown _ => ?_
    refine (below.eval (knows.grown grown) fits.2).bind fun _ w _ _ => ?_
    exact safe_ofResult (Value.ofOperator_binary operator v w) operator.line
  | logical id left operator right =>
    refine (below.eval knows fits.1).bind fun s' v grown value => ?_
    cases v.settles operator with
    | true => exact safe_pure fun _ later => value.grown later
    | false => exact below.eval (knows.grown grown) fits.2
  | step id left operator =>
    cases left with
    | reference id name =>
      refine (safe_lookUp fits knows).bind fun s' v grown _ => ?_
      refine (safe_ofResult (Value.ofOperator_step operator v) operator.line).bind
        fun s'' w grown' value => ?_
      refine (safe_assign fits (knows.grown (grown.trans grown')) value).bind
        fun _ _ grown'' _ => ?_
      exact safe_pure fun _ later => value.grown (grown''.trans later)
    | _ => exact safe_fail (by exact ⟨not_false, nofun⟩) _
  | reference id name => exact safe_lookUp fits knows
  | assignment id name value =>
    refine (below.eval knows fits.1).bind fun s' v grown value => ?_
    refine (safe_assign fits.2 (knows.grown grown) value).bind fun s'' _ grown' _ => ?_
    exact safe_pure fun _ later => value.grown (grown'.trans later)
  | call id callee arguments paren =>
    refine (below.eval knows fits.1).bind fun s' f grown function => ?_
    refine (safe_mapM below.eval (knows.grown grown) fits.2).bind fun s'' vs grown' values => ?_
    exact below.call (function.grown grown') values
  | lambda id keyword params body title =>
    refine (safe_close env keyword params body title).weaken fun s' v grown isClosure => ?_
    obtain ⟨identity, rfl⟩ := isClosure
    exact ⟨known, knows.grown grown, fits⟩
  | misplaced kind => exact fits.elim

private theorem safe_call {f : Value} {vs : List Value} {line : Int} (function : f.Fits W s)
    (values : ∀ v ∈ vs, v.Fits W s) :
    Safe W s (fun s' v => v.Fits W s')
      (call (Access.distances W.table).steps (n + 1) f vs line) := by
  cases f with
  | closure c =>
    refine (safe_checkArity (some c.arity) vs.length line).bind fun s' _ grown count => ?_
    refine (safe_note _).bind fun s'' _ grown' _ => ?_
    have grown := grown.trans grown'
    have values : ∀ v ∈ vs, v.Fits W s'' := fun v member => (values v member).grown grown
    exact (below.enter (function.grown grown) values fun _ => count _ rfl).inCall (.line line)
  | native f =>
    refine (safe_checkArity f.arity? vs.length line).bind fun s' _ _ _ => ?_
    refine (safe_note _).bind fun s'' _ _ _ => ?_
    exact (safe_callNative f vs).inCall (.line line)
  | nil | bool | num | str => exact safe_fail (by exact ⟨not_false, nofun⟩) _

private theorem safe_enter {c : Closure} {vs : List Value} (function : c.Fits W s)
    (values : ∀ v ∈ vs, v.Fits W s) (count : W.definite → vs.length = c.arity) :
    Safe W s (fun s' v => v.Fits W s')
      (enter (Access.distances W.table).steps (n + 1) c vs) := by
  obtain ⟨known, knows, body⟩ := function
  refine (safe_bindArguments knows values count).bind fun s' env grown inside => ?_
  refine Safe.inCall ?_ _
  refine (safe_inOrder below.exec inside body).bind fun s'' ended grown' fits => ?_
  cases ended with
  | finished => exact safe_pure fun _ _ => trivial
  | returned v => exact safe_pure fun _ later => fits.2.grown later
  | broken | continued => exact fits.elim

end

theorem safeAt (W : Usage) (n : Nat) : SafeAt W n := by
  induction n with
  | zero => constructor <;> intros <;> exact safe_outOfFuel
  | succ n ih =>
    exact ⟨safe_exec ih, safe_rounds ih, safe_eval ih, safe_call ih, safe_enter ih⟩

/-- A program that fits the global frame is run safely. -/
theorem safe_interpret (fuel : Nat) {p : Program} :
    ∀ {s : Store}, 0 < s.frames.size → Stmt.AllFits W [] False False p →
      Safe W s (fun _ _ => True) (interpret (Access.distances W.table).steps fuel p) := by
  induction p with
  | nil => exact fun _ _ => safe_pure fun _ _ => trivial
  | cons t rest ih =>
    intro s root fits
    have first : Safe W s (fun _ _ => True) (do
        Running.expectFinished (← exec (Access.distances W.table).steps fuel .global t)) := by
      refine ((safeAt W fuel).exec (Env.Knows.global root) fits.1).bind fun s' c grown ended => ?_
      rw [ended.fits.eq_finished]
      exact safe_pure fun _ _ => trivial
    have others : Stmt.AllFits W [] False False rest := by
      rw [← Stmt.learn_nil t]
      exact fits.2
    exact first.bind fun s' _ grown _ => ih (Nat.lt_of_lt_of_le root grown.size) others

end

end Lox
