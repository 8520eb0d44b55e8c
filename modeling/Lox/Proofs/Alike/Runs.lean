import Lox.Proofs.Alike.Values
import Lox.Run.Eval

/-!
# Runs of alike trees

Alike trees run alike on any two states whose steps keep a relation between them. What the steps
have to keep is an `Agreement`; the rest is an induction on the fuel.
-/

namespace Lox

variable {μ σ σ' α α' β β' : Type}

/-! ## Runs that keep a relation -/

/-- Two runs end in the same way, in related states. Frames may have been added. -/
inductive ResultsAlike (L : Likeness μ) (R : List μ → σ → σ' → Prop) (P : List μ → α → α' → Prop)
    (marks : List μ) : EStateM.Result Stop σ α → EStateM.Result Stop σ' α' → Prop
  | ok {a : α} {a' : α'} {m : σ} {m' : σ'} (marks' : List μ) (further : marks <+: marks')
      (states : R marks' m m') (values : P marks' a a') :
      ResultsAlike L R P marks (.ok a m) (.ok a' m')
  | error {e e' : Stop} {m : σ} {m' : σ'} (marks' : List μ) (further : marks <+: marks')
      (states : R marks' m m') (stops : e.Alike L e') :
      ResultsAlike L R P marks (.error e m) (.error e' m')

/-- Two runs from related states end in the same way, in related states. -/
def RunsAlike (L : Likeness μ) (R : List μ → σ → σ' → Prop) (P : List μ → α → α' → Prop)
    (marks : List μ) (run : RunningOn σ α) (run' : RunningOn σ' α') : Prop :=
  ∀ m m', R marks m m' → ResultsAlike L R P marks (run m) (run' m')

variable {L : Likeness μ} {R : List μ → σ → σ' → Prop} {marks marks' : List μ}

section Rules
variable {P : List μ → α → α' → Prop} {Q : List μ → β → β' → Prop}

theorem ResultsAlike.earlier {result : EStateM.Result Stop σ α}
    {result' : EStateM.Result Stop σ' α'} (further : marks <+: marks')
    (alike : ResultsAlike L R P marks' result result') : ResultsAlike L R P marks result result' := by
  cases alike with
  | ok marks'' further' states values => exact .ok marks'' (further.trans further') states values
  | error marks'' further' states stops =>
    exact .error marks'' (further.trans further') states stops

theorem runs_pure {a : α} {a' : α'} (values : P marks a a') :
    RunsAlike L R P marks (pure a) (pure a') :=
  fun _ _ states => .ok marks List.prefix_rfl states values

theorem runs_throw {e e' : Stop} (stops : e.Alike L e') :
    RunsAlike L R P marks (throw e) (throw e') :=
  fun _ _ states => .error marks List.prefix_rfl states stops

theorem runs_fail (cause : RuntimeError.Cause) {line line' : Option Int}
    (lines : Option.Rel L.lines line line') :
    RunsAlike L R P marks (Running.fail cause line) (Running.fail cause line') :=
  runs_throw (.error ⟨.same cause, lines, .nil⟩)

theorem RunsAlike.bind {run : RunningOn σ α} {run' : RunningOn σ' α'} {f : α → RunningOn σ β}
    {f' : α' → RunningOn σ' β'} (first : RunsAlike L R P marks run run')
    (second : ∀ marks', marks <+: marks' → ∀ a a', P marks' a a' →
      RunsAlike L R Q marks' (f a) (f' a')) :
    RunsAlike L R Q marks (run >>= f) (run' >>= f') := by
  intro m m' states
  have alike := first m m' states
  show ResultsAlike L R Q marks (EStateM.bind run f m) (EStateM.bind run' f' m')
  unfold EStateM.bind
  revert alike
  generalize run m = result
  generalize run' m' = result'
  intro alike
  cases alike with
  | ok marks' further states values =>
    exact (second marks' further _ _ values _ _ states).earlier further
  | error marks' further states stops => exact .error marks' further states stops

theorem RunsAlike.inCall {step step' : CallStep} (steps : step.Alike L step')
    {run : RunningOn σ α} {run' : RunningOn σ' α'} (alike : RunsAlike L R P marks run run') :
    RunsAlike L R P marks (Running.inCall step run) (Running.inCall step' run') := by
  intro m m' states
  have alike := alike m m' states
  show ResultsAlike L R P marks (EStateM.adaptExcept _ run m) (EStateM.adaptExcept _ run' m')
  unfold EStateM.adaptExcept
  revert alike
  generalize run m = result
  generalize run' m' = result'
  intro alike
  cases alike with
  | ok marks' further states values => exact .ok marks' further states values
  | error marks' further states stops =>
    exact .error marks' further states (stops.inCall steps)

end Rules

/-! ## What steps have to keep -/

/-- Two events on values of the runs are alike. -/
inductive Event.Alike (L : Likeness μ) (marks : List μ) : Event → Event → Prop
  | condition {v v' : Value} (values : v.Alike L marks v') :
      Event.Alike L marks (.condition v) (.condition v')
  | called {f f' : Value} (functions : f.Alike L marks f') (count : Nat) :
      Event.Alike L marks (.called f count) (.called f' count)

theorem Event.Alike.eq (enters : ∀ {around : List μ} {node node' : ScopeNode} {mark : μ},
    L.enters around node node' mark → node' = node) {e e' : Event} (alike : e.Alike L marks e') :
    e' = e := by
  cases alike with
  | condition values => rw [values.eq enters]
  | called functions => rw [functions.eq enters]

/-- The steps of two runs keep a relation between their states, on parts of alike trees. -/
structure Agreement (L : Likeness μ) (R : List μ → σ → σ' → Prop) (steps : Steps σ)
    (steps' : Steps σ') : Prop where
  lookUp : ∀ {marks around env id id' name name'}, Env.Marked marks env around →
    L.uses around id name id' name' →
    RunsAlike L R (Value.Alike L) marks (steps.lookUp env id name) (steps'.lookUp env id' name')
  assign : ∀ {marks around env id id' name name' v v'}, Env.Marked marks env around →
    L.uses around id name id' name' → Value.Alike L marks v v' →
    RunsAlike L R (fun _ _ _ => True) marks (steps.assign env id name v)
      (steps'.assign env id' name' v')
  define : ∀ {marks around env name name' v v'}, Env.Marked marks env around →
    L.names around name name' → Value.Alike L marks v v' →
    RunsAlike L R (fun _ _ _ => True) marks (steps.define env name v) (steps'.define env name' v')
  openBlock : ∀ {marks around env ss ss' mark}, Env.Marked marks env around →
    L.enters around (.block ss) (.block ss') mark →
    RunsAlike L R (fun marks env env' => env' = env ∧ env.Marked marks (mark :: around)) marks
      (steps.openBlock env ss) (steps'.openBlock env ss')
  close : ∀ {marks around env keyword keyword' params params' body body' name name' mark},
    Env.Marked marks env around →
    L.enters around (.function keyword params body name)
      (.function keyword' params' body' name') mark →
    L.lines keyword.line keyword'.line →
    name'.map (·.lexeme) = name.map (·.lexeme) →
    List.Forall₂ (L.names (mark :: around)) params params' →
    Stmt.AllAlike L (mark :: around) body body' →
    RunsAlike L R (Value.Alike L) marks (steps.close env keyword params body name)
      (steps'.close env keyword' params' body' name')
  bindArguments : ∀ {marks around c c' vs vs' mark}, Env.Marked marks c.env around → c'.env = c.env →
    L.enters around c.node c'.node mark →
    List.Forall₂ (L.names (mark :: around)) c.params c'.params →
    List.Forall₂ (Value.Alike L marks) vs vs' →
    RunsAlike L R (fun marks env env' => env' = env ∧ env.Marked marks (mark :: around)) marks
      (steps.bindArguments c vs) (steps'.bindArguments c' vs')
  callNative : ∀ {marks vs vs'} (f : Native), List.Forall₂ (Value.Alike L marks) vs vs' →
    RunsAlike L R (Value.Alike L) marks (steps.callNative f vs) (steps'.callNative f vs')
  note : ∀ {marks e e'}, Event.Alike L marks e e' →
    RunsAlike L R (fun _ _ _ => True) marks (steps.note e) (steps'.note e')
  literal : ∀ {marks} id id' value,
    Value.Alike L marks (steps.literal id value) (steps'.literal id' value)

/-! ## Ends of statements -/

/-- Two statements end in the same way. -/
inductive Completion.Alike (L : Likeness μ) (marks : List μ) : Completion → Completion → Prop
  | finished : Completion.Alike L marks .finished .finished
  | broken : Completion.Alike L marks .broken .broken
  | continued : Completion.Alike L marks .continued .continued
  | returned {v v' : Value} (values : v.Alike L marks v') :
      Completion.Alike L marks (.returned v) (.returned v')

theorem Value.Alike.later {v v' : Value} (alike : v.Alike L marks v') (further : marks <+: marks') :
    v.Alike L marks' v' :=
  alike.mono ⟨id, id, id, id, id⟩ further

theorem Closure.Alike.later {c c' : Closure} (alike : c.Alike L marks c')
    (further : marks <+: marks') : c.Alike L marks' c' :=
  alike.mono ⟨id, id, id, id, id⟩ further

section Parts

theorem runs_ofResult {operator operator' : Token} (operators : operator.Alike L operator')
    {result : Except RuntimeError.Cause Value} (plain : ∀ v, result = .ok v → v.Plain) :
    RunsAlike L R (Value.Alike L) marks (Running.ofResult operator.line result)
      (Running.ofResult operator'.line result) := by
  cases result with
  | ok v => exact runs_pure (plain v rfl).alike
  | error cause => exact runs_fail cause (.some operators.line)

theorem runs_valueOf {c c' : Completion} (alike : c.Alike L marks c') :
    RunsAlike L R (Value.Alike L) marks (Running.valueOf c) (Running.valueOf c') := by
  cases alike with
  | finished => exact runs_pure .nil
  | returned values => exact runs_pure values
  | broken | continued => exact runs_fail _ .none

theorem runs_checkArity (arity? : Option Nat) (count : Nat) {line line' : Int}
    (lines : L.lines line line') :
    RunsAlike L R (fun _ _ _ => True) marks (Running.checkArity arity? count line)
      (Running.checkArity arity? count line') := by
  cases arity? with
  | none => exact runs_pure trivial
  | some arity =>
    by_cases right : count = arity
    · simp only [Running.checkArity, right, if_true]
      exact runs_pure trivial
    · simp only [Running.checkArity, right, if_false]
      exact runs_fail _ (.some lines)

theorem runs_expectFinished {c c' : Completion} (alike : c.Alike L marks c') :
    RunsAlike L R (fun _ _ _ => True) marks (Running.expectFinished c)
      (Running.expectFinished c') := by
  cases alike with
  | finished => exact runs_pure trivial
  | returned | broken | continued => exact runs_fail _ .none

/-- Alike statements run alike one after the other if each of them does. -/
theorem runs_inOrder {around : List μ} {env : Env} {exec : Stmt → RunningOn σ Completion}
    {exec' : Stmt → RunningOn σ' Completion}
    (each : ∀ {marks s s'}, env.Marked marks around → Stmt.Alike L around s s' →
      RunsAlike L R (Completion.Alike L) marks (exec s) (exec' s')) :
    ∀ {ss ss' : List Stmt} {marks : List μ}, env.Marked marks around →
      Stmt.AllAlike L around ss ss' →
      RunsAlike L R (Completion.Alike L) marks (Running.inOrder exec ss) (Running.inOrder exec' ss') := by
  intro ss
  induction ss with
  | nil =>
    intro ss' marks marked alike
    cases alike
    exact runs_pure .finished
  | cons s rest ih =>
    intro ss' marks marked alike
    cases alike with
    | cons head tail =>
      refine (each marked head).bind fun marks' further c c' ended => ?_
      cases ended with
      | finished => exact ih (marked.mono further) tail
      | broken => exact runs_pure .broken
      | continued => exact runs_pure .continued
      | returned values => exact runs_pure (.returned values)

/-- Alike expressions are evaluated alike one after the other if each of them is. -/
theorem runs_mapM {around : List μ} {env : Env} {eval : Expr → RunningOn σ Value}
    {eval' : Expr → RunningOn σ' Value}
    (each : ∀ {marks e e'}, env.Marked marks around → Expr.Alike L around e e' →
      RunsAlike L R (Value.Alike L) marks (eval e) (eval' e')) :
    ∀ {es es' : List Expr} {marks : List μ}, env.Marked marks around →
      Expr.AllAlike L around es es' →
      RunsAlike L R (fun marks => List.Forall₂ (Value.Alike L marks)) marks (es.mapM eval)
        (es'.mapM eval') := by
  intro es
  induction es with
  | nil =>
    intro es' marks marked alike
    cases alike
    exact runs_pure .nil
  | cons e rest ih =>
    intro es' marks marked alike
    cases alike with
    | cons head tail =>
      rw [List.mapM_cons, List.mapM_cons]
      refine (each marked head).bind fun marks' further v v' value => ?_
      refine (ih (marked.mono further) tail).bind fun marks'' further' vs vs' values => ?_
      exact runs_pure (.cons (value.later further') values)

end Parts

/-! ## Runs of alike trees -/

/-- Runs on alike trees with the same fuel are alike. -/
structure AgreesWith (L : Likeness μ) (R : List μ → σ → σ' → Prop) (steps : Steps σ)
    (steps' : Steps σ') (n : Nat) : Prop where
  exec : ∀ {marks around env s s'}, Env.Marked marks env around → Stmt.Alike L around s s' →
    RunsAlike L R (Completion.Alike L) marks (exec steps n env s) (exec steps' n env s')
  rounds : ∀ {marks around env e e' s s' f f'}, Env.Marked marks env around →
    Expr.Alike L around e e' → Stmt.Alike L around s s' → Expr.OptionAlike L around f f' →
    RunsAlike L R (Completion.Alike L) marks (rounds steps n env e s f)
      (rounds steps' n env e' s' f')
  eval : ∀ {marks around env e e'}, Env.Marked marks env around → Expr.Alike L around e e' →
    RunsAlike L R (Value.Alike L) marks (eval steps n env e) (eval steps' n env e')
  call : ∀ {marks f f' vs vs' line line'}, Value.Alike L marks f f' →
    List.Forall₂ (Value.Alike L marks) vs vs' → L.lines line line' →
    RunsAlike L R (Value.Alike L) marks (call steps n f vs line) (call steps' n f' vs' line')
  enter : ∀ {marks c c' vs vs'}, Closure.Alike L marks c c' →
    List.Forall₂ (Value.Alike L marks) vs vs' →
    RunsAlike L R (Value.Alike L) marks (enter steps n c vs) (enter steps' n c' vs')

section Steps

set_option linter.unusedSectionVars false

variable {steps : Steps σ} {steps' : Steps σ'} (agree : Agreement L R steps steps') {n : Nat}
  (below : AgreesWith L R steps steps' n)
include agree below

private theorem runs_exec {around : List μ} {env : Env} {s s' : Stmt}
    (marked : env.Marked marks around) (alike : Stmt.Alike L around s s') :
    RunsAlike L R (Completion.Alike L) marks (exec steps (n + 1) env s)
      (exec steps' (n + 1) env s') := by
  cases alike with
  | expression value =>
    exact (below.eval marked value).bind fun _ _ _ _ _ => runs_pure .finished
  | declaration names value =>
    cases value with
    | none =>
      exact (agree.define marked names .nil).bind fun _ _ _ _ _ => runs_pure .finished
    | some value =>
      refine (below.eval marked value).bind fun marks' further v v' value => ?_
      refine (agree.define (marked.mono further) names value).bind fun _ _ _ _ _ => ?_
      exact runs_pure .finished
  | block enter statements =>
    refine (agree.openBlock marked enter).bind fun marks' further env env' opened => ?_
    obtain ⟨rfl, inner⟩ := opened
    exact runs_inOrder below.exec inner statements
  | ifElse condition thenBranch elseBranch =>
    refine (below.eval marked condition).bind fun marks' further v v' value => ?_
    refine (agree.note (.condition value)).bind fun marks'' further' _ _ _ => ?_
    have marked := (marked.mono further).mono further'
    rw [value.truthy]
    cases v.truthy with
    | true => exact below.exec marked thenBranch
    | false =>
      cases elseBranch with
      | none => exact runs_pure .finished
      | some branch => exact below.exec marked branch
  | whileLoop condition body increment => exact below.rounds marked condition body increment
  | breakLoop => exact runs_pure .broken
  | continueLoop => exact runs_pure .continued
  | returnValue _ _ value =>
    cases value with
    | none => exact runs_pure (.returned .nil)
    | some value =>
      exact (below.eval marked value).bind fun _ _ _ _ value => runs_pure (.returned value)
  | misplaced kind => exact runs_throw (.fault (.misplacedStatement kind))

private theorem runs_rounds {around : List μ} {env : Env} {e e' : Expr} {s s' : Stmt}
    {f f' : Option Expr} (marked : env.Marked marks around) (condition : Expr.Alike L around e e')
    (body : Stmt.Alike L around s s') (increment : Expr.OptionAlike L around f f') :
    RunsAlike L R (Completion.Alike L) marks (rounds steps (n + 1) env e s f)
      (rounds steps' (n + 1) env e' s' f') := by
  refine (below.eval marked condition).bind fun marks' further v v' value => ?_
  have marked := marked.mono further
  rw [value.truthy]
  by_cases holds : v.truthy
  · simp only [holds, if_true]
    refine (below.exec marked body).bind fun marks'' further' c c' ended => ?_
    have marked := marked.mono further'
    have again {marks : List μ} (marked : env.Marked marks around) :=
      below.rounds marked condition body increment
    cases ended with
    | broken => exact runs_pure .finished
    | returned values => exact runs_pure (.returned values)
    | finished | continued =>
      cases increment with
      | none => exact again marked
      | some onward =>
        exact (below.eval marked onward).bind fun _ further _ _ _ => again (marked.mono further)
  · simp only [holds, Bool.false_eq_true, if_false]
    exact runs_pure .finished

private theorem runs_eval {around : List μ} {env : Env} {e e' : Expr}
    (marked : env.Marked marks around) (alike : Expr.Alike L around e e') :
    RunsAlike L R (Value.Alike L) marks (eval steps (n + 1) env e)
      (eval steps' (n + 1) env e') := by
  cases alike with
  | literal id id' value => exact runs_pure (agree.literal id id' value)
  | grouping _ _ inner => exact below.eval marked inner
  | unary _ _ operators right =>
    refine (below.eval marked right).bind fun marks' further v v' value => ?_
    rw [value.unary operators]
    exact runs_ofResult operators fun _ => Value.plain_unary
  | binary _ _ left operators right =>
    refine (below.eval marked left).bind fun marks' further v v' value => ?_
    refine (below.eval (marked.mono further) right).bind fun marks'' further' w w' value' => ?_
    rw [(value.later further').binary operators value']
    exact runs_ofResult operators fun _ => Value.plain_binary
  | logical _ _ left operators right =>
    refine (below.eval marked left).bind fun marks' further v v' value => ?_
    rw [value.settles operators]
    generalize v.settles _ = settled
    cases settled with
    | true => exact runs_pure value
    | false => exact below.eval (marked.mono further) right
  | step _ _ left operators =>
    cases left with
    | reference use =>
      refine (agree.lookUp marked use).bind fun marks' further v v' value => ?_
      rw [value.step operators]
      refine (runs_ofResult operators fun _ => Value.plain_step).bind
        fun marks'' further' w w' value' => ?_
      have marked := (marked.mono further).mono further'
      refine (agree.assign marked use value').bind fun _ further'' _ _ _ => ?_
      exact runs_pure (value'.later further'')
    | _ =>
      simp only [eval]
      rw [operators.lexeme]
      exact runs_fail _ (.some operators.line)
  | reference use => exact agree.lookUp marked use
  | assignment use value =>
    refine (below.eval marked value).bind fun marks' further v v' value => ?_
    refine (agree.assign (marked.mono further) use value).bind fun marks'' further' _ _ _ => ?_
    exact runs_pure (value.later further')
  | call _ _ callee arguments line =>
    refine (below.eval marked callee).bind fun marks' further f f' function => ?_
    refine (runs_mapM below.eval (marked.mono further) arguments).bind
      fun marks'' further' vs vs' values => ?_
    exact below.call (function.later further') values line
  | lambda _ _ enter line title parameters statements =>
    exact agree.close marked enter line title parameters statements
  | misplaced kind => exact runs_throw (.fault (.misplacedExpression kind))

private theorem runs_call {f f' : Value} {vs vs' : List Value} {line line' : Int}
    (function : f.Alike L marks f') (values : List.Forall₂ (Value.Alike L marks) vs vs')
    (lines : L.lines line line') :
    RunsAlike L R (Value.Alike L) marks (call steps (n + 1) f vs line)
      (call steps' (n + 1) f' vs' line') := by
  have later {marks' : List μ} (further : marks <+: marks') :
      List.Forall₂ (Value.Alike L marks') vs vs' :=
    values.imp fun _ _ value => value.later further
  cases function with
  | closure alike =>
    simp only [call]
    rw [alike.arity, ← values.length_eq]
    refine (runs_checkArity _ _ lines).bind fun marks' further _ _ _ => ?_
    refine (agree.note (.called (.closure (alike.later further)) _)).bind
      fun marks'' further' _ _ _ => ?_
    have further := further.trans further'
    exact (below.enter (alike.later further) (later further)).inCall (.line lines)
  | native f =>
    simp only [call]
    rw [← values.length_eq]
    refine (runs_checkArity _ _ lines).bind fun marks' further _ _ _ => ?_
    refine (agree.note (.called (.native f) _)).bind fun marks'' further' _ _ _ => ?_
    exact (agree.callNative f (later (further.trans further'))).inCall (.line lines)
  | nil | bool | num | str => exact runs_fail _ (.some lines)

private theorem runs_enter {c c' : Closure} {vs vs' : List Value} (function : c.Alike L marks c')
    (values : List.Forall₂ (Value.Alike L marks) vs vs') :
    RunsAlike L R (Value.Alike L) marks (enter steps (n + 1) c vs)
      (enter steps' (n + 1) c' vs') := by
  obtain ⟨around, mark, marked, entered, params, body⟩ := function.function
  refine (agree.bindArguments marked function.env entered params values).bind
    fun marks' further env env' opened => ?_
  obtain ⟨rfl, inner⟩ := opened
  rw [function.name]
  refine RunsAlike.inCall (.calling _ function.line) ?_
  refine (runs_inOrder below.exec inner body).bind fun marks'' further' d d' ended => ?_
  exact runs_valueOf ended

end Steps

/-- Alike trees run alike with steps that agree. -/
theorem agreesWith {steps : Steps σ} {steps' : Steps σ'} (agree : Agreement L R steps steps')
    (n : Nat) : AgreesWith L R steps steps' n := by
  induction n with
  | zero =>
    refine ⟨?_, ?_, ?_, ?_, ?_⟩
    · intro marks around env s s' _ _
      exact runs_throw .outOfFuel
    · intro marks around env e e' s s' f f' _ _ _ _
      exact runs_throw .outOfFuel
    · intro marks around env e e' _ _
      exact runs_throw .outOfFuel
    · intro marks f f' vs vs' line line' _ _ _
      exact runs_throw .outOfFuel
    · intro marks c c' vs vs' _ _
      exact runs_throw .outOfFuel
  | succ n ih =>
    exact ⟨runs_exec agree ih, runs_rounds agree ih, runs_eval agree ih, runs_call agree ih,
      runs_enter agree ih⟩

/-- Alike programs run alike among the global variables with steps that agree. -/
theorem runs_interpret {steps : Steps σ} {steps' : Steps σ'} (agree : Agreement L R steps steps')
    (fuel : Nat) {around : List μ} :
    ∀ {p p' : Program} {marks : List μ}, Env.global.Marked marks around →
      Stmt.AllAlike L around p p' →
      RunsAlike L R (fun _ _ _ => True) marks (interpret steps fuel p)
        (interpret steps' fuel p') := by
  intro p
  induction p with
  | nil =>
    intro p' marks marked alike
    cases alike
    exact runs_pure trivial
  | cons s rest ih =>
    intro p' marks marked alike
    cases alike with
    | cons head tail =>
      refine RunsAlike.bind (P := fun _ _ _ => True) ?_ fun marks' further _ _ _ =>
        ih (marked.mono further) tail
      refine ((agreesWith agree fuel).exec marked head).bind fun marks' further c c' ended => ?_
      exact runs_expectFinished ended

end Lox
