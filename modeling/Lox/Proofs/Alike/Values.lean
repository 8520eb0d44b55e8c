import Lox.Proofs.Alike.Trees
import Lox.Run.Machine

/-!
# Values of runs of one shape

Two values are alike if they are equal, or functions with alike bodies among the same frames. Every
frame has a mark, by which what corresponds in a body depends on the frames around it.
-/

namespace Lox

variable {μ : Type}

/-! ## Marks of frames -/

theorem getElem?_further {marks marks' : List μ} (further : marks <+: marks') {r : Nat} {mark : μ}
    (found : marks[r]? = some mark) : marks'[r]? = some mark := by
  obtain ⟨rest, rfl⟩ := further
  obtain ⟨inside, _⟩ := List.getElem?_eq_some_iff.1 found
  rwa [List.getElem?_append_left inside]

/-- The frames of an environment have the marks. -/
def Env.Marked (marks : List μ) (env : Env) (around : List μ) : Prop :=
  env.chain.map (marks[·]?) = around.map some

namespace Env.Marked

variable {marks marks' : List μ} {env : Env} {around : List μ}

theorem mono (marked : env.Marked marks around) (further : marks <+: marks') :
    env.Marked marks' around := by
  unfold Env.Marked at marked ⊢
  rw [← marked]
  refine List.map_congr_left fun r inside => ?_
  have found : marks[r]? ∈ around.map some := by
    rw [← marked]
    exact List.mem_map_of_mem inside
  obtain ⟨mark, _, isMark⟩ := List.mem_map.1 found
  rw [← isMark]
  exact getElem?_further further isMark.symm

/-- The frame at a distance has the mark at that distance, and beyond the marks there is none. -/
theorem frameAt (marked : env.Marked marks around) (distance : Nat) :
    match around[distance]? with
    | some mark => ∃ r, env.frameAt distance = .ok r ∧ marks[r]? = some mark
    | none => env.frameAt distance = .error (.noFrame (distance - env.chain.length)) := by
  have same : (env.chain.map (marks[·]?))[distance]? = (around.map some)[distance]? := by
    rw [marked]
  rw [List.getElem?_map, List.getElem?_map] at same
  unfold Env.frameAt
  cases found : env.chain[distance]? with
  | none =>
    cases beyond : around[distance]? with
    | none => rfl
    | some mark => simp [found, beyond] at same
  | some r =>
    cases inside : around[distance]? with
    | none => simp [found, inside] at same
    | some mark => exact ⟨r, rfl, by simpa [found, inside] using same⟩

theorem frame {mark : μ} (marked : env.Marked marks (mark :: around)) :
    marks[env.frame]? = some mark := by
  simp only [Env.Marked, Env.chain, List.map_cons, List.cons.injEq] at marked
  exact marked.1

theorem global {mark : μ} (first : marks[0]? = some mark) : Env.global.Marked marks [mark] := by
  simp [Env.Marked, Env.chain, Env.global, first]

/-- The next frame takes the next mark. -/
theorem next (marked : env.Marked marks around) (mark : μ) {s : Store}
    (size : s.frames.size = marks.length) :
    (s.nextEnv env.chain).Marked (marks ++ [mark]) (mark :: around) := by
  have outer := marked.mono (List.prefix_append marks [mark])
  simp only [Env.Marked, Env.chain, List.map_cons, Store.nextEnv] at outer ⊢
  rw [outer, size, List.getElem?_concat_length]

end Env.Marked

/-! ## Values -/

/-- The function that a closure was made of. -/
def Closure.node (c : Closure) : ScopeNode := .function c.keyword c.params c.body c.declaredName

/-- Two closures are the same but for their functions, which are alike. -/
structure Closure.Alike (L : Likeness μ) (marks : List μ) (c c' : Closure) : Prop where
  identity : c'.identity = c.identity
  env : c'.env = c.env
  title : c'.declaredName.map (·.lexeme) = c.declaredName.map (·.lexeme)
  line : L.lines c.keyword.line c'.keyword.line
  function : ∃ around mark, c.env.Marked marks around ∧ L.enters around c.node c'.node mark ∧
    List.Forall₂ (L.names (mark :: around)) c.params c'.params ∧
    Stmt.AllAlike L (mark :: around) c.body c'.body

/-- Two values are equal, or alike closures. -/
inductive Value.Alike (L : Likeness μ) (marks : List μ) : Value → Value → Prop
  | nil : Value.Alike L marks .nil .nil
  | bool (b : Bool) : Value.Alike L marks (.bool b) (.bool b)
  | num (x : Float) : Value.Alike L marks (.num x) (.num x)
  | str (s : String) : Value.Alike L marks (.str s) (.str s)
  | native (n : Native) : Value.Alike L marks (.native n) (.native n)
  | closure {c c' : Closure} (alike : c.Alike L marks c') :
      Value.Alike L marks (.closure c) (.closure c')

variable {L L' : Likeness μ} {marks marks' : List μ}

theorem Closure.Alike.mono (below : L.Below L') (further : marks <+: marks') {c c' : Closure}
    (alike : c.Alike L marks c') : c.Alike L' marks' c' := by
  obtain ⟨identity, env, title, line, around, mark, marked, enter, params, body⟩ := alike
  exact ⟨identity, env, title, below.lines line, around, mark, marked.mono further,
    below.enters enter, params.imp fun _ _ => below.names, body.mono below⟩

theorem Value.Alike.mono (below : L.Below L') (further : marks <+: marks') {v v' : Value}
    (alike : v.Alike L marks v') : v.Alike L' marks' v' := by
  cases alike with
  | nil => exact .nil
  | bool b => exact .bool b
  | num x => exact .num x
  | str s => exact .str s
  | native n => exact .native n
  | closure alike => exact .closure (alike.mono below further)

theorem Closure.Alike.name {c c' : Closure} (alike : c.Alike L marks c') : c'.name = c.name := by
  unfold Closure.name
  rw [alike.title]

theorem Closure.Alike.arity {c c' : Closure} (alike : c.Alike L marks c') :
    c'.arity = c.arity := by
  obtain ⟨_, _, _, _, params, _⟩ := alike.function
  exact params.length_eq.symm

namespace Value.Alike

variable {v v' w w' : Value}

theorem ofLiteral (value : Literal) :
    (Value.ofLiteral value).Alike L marks (Value.ofLiteral value) := by
  cases value with
  | nil => exact .nil
  | bool b => exact .bool b
  | num x => exact .num x
  | str s => exact .str s

theorem truthy (alike : v.Alike L marks v') : v'.truthy = v.truthy := by
  cases alike <;> rfl

theorem text (alike : v.Alike L marks v') : v'.text = v.text := by
  cases alike with
  | closure alike => simp only [Value.text, alike.name]
  | _ => rfl

theorem equal (alike : v.Alike L marks v') (alike' : w.Alike L marks w') :
    v'.equal w' = v.equal w := by
  cases alike with
  | closure alike =>
    cases alike' with
    | closure alike' => simp only [Value.equal, alike.identity, alike'.identity]
    | _ => rfl
  | _ => cases alike' <;> rfl

end Value.Alike

/-! ## Values of the same functions -/

section
variable (enters : ∀ {around : List μ} {node node' : ScopeNode} {mark : μ},
  L.enters around node node' mark → node' = node)
include enters

/-- Where only the same function corresponds to a function, alike closures are equal. -/
theorem Closure.Alike.eq {c c' : Closure} (alike : c.Alike L marks c') : c' = c := by
  obtain ⟨_, _, _, entered, _⟩ := alike.function
  have same := enters entered
  have isIdentity := alike.identity
  have isEnv := alike.env
  obtain ⟨identity, keyword, params, body, name, env⟩ := c
  obtain ⟨identity', keyword', params', body', name', env'⟩ := c'
  simp only [Closure.node, ScopeNode.function.injEq] at same
  obtain ⟨rfl, rfl, rfl, rfl⟩ := same
  cases isIdentity
  cases isEnv
  rfl

theorem Value.Alike.eq {v v' : Value} (alike : v.Alike L marks v') : v' = v := by
  cases alike with
  | closure alike => rw [alike.eq enters]
  | _ => rfl

theorem Value.Alike.all_eq {vs vs' : List Value}
    (alike : List.Forall₂ (Value.Alike L marks) vs vs') : vs' = vs := by
  induction alike with
  | nil => rfl
  | cons value _ ih => rw [value.eq enters, ih]

end

/-- The same function is called in the same way. -/
theorem Running.bindArguments_eq {c c' : Closure} (same : c'.node = c.node) (env : c'.env = c.env)
    (vs : List Value) : Running.bindArguments c' vs = Running.bindArguments c vs := by
  have sameParams : c'.params = c.params := by
    rw [Closure.node, Closure.node, ScopeNode.function.injEq] at same
    exact same.2.1
  unfold Running.bindArguments
  rw [env, sameParams]

/-! ## Operators -/

section
variable {operator operator' : Token} {v v' w w' : Value}

theorem Value.Alike.unary (operators : operator.Alike L operator') (alike : v.Alike L marks v') :
    v'.unary operator' = v.unary operator := by
  unfold Value.unary
  rw [operators.kind, operators.lexeme]
  cases alike with
  | closure => cases operator.kind <;> rfl
  | _ => rfl

theorem Value.Alike.step (operators : operator.Alike L operator') (alike : v.Alike L marks v') :
    v'.step operator' = v.step operator := by
  unfold Value.step
  rw [operators.kind, operators.lexeme]
  cases alike <;> rfl

theorem Value.Alike.settles (operators : operator.Alike L operator')
    (alike : v.Alike L marks v') : v'.settles operator' = v.settles operator := by
  unfold Value.settles
  rw [operators.kind, alike.truthy]

theorem Value.Alike.binary (operators : operator.Alike L operator') (left : v.Alike L marks v')
    (right : w.Alike L marks w') : v'.binary operator' w' = v.binary operator w := by
  have sums : v'.add w' = v.add w := by cases left <;> cases right <;> rfl
  have arithmetics (x y : Float) :
      Value.arithmetic operator' x y = Value.arithmetic operator x y := by
    unfold Value.arithmetic
    rw [operators.kind, operators.lexeme]
  unfold Value.binary
  rw [operators.kind, sums, left.equal right]
  cases left <;> cases right <;> simp only [arithmetics]

/-- A value that is no function is like itself. -/
def Value.Plain (v : Value) : Prop := ∀ c, v ≠ .closure c

theorem Value.Plain.alike (plain : v.Plain) : v.Alike L marks v := by
  cases v with
  | nil => exact .nil
  | bool b => exact .bool b
  | num x => exact .num x
  | str s => exact .str s
  | native n => exact .native n
  | closure c => exact absurd rfl (plain c)

theorem Value.plain_ofLiteral (value : Literal) : (Value.ofLiteral value).Plain := by
  intro c same
  cases value <;> cases same

theorem Value.plain_unary (result : v.unary operator = .ok w) : w.Plain := by
  rintro c rfl
  unfold Value.unary at result
  split at result <;> cases result

theorem Value.plain_step (result : v.step operator = .ok w) : w.Plain := by
  rintro c rfl
  unfold Value.step at result
  split at result <;> cases result

theorem Value.plain_binary {u : Value} (result : v.binary operator w = .ok u) : u.Plain := by
  rintro c rfl
  unfold Value.binary at result
  split at result
  · unfold Value.add at result
    split at result <;> cases result
  · cases result
  · cases result
  · split at result
    · unfold Value.arithmetic at result
      split at result <;> cases result
    · cases result

end

/-! ## Errors -/

/-- Two steps into a call differ in their lines at most. -/
inductive CallStep.Alike (L : Likeness μ) : CallStep → CallStep → Prop
  | line {l l' : Int} (lines : L.lines l l') : CallStep.Alike L (.line l) (.line l')
  | calling (name : String) {l l' : Int} (lines : L.lines l l') :
      CallStep.Alike L (.calling name l) (.calling name l')

/-- Two causes are the same, up to the name of a variable that has no value. -/
inductive RuntimeError.Cause.Alike (L : Likeness μ) :
    RuntimeError.Cause → RuntimeError.Cause → Prop
  | same (cause : RuntimeError.Cause) : RuntimeError.Cause.Alike L cause cause
  | uninitialized {name name' : String} (names : L.missing name name') :
      RuntimeError.Cause.Alike L (.uninitialized name) (.uninitialized name')

/-- Two errors have alike causes, on corresponding lines and in corresponding calls. -/
structure RuntimeError.Alike (L : Likeness μ) (e e' : RuntimeError) : Prop where
  cause : e.cause.Alike L e'.cause
  line : Option.Rel L.lines e.line e'.line
  context : List.Forall₂ (CallStep.Alike L) e.context e'.context

/-- Two runs end early in the same way. -/
inductive Stop.Alike (L : Likeness μ) : Stop → Stop → Prop
  | error {e e' : RuntimeError} (alike : e.Alike L e') : Stop.Alike L (.error e) (.error e')
  | fault (f : Fault) : Stop.Alike L (.fault f) (.fault f)
  | outOfFuel : Stop.Alike L .outOfFuel .outOfFuel

theorem Stop.Alike.inCall {step step' : CallStep} (steps : step.Alike L step') {e e' : Stop}
    (alike : e.Alike L e') : (e.inCall step).Alike L (e'.inCall step') := by
  cases alike with
  | error alike => exact .error ⟨alike.cause, alike.line, .cons steps alike.context⟩
  | fault f => exact .fault f
  | outOfFuel => exact .outOfFuel

/-! ## Errors on the same lines -/

section
variable (lines : ∀ {l l' : Int}, L.lines l l' → l' = l)
include lines

theorem RuntimeError.line_eq {line line' : Option Int} (alike : Option.Rel L.lines line line') :
    line' = line := by
  cases alike with
  | none => rfl
  | some same => rw [lines same]

theorem RuntimeError.context_eq {context context' : List CallStep}
    (alike : List.Forall₂ (CallStep.Alike L) context context') : context' = context := by
  induction alike with
  | nil => rfl
  | cons step _ ih =>
    rw [ih]
    cases step with
    | line same => rw [lines same]
    | calling name same => rw [lines same]

/-- Where lines and missing names only correspond to themselves, runs end early in just one way. -/
theorem Stop.Alike.eq (missing : ∀ {name name' : String}, L.missing name name' → name' = name)
    {e e' : Stop} (alike : e.Alike L e') : e' = e := by
  cases alike with
  | @error e e' alike =>
    obtain ⟨cause, line, context⟩ := e
    obtain ⟨cause', line', context'⟩ := e'
    obtain ⟨causes, sameLines, contexts⟩ := alike
    cases RuntimeError.line_eq lines sameLines
    cases RuntimeError.context_eq lines contexts
    have sameCause : cause' = cause := by
      cases causes with
      | same => rfl
      | uninitialized names => rw [missing names]
    rw [sameCause]
  | fault f => rfl
  | outOfFuel => rfl

end

end Lox
