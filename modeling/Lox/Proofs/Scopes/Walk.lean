import Lox.Proofs.Runs.Keeps
import Lox.Scope.Distance

/-!
# Walks over programs as functions

What a walk finds depends on the scopes around the place alone, and so do the scopes it leaves. The
scopes carry labels, by which the scope that a use is bound to is told from others around it.
-/

namespace Lox

/-! ## Labelled scopes -/

/-- What a scope belongs to: a block, or a function with its parameters. -/
inductive ScopeNode
  | block (statements : List Stmt)
  | function (keyword : Token) (params : List Token) (body : List Stmt) (name : Option Token)

variable {κ : Type}

/-- The scopes around a place, innermost first. -/
abbrev Scopes (κ : Type) := List (κ × Scope)

namespace Scopes

/-- The scopes without their labels. -/
def names (scopes : Scopes κ) : List Scope := scopes.map Prod.snd

/-- Declares a name in the innermost scope; outside of all scopes nothing is kept. -/
def declare (name : Token) (readiness : Readiness) : Scopes κ → Scopes κ
  | [] => []
  | (label, scope) :: outer => (label, scope.insert name.lexeme readiness) :: outer

/-- Declares parameters in the innermost scope. -/
def declareAll (params : List Token) (scopes : Scopes κ) : Scopes κ :=
  params.foldl (fun scopes name => scopes.declare name .ready) scopes

/-- The innermost scope with a name: its distance, its label, and whether the name is ready. -/
def find (name : String) : Scopes κ → Option (Nat × κ × Readiness)
  | [] => none
  | (label, scope) :: outer =>
    match scope[name]? with
    | some readiness => some (0, label, readiness)
    | none => (find name outer).map fun (distance, rest) => (distance + 1, rest)

theorem findName_names (name : String) (scopes : Scopes κ) :
    findName name scopes.names = (scopes.find name).map fun (distance, _, readiness) =>
      (distance, readiness) := by
  induction scopes with
  | nil => rfl
  | cons head outer ih =>
    obtain ⟨label, scope⟩ := head
    simp only [names, List.map_cons, findName, find]
    cases scope[name]? with
    | some readiness => rfl
    | none =>
      simp only [names] at ih
      simp only [ih, Option.map_map]
      rfl

end Scopes

/-! ## Findings -/

/-- A use that was noted, with the label of the scope of its declaration. -/
structure Note (κ : Type) where
  use : Use
  owner : κ

/-- What a walk has noted, and why it ended early if it did. -/
structure Findings (κ : Type) where
  notes : List (Note κ)
  refusal : Option Refusal

namespace Findings

/-- Nothing was noted. -/
def nothing : Findings κ := ⟨[], none⟩

/-- The walk ends early. -/
def refused (r : Refusal) : Findings κ := ⟨[], some r⟩

/-- What a walk finds that goes on with another one, unless it ends early. -/
def andThen (first second : Findings κ) : Findings κ :=
  match first.refusal with
  | some _ => first
  | none => ⟨first.notes ++ second.notes, second.refusal⟩

theorem andThen_nothing (found : Findings κ) : found.andThen nothing = found := by
  obtain ⟨notes, refusal⟩ := found
  cases refusal <;> simp [andThen, nothing]

theorem nothing_andThen (found : Findings κ) : nothing.andThen found = found := by
  simp [andThen, nothing]

theorem andThen_assoc (first second third : Findings κ) :
    (first.andThen second).andThen third = first.andThen (second.andThen third) := by
  obtain ⟨notes, refusal⟩ := first
  obtain ⟨notes', refusal'⟩ := second
  cases refusal with
  | some r => rfl
  | none => cases refusal' <;> simp [andThen]

/-- The uses that were noted. -/
def uses (found : Findings κ) : List Use := found.notes.map (·.use)

end Findings

/-! ## Walks -/

/-- Notes the use of a name that is declared in a scope around it. -/
def Scopes.note (scopes : Scopes κ) (id : Nat) (form : UseForm) (name : Token) : Findings κ :=
  match scopes.find name.lexeme with
  | some (distance, owner, _) => ⟨[⟨⟨id, form, name, distance⟩, owner⟩], none⟩
  | none => .nothing

theorem Scopes.note_refusal (scopes : Scopes κ) (id : Nat) (form : UseForm) (name : Token) :
    (scopes.note id form name).refusal = none := by
  unfold Scopes.note
  split <;> rfl

/-- Refuses a variable that is still without its value. -/
def Scopes.checkReady (scopes : Scopes κ) (name : Token) : Findings κ :=
  match scopes.find name.lexeme with
  | some (_, _, .pending) => .refused (.error ⟨.ownInitializer name.lexeme, name.line⟩)
  | _ => .nothing

/-- How a name is marked while its initializer is walked. -/
def Expr.readiness (e : Expr) : Readiness := if e.isLambda then .ready else .pending

mutual

/-- The scopes after a statement. -/
def Stmt.after (scopes : Scopes κ) : Stmt → Scopes κ
  | .declaration name none => scopes.declare name .ready
  | .declaration name (some e) => (scopes.declare name e.readiness).declare name .ready
  | .ifElse _ thenBranch elseBranch => Stmt.optionAfter (thenBranch.after scopes) elseBranch
  | .whileLoop _ body _ => body.after scopes
  | _ => scopes

/-- The scopes after a statement that may be absent. -/
def Stmt.optionAfter (scopes : Scopes κ) : Option Stmt → Scopes κ
  | none => scopes
  | some s => s.after scopes

end

/-- The scopes after statements. -/
def Stmt.allAfter (scopes : Scopes κ) (ss : List Stmt) : Scopes κ :=
  ss.foldl (fun scopes s => s.after scopes) scopes

section
variable (label : ScopeNode → κ)

mutual

/-- What a walk over an expression finds; the numbers are those of the loops around the place in
the same function and of the functions around it. -/
def Expr.walk (scopes : Scopes κ) (loops functions : Nat) : Expr → Findings κ
  | .literal .. => .nothing
  | .grouping _ inner => inner.walk scopes loops functions
  | .unary _ _ right => right.walk scopes loops functions
  | .binary _ left _ right =>
    (left.walk scopes loops functions).andThen (right.walk scopes loops functions)
  | .logical _ left _ right =>
    (left.walk scopes loops functions).andThen (right.walk scopes loops functions)
  | .step _ left _ => left.walk scopes loops functions
  | .reference id name => (scopes.checkReady name).andThen (scopes.note id .reference name)
  | .assignment id name value =>
    (value.walk scopes loops functions).andThen (scopes.note id .assignment name)
  | .call _ callee arguments _ =>
    (callee.walk scopes loops functions).andThen (Expr.walkAll scopes loops functions arguments)
  | .lambda _ keyword params body name =>
    Stmt.walkAll (Scopes.declareAll params ((label (.function keyword params body name), ∅) :: scopes))
      0 (functions + 1) body
  | .misplaced kind => .refused (.misplaced kind)

/-- What a walk over expressions finds. -/
def Expr.walkAll (scopes : Scopes κ) (loops functions : Nat) : List Expr → Findings κ
  | [] => .nothing
  | e :: rest =>
    (e.walk scopes loops functions).andThen (Expr.walkAll scopes loops functions rest)

/-- What a walk over an expression finds that may be absent. -/
def Expr.walkOption (scopes : Scopes κ) (loops functions : Nat) : Option Expr → Findings κ
  | none => .nothing
  | some e => e.walk scopes loops functions

/-- What a walk over a statement finds. -/
def Stmt.walk (scopes : Scopes κ) (loops functions : Nat) : Stmt → Findings κ
  | .expression e => e.walk scopes loops functions
  | .declaration _ none => .nothing
  | .declaration name (some e) => e.walk (scopes.declare name e.readiness) loops functions
  | .block statements =>
    Stmt.walkAll ((label (.block statements), ∅) :: scopes) loops functions statements
  | .ifElse condition thenBranch elseBranch =>
    (condition.walk scopes loops functions).andThen
      ((thenBranch.walk scopes loops functions).andThen
        (Stmt.walkOption (thenBranch.after scopes) loops functions elseBranch))
  | .whileLoop condition body increment =>
    (condition.walk scopes loops functions).andThen
      ((body.walk scopes (loops + 1) functions).andThen
        (Expr.walkOption (body.after scopes) loops functions increment))
  | .breakLoop keyword | .continueLoop keyword =>
    if loops = 0 then .refused (.error ⟨.noLoop keyword.lexeme, keyword.line⟩) else .nothing
  | .returnValue keyword value =>
    if functions = 0 then .refused (.error ⟨.noFunction, keyword.line⟩)
    else Expr.walkOption scopes loops functions value
  | .misplaced kind => .refused (.misplaced kind)

/-- What a walk over statements finds. -/
def Stmt.walkAll (scopes : Scopes κ) (loops functions : Nat) : List Stmt → Findings κ
  | [] => .nothing
  | s :: rest =>
    (s.walk scopes loops functions).andThen (Stmt.walkAll (s.after scopes) loops functions rest)

/-- What a walk over a statement finds that may be absent. -/
def Stmt.walkOption (scopes : Scopes κ) (loops functions : Nat) : Option Stmt → Findings κ
  | none => .nothing
  | some s => s.walk scopes loops functions

end

end

/-! ## The walks are what is found -/

open Resolving

/-- A walk from a place ends as found: with the scopes after it, or early. -/
def Ends (after : Scopes κ) (found : Findings κ) (s : Survey) :
    EStateM.Result Refusal Survey Unit → Prop
  | .ok _ s' => found.refusal = none ∧
      s' = { s with scopes := after.names, uses := s.uses ++ found.uses }
  | .error r s' => found.refusal = some r ∧ s'.uses = s.uses ++ found.uses

/-- A walk finds what is given from all places with the scopes around them. -/
def Finds (scopes : Scopes κ) (loops functions : Nat) (after : Scopes κ) (found : Findings κ)
    (walk : Resolving Unit) : Prop :=
  ∀ s : Survey, s.scopes = scopes.names → s.loopDepth = loops → s.functionDepth = functions →
    Ends after found s (walk s)

theorem finds_pure (scopes : Scopes κ) (loops functions : Nat) :
    Finds scopes loops functions scopes .nothing (pure ()) := by
  intro s inScopes _ _
  refine ⟨rfl, ?_⟩
  rw [← inScopes]
  simp [Findings.nothing, Findings.uses]

theorem finds_refused (scopes after : Scopes κ) (loops functions : Nat) (r : Refusal) :
    Finds scopes loops functions after (.refused r) (throw r) := by
  intro s _ _ _
  exact ⟨rfl, by simp [Findings.refused, Findings.uses]⟩

theorem noted_append (uses : Array Use) (found found' : Findings κ) (refusal : Option Refusal) :
    uses ++ found.uses ++ found'.uses =
      uses ++ (Findings.uses ⟨found.notes ++ found'.notes, refusal⟩) := by
  apply Array.ext'
  simp [Findings.uses]

theorem Finds.bind {scopes middle after : Scopes κ} {loops functions : Nat}
    {found found' : Findings κ} {walk walk' : Resolving Unit}
    (first : Finds scopes loops functions middle found walk)
    (second : Finds middle loops functions after found' walk') :
    Finds scopes loops functions after (found.andThen found') (walk >>= fun _ => walk') := by
  intro s inScopes inLoops inFunctions
  have ends := first s inScopes inLoops inFunctions
  show Ends _ _ _ (EStateM.bind walk (fun _ => walk') s)
  unfold EStateM.bind
  cases run : walk s with
  | ok u s' =>
    rw [run] at ends
    obtain ⟨goesOn, rfl⟩ := ends
    have ends' := second { s with scopes := middle.names, uses := s.uses ++ found.uses } rfl
      inLoops inFunctions
    dsimp only
    cases run' : walk' { s with scopes := middle.names, uses := s.uses ++ found.uses } with
    | ok u s' =>
      rw [run'] at ends'
      obtain ⟨goesOn', rfl⟩ := ends'
      simp only [Ends, Findings.andThen, goesOn]
      refine ⟨goesOn', ?_⟩
      rw [noted_append s.uses found found' found'.refusal]
    | error r s' =>
      rw [run'] at ends'
      obtain ⟨stops, noted⟩ := ends'
      simp only [Ends, Findings.andThen, goesOn]
      exact ⟨stops, by rw [noted, noted_append]⟩
  | error r s' =>
    rw [run] at ends
    obtain ⟨stops, noted⟩ := ends
    simp only [Ends, Findings.andThen, stops]
    exact ⟨trivial, noted⟩

theorem finds_mark (scopes : Scopes κ) (loops functions : Nat) (name : Token)
    (readiness : Readiness) :
    Finds scopes loops functions (scopes.declare name readiness) .nothing (mark name readiness) := by
  intro s inScopes _ _
  refine ⟨rfl, ?_⟩
  cases scopes with
  | nil =>
    obtain ⟨_, _, _, _⟩ := s
    cases inScopes
    simp [Survey.mark, Scopes.declare, Scopes.names, Findings.nothing, Findings.uses]
  | cons head outer =>
    obtain ⟨_, _, _, _⟩ := s
    cases inScopes
    simp [Survey.mark, Scopes.declare, Scopes.names, Findings.nothing, Findings.uses]

theorem note_of_none {id : Nat} {form : UseForm} {name : Token} {s : Survey}
    (missing : findName name.lexeme s.scopes = none) : note id form name s = .ok () s := by
  have got : (get : Resolving Survey) s = .ok s s := rfl
  rw [Resolving.note, run_bind_of_ok got, missing]
  rfl

theorem note_of_some {id : Nat} {form : UseForm} {name : Token} {s : Survey} {distance : Nat}
    {readiness : Readiness} (found : findName name.lexeme s.scopes = some (distance, readiness)) :
    note id form name s = .ok () { s with uses := s.uses.push ⟨id, form, name, distance⟩ } := by
  have got : (get : Resolving Survey) s = .ok s s := rfl
  rw [Resolving.note, run_bind_of_ok got, found]
  rfl

theorem finds_note (scopes : Scopes κ) (loops functions : Nat) (id : Nat) (form : UseForm)
    (name : Token) :
    Finds scopes loops functions scopes (scopes.note id form name) (note id form name) := by
  intro s inScopes inLoops inFunctions
  have found := Scopes.findName_names name.lexeme scopes
  rw [← inScopes] at found
  rw [Scopes.note]
  cases outcome : scopes.find name.lexeme with
  | none =>
    rw [outcome] at found
    rw [note_of_none found]
    exact finds_pure scopes loops functions s inScopes inLoops inFunctions
  | some use =>
    rw [outcome] at found
    rw [note_of_some found]
    refine ⟨rfl, ?_⟩
    rw [← inScopes]
    simp [Findings.uses]

theorem checkReady_of_pending {name : Token} {s : Survey} {distance : Nat}
    (found : findName name.lexeme s.scopes = some (distance, .pending)) :
    checkReady name s = .error (.error ⟨.ownInitializer name.lexeme, name.line⟩) s := by
  have got : (get : Resolving Survey) s = .ok s s := rfl
  rw [Resolving.checkReady, run_bind_of_ok got, found]
  rfl

theorem checkReady_of_ne {name : Token} {s : Survey}
    (notPending : ∀ distance, findName name.lexeme s.scopes ≠ some (distance, .pending)) :
    checkReady name s = .ok () s := by
  have got : (get : Resolving Survey) s = .ok s s := rfl
  rw [Resolving.checkReady, run_bind_of_ok got]
  cases found : findName name.lexeme s.scopes with
  | none => rfl
  | some use =>
    obtain ⟨distance, readiness⟩ := use
    cases readiness with
    | pending => exact absurd found (notPending distance)
    | ready => rfl

theorem finds_checkReady (scopes : Scopes κ) (loops functions : Nat) (name : Token) :
    Finds scopes loops functions scopes (scopes.checkReady name) (checkReady name) := by
  intro s inScopes inLoops inFunctions
  have found := Scopes.findName_names name.lexeme scopes
  rw [← inScopes] at found
  have goesOn := finds_pure scopes loops functions s inScopes inLoops inFunctions
  rw [Scopes.checkReady]
  cases outcome : scopes.find name.lexeme with
  | none =>
    rw [outcome] at found
    rw [checkReady_of_ne (by simp [found])]
    exact goesOn
  | some use =>
    obtain ⟨distance, owner, readiness⟩ := use
    rw [outcome] at found
    cases readiness with
    | pending =>
      rw [checkReady_of_pending found]
      exact finds_refused scopes scopes loops functions _ s inScopes inLoops inFunctions
    | ready =>
      rw [checkReady_of_ne (by simp [found])]
      exact goesOn

theorem finds_checkLoop (scopes : Scopes κ) (loops functions : Nat) (keyword : Token) :
    Finds scopes loops functions scopes
      (if loops = 0 then .refused (.error ⟨.noLoop keyword.lexeme, keyword.line⟩) else .nothing)
      (checkLoop keyword) := by
  intro s inScopes inLoops inFunctions
  show Ends _ _ _ ((if s.loopDepth = 0
    then throw (.error ⟨.noLoop keyword.lexeme, keyword.line⟩) else pure () : Resolving Unit) s)
  rw [inLoops]
  split
  · exact finds_refused scopes scopes loops functions _ s inScopes inLoops inFunctions
  · exact finds_pure scopes loops functions s inScopes inLoops inFunctions

theorem finds_checkFunction (scopes : Scopes κ) (loops functions : Nat) (keyword : Token) :
    Finds scopes loops functions scopes
      (if functions = 0 then .refused (.error ⟨.noFunction, keyword.line⟩) else .nothing)
      (checkFunction keyword) := by
  intro s inScopes inLoops inFunctions
  show Ends _ _ _ ((if s.functionDepth = 0
    then throw (.error ⟨.noFunction, keyword.line⟩) else pure () : Resolving Unit) s)
  rw [inFunctions]
  split
  · exact finds_refused scopes scopes loops functions _ s inScopes inLoops inFunctions
  · exact finds_pure scopes loops functions s inScopes inLoops inFunctions

/-- A walk in a scope of its own leaves the scopes around it. -/
theorem Finds.inScope (label : κ) {scopes inner : Scopes κ} {loops functions : Nat}
    {found : Findings κ} {walk : Resolving Unit}
    (walks : Finds ((label, ∅) :: scopes) loops functions inner found walk)
    (around : inner.names.tail = scopes.names) :
    Finds scopes loops functions scopes found (inScope walk) := by
  intro s inScopes inLoops inFunctions
  have ends := walks { s with scopes := ∅ :: s.scopes } (by rw [inScopes]; rfl) inLoops inFunctions
  simp only [Resolving.inScope, within]
  cases run : walk { s with scopes := ∅ :: s.scopes } with
  | ok u s' =>
    rw [run] at ends
    obtain ⟨goesOn, rfl⟩ := ends
    exact ⟨goesOn, by simp [around]⟩
  | error r s' =>
    rw [run] at ends
    exact ends

/-- A walk in a loop leaves the loops around it. -/
theorem Finds.inLoop {scopes after : Scopes κ} {loops functions : Nat} {found : Findings κ}
    {walk : Resolving Unit} (walks : Finds scopes (loops + 1) functions after found walk) :
    Finds scopes loops functions after found (inLoop walk) := by
  intro s inScopes inLoops inFunctions
  have ends := walks { s with loopDepth := s.loopDepth + 1 } inScopes (by rw [inLoops]) inFunctions
  simp only [Resolving.inLoop, within]
  cases run : walk { s with loopDepth := s.loopDepth + 1 } with
  | ok u s' =>
    rw [run] at ends
    obtain ⟨goesOn, rfl⟩ := ends
    exact ⟨goesOn, by simp⟩
  | error r s' =>
    rw [run] at ends
    exact ends

/-- A walk in a function leaves the scopes, the loops and the functions around it. -/
theorem Finds.inFunction (label : κ) {scopes inner : Scopes κ} {loops functions : Nat}
    {found : Findings κ} {walk : Resolving Unit}
    (walks : Finds ((label, ∅) :: scopes) 0 (functions + 1) inner found walk)
    (around : inner.names.tail = scopes.names) :
    Finds scopes loops functions scopes found (inFunction walk) := by
  intro s inScopes inLoops inFunctions
  have ends := walks.inScope label around { s with loopDepth := 0, functionDepth := s.functionDepth + 1 }
    inScopes rfl (by rw [inFunctions])
  have unfolded : Resolving.inFunction walk s = within
      (fun s => { s with loopDepth := 0, functionDepth := s.functionDepth + 1 })
      (fun s' => { s' with loopDepth := s.loopDepth, functionDepth := s'.functionDepth - 1 })
      (Resolving.inScope walk) s := rfl
  rw [unfolded]
  simp only [within]
  cases run : Resolving.inScope walk
      { s with loopDepth := 0, functionDepth := s.functionDepth + 1 } with
  | ok u s' =>
    rw [run] at ends
    obtain ⟨goesOn, rfl⟩ := ends
    exact ⟨goesOn, by simp⟩
  | error r s' =>
    rw [run] at ends
    exact ends

/-! ## Scopes around the innermost one -/

theorem Scopes.tail_declare (scopes : Scopes κ) (name : Token) (readiness : Readiness) :
    (scopes.declare name readiness).tail = scopes.tail := by
  cases scopes <;> rfl

mutual

theorem Stmt.tail_after (scopes : Scopes κ) (s : Stmt) : (s.after scopes).tail = scopes.tail := by
  cases s with
  | declaration name initializer =>
    cases initializer <;> simp [Stmt.after, Scopes.tail_declare]
  | ifElse _ thenBranch elseBranch =>
    rw [Stmt.after, Stmt.tail_optionAfter _ elseBranch, Stmt.tail_after _ thenBranch]
  | whileLoop _ body _ => rw [Stmt.after, Stmt.tail_after _ body]
  | _ => simp [Stmt.after]

theorem Stmt.tail_optionAfter (scopes : Scopes κ) (s? : Option Stmt) :
    (Stmt.optionAfter scopes s?).tail = scopes.tail := by
  cases s? with
  | none => rfl
  | some s => exact Stmt.tail_after scopes s

end

mutual

/-- Outside of all scopes a statement leaves none. -/
theorem Stmt.after_nil (s : Stmt) : s.after ([] : Scopes κ) = [] := by
  cases s with
  | declaration name initializer => cases initializer <;> rfl
  | ifElse _ thenBranch elseBranch =>
    rw [Stmt.after, Stmt.after_nil thenBranch, Stmt.optionAfter_nil elseBranch]
  | whileLoop _ body _ => rw [Stmt.after, Stmt.after_nil body]
  | _ => rfl

theorem Stmt.optionAfter_nil (s? : Option Stmt) :
    Stmt.optionAfter ([] : Scopes κ) s? = [] := by
  cases s? with
  | none => rfl
  | some s => exact Stmt.after_nil s

end

theorem Scopes.tail_names (scopes : Scopes κ) : scopes.names.tail = Scopes.names scopes.tail :=
  List.map_tail.symm

theorem Stmt.tail_allAfter (scopes : Scopes κ) (ss : List Stmt) :
    (Stmt.allAfter scopes ss).tail = scopes.tail := by
  induction ss generalizing scopes with
  | nil => rfl
  | cons s rest ih => exact (ih _).trans (Stmt.tail_after scopes s)

theorem Scopes.tail_declareAll (params : List Token) (scopes : Scopes κ) :
    (scopes.declareAll params).tail = scopes.tail := by
  induction params generalizing scopes with
  | nil => rfl
  | cons name rest ih => exact (ih _).trans (Scopes.tail_declare scopes name .ready)

/-! ## Every walk -/

theorem finds_declareAll (params : List Token) (scopes : Scopes κ) (loops functions : Nat) :
    Finds scopes loops functions (scopes.declareAll params) .nothing
      (params.forM (mark · .ready)) := by
  induction params generalizing scopes with
  | nil => exact finds_pure scopes loops functions
  | cons name rest ih =>
    exact (finds_mark scopes loops functions name .ready).bind (ih _)

variable (label : ScopeNode → κ)

mutual

theorem Expr.finds (e : Expr) (scopes : Scopes κ) (loops functions : Nat) :
    Finds scopes loops functions scopes (e.walk label scopes loops functions) e.resolve := by
  cases e with
  | literal => exact finds_pure scopes loops functions
  | grouping _ inner | unary _ _ inner | step _ inner _ =>
    exact Expr.finds inner scopes loops functions
  | binary _ left _ right | logical _ left _ right =>
    exact (Expr.finds left scopes loops functions).bind (Expr.finds right scopes loops functions)
  | reference id name =>
    exact (finds_checkReady scopes loops functions name).bind
      (finds_note scopes loops functions id .reference name)
  | assignment id name value =>
    exact (Expr.finds value scopes loops functions).bind
      (finds_note scopes loops functions id .assignment name)
  | call _ callee arguments _ =>
    exact (Expr.finds callee scopes loops functions).bind
      (Expr.finds_all arguments scopes loops functions)
  | lambda _ keyword params body name =>
    refine Finds.inFunction (label (.function keyword params body name))
      ((finds_declareAll params _ 0 (functions + 1)).bind
        (Stmt.finds_all body _ 0 (functions + 1))) ?_
    rw [Scopes.tail_names, Stmt.tail_allAfter, Scopes.tail_declareAll]
    rfl
  | misplaced kind => exact finds_refused scopes scopes loops functions (.misplaced kind)

theorem Expr.finds_all (es : List Expr) (scopes : Scopes κ) (loops functions : Nat) :
    Finds scopes loops functions scopes (Expr.walkAll label scopes loops functions es)
      (Expr.resolveAll es) := by
  cases es with
  | nil => exact finds_pure scopes loops functions
  | cons e rest =>
    exact (Expr.finds e scopes loops functions).bind (Expr.finds_all rest scopes loops functions)

theorem Expr.finds_option (e? : Option Expr) (scopes : Scopes κ) (loops functions : Nat) :
    Finds scopes loops functions scopes (Expr.walkOption label scopes loops functions e?)
      (Expr.resolveOption e?) := by
  cases e? with
  | none => exact finds_pure scopes loops functions
  | some e => exact Expr.finds e scopes loops functions

theorem Stmt.finds (s : Stmt) (scopes : Scopes κ) (loops functions : Nat) :
    Finds scopes loops functions (s.after scopes) (s.walk label scopes loops functions)
      s.resolve := by
  cases s with
  | expression e => exact Expr.finds e scopes loops functions
  | declaration name initializer =>
    cases initializer with
    | none => exact finds_mark scopes loops functions name .ready
    | some e =>
      have walked := (finds_mark scopes loops functions name e.readiness).bind
        ((Expr.finds e (scopes.declare name e.readiness) loops functions).bind
          (finds_mark _ loops functions name .ready))
      rwa [Findings.andThen_nothing] at walked
  | block statements =>
    refine Finds.inScope (label (.block statements))
      (Stmt.finds_all statements _ loops functions) ?_
    rw [Scopes.tail_names, Stmt.tail_allAfter]
    rfl
  | ifElse condition thenBranch elseBranch =>
    exact (Expr.finds condition scopes loops functions).bind
      ((Stmt.finds thenBranch scopes loops functions).bind
        (Stmt.finds_option elseBranch _ loops functions))
  | whileLoop condition body increment =>
    exact (Expr.finds condition scopes loops functions).bind
      ((Stmt.finds body scopes (loops + 1) functions).inLoop.bind
        (Expr.finds_option increment _ loops functions))
  | breakLoop keyword | continueLoop keyword =>
    exact finds_checkLoop scopes loops functions keyword
  | returnValue keyword value =>
    have walked := (finds_checkFunction scopes loops functions keyword).bind
      (Expr.finds_option value scopes loops functions)
    rw [Stmt.walk]
    by_cases outside : functions = 0
    · simp only [outside, if_true] at walked ⊢
      exact walked
    · simp only [outside, if_false] at walked ⊢
      exact walked
  | misplaced kind => exact finds_refused scopes _ loops functions (.misplaced kind)

theorem Stmt.finds_all (ss : List Stmt) (scopes : Scopes κ) (loops functions : Nat) :
    Finds scopes loops functions (Stmt.allAfter scopes ss)
      (Stmt.walkAll label scopes loops functions ss) (Stmt.resolveAll ss) := by
  cases ss with
  | nil => exact finds_pure scopes loops functions
  | cons s rest =>
    exact (Stmt.finds s scopes loops functions).bind (Stmt.finds_all rest _ loops functions)

theorem Stmt.finds_option (s? : Option Stmt) (scopes : Scopes κ) (loops functions : Nat) :
    Finds scopes loops functions (Stmt.optionAfter scopes s?)
      (Stmt.walkOption label scopes loops functions s?) (Stmt.resolveOption s?) := by
  cases s? with
  | none => exact finds_pure scopes loops functions
  | some s => exact Stmt.finds s scopes loops functions

end

/-- What a walk over a whole program finds. -/
def Program.findings (p : Program) : Findings κ := Stmt.walkAll label [] 0 0 p

/-- The resolution of a program is what a walk over it finds. -/
theorem Program.resolution_eq (p : Program) :
    p.resolution = ⟨(Program.findings label p).uses,
      match (Program.findings label p).refusal with
      | none => .ok ()
      | some r => .error r⟩ := by
  have ends := Stmt.finds_all label p [] 0 0 .start rfl rfl rfl
  rw [Program.findings, Program.resolution, Resolving.resolution, EStateM.run]
  cases run : Stmt.resolveAll p .start with
  | ok u s =>
    rw [run] at ends
    obtain ⟨goesOn, rfl⟩ := ends
    simp [goesOn, Survey.start]
  | error r s =>
    rw [run] at ends
    obtain ⟨stops, noted⟩ := ends
    simp [stops, noted, Survey.start]

/-- In walks for uses alone the scopes have no labels. -/
abbrev unlabelled : ScopeNode → Unit := fun _ => ()

theorem Program.uses_eq (p : Program) :
    p.resolution.uses = (Program.findings unlabelled p).notes.map (·.use) := by
  rw [Program.resolution_eq unlabelled p]
  rfl

theorem Program.accepted_iff {p : Program} :
    p.resolution.outcome = .ok () ↔ (Program.findings unlabelled p).refusal = none := by
  rw [Program.resolution_eq unlabelled p]
  cases (Program.findings unlabelled p).refusal <;> simp

/-- Whether a program is accepted can be computed. -/
theorem Program.accepted_of_isOk {p : Program} (isOk : p.resolution.outcome.isOk = true) :
    p.resolution.outcome = .ok () := by
  revert isOk
  cases p.resolution.outcome with
  | error e => exact nofun
  | ok u => exact fun _ => rfl

end Lox
