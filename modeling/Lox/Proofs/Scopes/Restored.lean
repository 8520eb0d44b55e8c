import Lox.Proofs.Scopes.Walk

/-!
# What walks leave as it was

A walk that ends early, at any depth, leaves the scopes around the innermost one and the counts of
loops and functions as they were, and so does one that ends normally. In the innermost scope it
changes at most the names that are declared there. Main statement: no walk leaves anything behind
outside of all scopes, so that programs are resolved alike whatever was resolved before them.
-/

namespace Lox

/-! ## Names that are declared in a scope -/

mutual

/-- The names that a statement declares in the scope that it stands in. -/
def Stmt.ownNames : Stmt → List String
  | .declaration name _ => [name.lexeme]
  | .ifElse _ thenBranch elseBranch => thenBranch.ownNames ++ Stmt.optionOwnNames elseBranch
  | .whileLoop _ body _ => body.ownNames
  | _ => []

/-- The names that a statement declares that may be absent. -/
def Stmt.optionOwnNames : Option Stmt → List String
  | none => []
  | some s => s.ownNames

end

/-- The names that statements declare in the scope that they stand in. -/
def Stmt.allOwnNames (ss : List Stmt) : List String := ss.flatMap Stmt.ownNames

/-! ## Places that are the same but for some names -/

/-- A scope has all names of another one, and the same entries but for the given names. -/
structure Scope.Grown (names : List String) (scope scope' : Scope) : Prop where
  kept : ∀ name, name ∈ scope → name ∈ scope'
  others : ∀ name, name ∉ names → scope'[name]? = scope[name]?

/-- The innermost scope has grown, and the scopes around it are the same. -/
def TopGrown (names : List String) : List Scope → List Scope → Prop
  | [], [] => True
  | scope :: outer, scope' :: outer' => Scope.Grown names scope scope' ∧ outer' = outer
  | _, _ => False

/-- A place with as many scopes, loops and functions around it as another one, and with the same
scopes but for the given names in the innermost one. -/
structure Survey.Restored (names : List String) (s s' : Survey) : Prop where
  scopes : TopGrown names s.scopes s'.scopes
  loopDepth : s'.loopDepth = s.loopDepth
  functionDepth : s'.functionDepth = s.functionDepth

section
variable {names : List String}

theorem Scope.Grown.refl (scope : Scope) : Scope.Grown names scope scope :=
  ⟨fun _ member => member, fun _ _ => rfl⟩

theorem Scope.grown_insert {name : String} (inside : name ∈ names) (scope : Scope)
    (readiness : Readiness) : Scope.Grown names scope (scope.insert name readiness) := by
  refine ⟨fun other member => Std.TreeMap.mem_insert.2 (.inr member), fun other outside => ?_⟩
  have different : name ≠ other := fun same => outside (same ▸ inside)
  rw [Std.TreeMap.getElem?_insert, if_neg (by simpa using different)]

theorem TopGrown.refl (scopes : List Scope) : TopGrown names scopes scopes := by
  cases scopes with
  | nil => trivial
  | cons scope outer => exact ⟨.refl scope, rfl⟩

theorem TopGrown.trans {scopes middle after : List Scope} (first : TopGrown names scopes middle)
    (second : TopGrown names middle after) : TopGrown names scopes after := by
  match scopes, middle, after with
  | [], [], [] => trivial
  | scope :: _, _ :: _, scope' :: _ =>
    obtain ⟨grown, rfl⟩ := first
    obtain ⟨grown', rfl⟩ := second
    refine ⟨⟨fun name member => grown'.kept name (grown.kept name member), ?_⟩, rfl⟩
    intro name outside
    rw [grown'.others name outside, grown.others name outside]

/-- What is left of scopes, less the innermost one. -/
theorem TopGrown.tail {scope : Scope} {outer after : List Scope}
    (grown : TopGrown names (scope :: outer) after) : after.tail = outer := by
  match after with
  | _ :: _ => exact grown.2

theorem TopGrown.eq_nil {after : List Scope} (grown : TopGrown names [] after) : after = [] := by
  match after with
  | [] => rfl

instance : Std.Refl (Survey.Restored names) := ⟨fun s => ⟨.refl s.scopes, rfl, rfl⟩⟩

instance : Trans (Survey.Restored names) (Survey.Restored names) (Survey.Restored names) :=
  ⟨fun first second => ⟨first.scopes.trans second.scopes, second.loopDepth.trans first.loopDepth,
    second.functionDepth.trans first.functionDepth⟩⟩

/-! ## Parts of walks -/

open Resolving

theorem stateLeft_within (enter leave : Survey → Survey) (walk : Resolving Unit) (s : Survey) :
    stateLeft (within enter leave walk s) = leave (stateLeft (walk (enter s))) := by
  unfold within
  cases walk (enter s) <;> rfl

theorem restored_mark {name : Token} (inside : name.lexeme ∈ names) (readiness : Readiness) :
    Keeps (Survey.Restored names) (mark name readiness) := by
  refine keeps_modify fun s => ?_
  unfold Survey.mark
  split
  · exact Std.Refl.refl s
  · next scope outer around =>
    refine ⟨?_, rfl, rfl⟩
    rw [around]
    exact ⟨Scope.grown_insert inside scope readiness, rfl⟩

theorem restored_note (id : Nat) (form : UseForm) (name : Token) :
    Keeps (Survey.Restored names) (note id form name) := by
  refine Keeps.bind keeps_get fun s => ?_
  split
  · exact keeps_modify fun s => ⟨.refl s.scopes, rfl, rfl⟩
  · exact keeps_pure _

theorem restored_checkReady (name : Token) : Keeps (Survey.Restored names) (checkReady name) := by
  refine Keeps.bind keeps_get fun s => ?_
  split
  · exact keeps_throw _
  · exact keeps_pure _

theorem restored_checkLoop (keyword : Token) :
    Keeps (Survey.Restored names) (checkLoop keyword) := by
  refine Keeps.bind keeps_get fun s => ?_
  split
  · exact keeps_throw _
  · exact keeps_pure _

theorem restored_checkFunction (keyword : Token) :
    Keeps (Survey.Restored names) (checkFunction keyword) := by
  refine Keeps.bind keeps_get fun s => ?_
  split
  · exact keeps_throw _
  · exact keeps_pure _

/-- The scope of a walk is gone after it, whatever was declared there. -/
theorem restored_inScope {inner : List String} {walk : Resolving Unit}
    (keeps : Keeps (Survey.Restored inner) walk) : Keeps (Survey.Restored names) (inScope walk) := by
  intro s
  have kept := keeps { s with scopes := ∅ :: s.scopes }
  unfold inScope
  rw [stateLeft_within]
  refine ⟨?_, kept.loopDepth, kept.functionDepth⟩
  dsimp only
  rw [kept.scopes.tail]
  exact .refl s.scopes

theorem restored_inLoop {walk : Resolving Unit} (keeps : Keeps (Survey.Restored names) walk) :
    Keeps (Survey.Restored names) (inLoop walk) := by
  intro s
  have kept := keeps { s with loopDepth := s.loopDepth + 1 }
  unfold inLoop
  rw [stateLeft_within]
  refine ⟨kept.scopes, ?_, kept.functionDepth⟩
  dsimp only
  rw [kept.loopDepth, Nat.add_sub_cancel]

/-- The count of loops restarts in a function and is put back after it. -/
theorem restored_inFunction (inner : List String) {walk : Resolving Unit}
    (keeps : Keeps (Survey.Restored inner) walk) :
    Keeps (Survey.Restored names) (inFunction walk) := by
  intro s
  have inside : Keeps (Survey.Restored names) (inScope walk) := restored_inScope keeps
  have kept := inside { s with loopDepth := 0, functionDepth := s.functionDepth + 1 }
  show Survey.Restored names s (stateLeft (within
    (fun s => { s with loopDepth := 0, functionDepth := s.functionDepth + 1 })
    (fun s' => { s' with loopDepth := s.loopDepth, functionDepth := s'.functionDepth - 1 })
    (inScope walk) s))
  rw [stateLeft_within]
  refine ⟨kept.scopes, rfl, ?_⟩
  dsimp only
  rw [kept.functionDepth, Nat.add_sub_cancel]

theorem restored_params {params : List Token} (inside : ∀ name ∈ params, name.lexeme ∈ names) :
    Keeps (Survey.Restored names) (params.forM (mark · .ready)) := by
  induction params with
  | nil => exact keeps_pure _
  | cons name rest ih =>
    obtain ⟨first, others⟩ := List.forall_mem_cons.1 inside
    exact (restored_mark first .ready).bind fun _ => ih others

end

/-! ## Every walk -/

mutual

/-- An expression declares nothing where it stands. -/
theorem Expr.restores (names : List String) (e : Expr) :
    Keeps (Survey.Restored names) e.resolve := by
  cases e with
  | literal => exact keeps_pure _
  | grouping _ inner | unary _ _ inner | step _ inner _ => exact Expr.restores names inner
  | binary _ left _ right | logical _ left _ right =>
    exact (Expr.restores names left).bind fun _ => Expr.restores names right
  | reference id name =>
    exact (restored_checkReady name).bind fun _ => restored_note id .reference name
  | assignment id name value =>
    exact (Expr.restores names value).bind fun _ => restored_note id .assignment name
  | call _ callee arguments _ =>
    exact (Expr.restores names callee).bind fun _ => Expr.restores_all names arguments
  | lambda _ _ params body _ =>
    refine restored_inFunction (params.map (·.lexeme) ++ Stmt.allOwnNames body)
      ((restored_params fun name member => ?_).bind fun _ =>
        Stmt.restores_all _ body fun name member => ?_)
    · exact List.mem_append_left _ (List.mem_map_of_mem member)
    · exact List.mem_append_right _ member
  | misplaced kind => exact keeps_throw _

theorem Expr.restores_all (names : List String) (es : List Expr) :
    Keeps (Survey.Restored names) (Expr.resolveAll es) := by
  cases es with
  | nil => exact keeps_pure _
  | cons e rest => exact (Expr.restores names e).bind fun _ => Expr.restores_all names rest

theorem Expr.restores_option (names : List String) (e? : Option Expr) :
    Keeps (Survey.Restored names) (Expr.resolveOption e?) := by
  cases e? with
  | none => exact keeps_pure _
  | some e => exact Expr.restores names e

theorem Stmt.restores (names : List String) (s : Stmt)
    (inside : ∀ name ∈ s.ownNames, name ∈ names) : Keeps (Survey.Restored names) s.resolve := by
  cases s with
  | expression e => exact Expr.restores names e
  | declaration name initializer =>
    have own : name.lexeme ∈ names := inside _ (List.mem_singleton_self _)
    cases initializer with
    | none => exact restored_mark own .ready
    | some e =>
      exact (restored_mark own _).bind fun _ =>
        (Expr.restores names e).bind fun _ => restored_mark own .ready
  | block statements =>
    exact restored_inScope (Stmt.restores_all _ statements fun _ member => member)
  | ifElse condition thenBranch elseBranch =>
    obtain ⟨inThen, inElse⟩ := List.forall_mem_append.1 inside
    exact (Expr.restores names condition).bind fun _ =>
      (Stmt.restores names thenBranch inThen).bind fun _ =>
        Stmt.restores_option names elseBranch inElse
  | whileLoop condition body increment =>
    exact (Expr.restores names condition).bind fun _ =>
      (restored_inLoop (Stmt.restores names body inside)).bind fun _ =>
        Expr.restores_option names increment
  | breakLoop keyword | continueLoop keyword => exact restored_checkLoop keyword
  | returnValue keyword value =>
    exact (restored_checkFunction keyword).bind fun _ => Expr.restores_option names value
  | misplaced kind => exact keeps_throw _

theorem Stmt.restores_all (names : List String) (ss : List Stmt)
    (inside : ∀ name ∈ Stmt.allOwnNames ss, name ∈ names) :
    Keeps (Survey.Restored names) (Stmt.resolveAll ss) := by
  cases ss with
  | nil => exact keeps_pure _
  | cons s rest =>
    obtain ⟨inFirst, inRest⟩ := List.forall_mem_append.1 inside
    exact (Stmt.restores names s inFirst).bind fun _ => Stmt.restores_all names rest inRest

theorem Stmt.restores_option (names : List String) (s? : Option Stmt)
    (inside : ∀ name ∈ Stmt.optionOwnNames s?, name ∈ names) :
    Keeps (Survey.Restored names) (Stmt.resolveOption s?) := by
  cases s? with
  | none => exact keeps_pure _
  | some s => exact Stmt.restores names s inside

end

/-! ## Names are ready once they are declared -/

/-- A name is ready in the innermost scope, if there is one. -/
def ReadyIn (name : String) (scopes : List Scope) : Prop :=
  ∀ scope ∈ scopes.head?, scope[name]? = some .ready

section
variable {κ : Type} {scopes : Scopes κ}

theorem readyIn_declare (name : Token) (scopes : Scopes κ) :
    ReadyIn name.lexeme (scopes.declare name .ready).names := by
  cases scopes with
  | nil => simp [Scopes.declare, Scopes.names, ReadyIn]
  | cons head outer => simp [Scopes.declare, Scopes.names, ReadyIn]

theorem ReadyIn.declare {other : String} (ready : ReadyIn other scopes.names) (name : Token)
    {readiness : Readiness} (isOther : readiness = .ready ∨ name.lexeme ≠ other) :
    ReadyIn other (scopes.declare name readiness).names := by
  cases scopes with
  | nil => exact ready
  | cons head outer =>
    have before : head.2[other]? = some .ready := ready head.2 rfl
    simp only [Scopes.declare, Scopes.names, ReadyIn, List.map_cons, List.head?_cons,
      Option.mem_some_iff, forall_eq', Std.TreeMap.getElem?_insert]
    split
    · next same =>
      obtain rfl | different := isOther
      · rfl
      · exact absurd (by simpa using same) different
    · exact before

mutual

/-- A declaration leaves names ready: its own at its end, and the others throughout. -/
theorem ReadyIn.after {name : String} {scopes : Scopes κ} (s : Stmt)
    (ready : name ∈ s.ownNames ∨ ReadyIn name scopes.names) :
    ReadyIn name (s.after scopes).names := by
  cases s with
  | declaration own initializer =>
    by_cases same : own.lexeme = name
    · subst same
      cases initializer <;> exact readyIn_declare own _
    · have before : ReadyIn name scopes.names :=
        ready.resolve_left fun member => same (List.mem_singleton.1 member).symm
      cases initializer with
      | none => exact before.declare own (.inl rfl)
      | some e => exact (before.declare own (.inr same)).declare own (.inl rfl)
  | ifElse _ thenBranch elseBranch =>
    refine ReadyIn.optionAfter elseBranch ?_
    rw [Stmt.ownNames, List.mem_append, or_assoc] at ready
    obtain inThen | inElse | before := ready
    · exact .inr (ReadyIn.after thenBranch (.inl inThen))
    · exact .inl inElse
    · exact .inr (ReadyIn.after thenBranch (.inr before))
  | whileLoop _ body _ => exact ReadyIn.after body ready
  | expression | block | breakLoop | continueLoop | returnValue | misplaced =>
    exact ready.resolve_left List.not_mem_nil

theorem ReadyIn.optionAfter {name : String} {scopes : Scopes κ} (s? : Option Stmt)
    (ready : name ∈ Stmt.optionOwnNames s? ∨ ReadyIn name scopes.names) :
    ReadyIn name (Stmt.optionAfter scopes s?).names := by
  cases s? with
  | none => exact ready.resolve_left List.not_mem_nil
  | some s => exact ReadyIn.after s ready

end

end

/-- The scopes around a place without any labels. -/
def Survey.unlabelled (s : Survey) : Scopes Unit := s.scopes.map fun scope => ((), scope)

theorem Survey.names_unlabelled (s : Survey) : s.unlabelled.names = s.scopes := by
  rw [Survey.unlabelled, Scopes.names, List.map_map]
  exact List.map_id' s.scopes

/-- A statement that is accepted leaves no name that it declares without its value. -/
theorem Stmt.ready_of_accepted {t : Stmt} {s s' : Survey} (accepted : t.resolve s = .ok () s')
    {name : String} (own : name ∈ t.ownNames) : ReadyIn name s'.scopes := by
  have ends := Stmt.finds Lox.unlabelled t s.unlabelled s.loopDepth s.functionDepth s
    s.names_unlabelled.symm rfl rfl
  rw [accepted] at ends
  obtain ⟨_, rfl⟩ := ends
  exact ReadyIn.after t (.inl own)

/-! ## Outside of all scopes -/

/-- A place outside of all scopes, loops and functions. -/
structure Survey.Outside (s : Survey) : Prop where
  scopes : s.scopes = []
  loopDepth : s.loopDepth = 0
  functionDepth : s.functionDepth = 0

theorem Survey.Restored.outside {names : List String} {s s' : Survey}
    (restored : s.Restored names s') (outside : s.Outside) : s'.Outside := by
  have grown := restored.scopes
  rw [outside.scopes] at grown
  exact ⟨grown.eq_nil, restored.loopDepth.trans outside.loopDepth,
    restored.functionDepth.trans outside.functionDepth⟩

theorem Survey.Outside.eq {s s' : Survey} (outside : s.Outside) (outside' : s'.Outside)
    (uses : s.uses = s'.uses) : s = s' := by
  obtain ⟨_, _, _, _⟩ := s
  obtain ⟨_, _, _, _⟩ := s'
  obtain ⟨rfl, rfl, rfl⟩ := outside
  obtain ⟨rfl, rfl, rfl⟩ := outside'
  exact congrArg (Survey.mk [] 0 0) uses

/-- How a walk has ended, with other uses noted before it. -/
def Resolving.behind (uses : Array Use) :
    EStateM.Result Refusal Survey Unit → EStateM.Result Refusal Survey Unit
  | .ok u s => .ok u { s with uses := uses ++ s.uses }
  | .error r s => .error r { s with uses := uses ++ s.uses }

theorem Ends.uses {κ : Type} {after : Scopes κ} {found : Findings κ} {s : Survey}
    {result : EStateM.Result Refusal Survey Unit} (ends : Ends after found s result) :
    (stateLeft result).uses = s.uses ++ found.uses := by
  cases result with
  | ok u s' =>
    obtain ⟨_, rfl⟩ := ends
    rfl
  | error r s' => exact ends.2

/-- Two walks that find the same outside of all scopes end alike. -/
theorem Ends.behind {κ : Type} {after : Scopes κ} {found : Findings κ} {s : Survey}
    {result result' : EStateM.Result Refusal Survey Unit} (ends : Ends after found s result)
    (ends' : Ends after found .start result') (left : (stateLeft result).Outside)
    (left' : (stateLeft result').Outside) : result = Resolving.behind s.uses result' := by
  have uses : (stateLeft result).uses = s.uses ++ (stateLeft result').uses := by
    apply Array.ext'
    simp [ends.uses, ends'.uses, Survey.start]
  have same : stateLeft result = { stateLeft result' with uses := s.uses ++ (stateLeft result').uses } :=
    left.eq ⟨left'.scopes, left'.loopDepth, left'.functionDepth⟩ uses
  cases result with
  | ok u s' =>
    cases result' with
    | ok u' s'' => exact congrArg (EStateM.Result.ok u) same
    | error r s'' => cases ends.1.symm.trans ends'.1
  | error r s' =>
    cases result' with
    | ok u s'' => cases ends.1.symm.trans ends'.1
    | error r' s'' =>
      obtain rfl : r = r' := Option.some.inj (ends.1.symm.trans ends'.1)
      exact congrArg (EStateM.Result.error r) same

theorem Stmt.outside_of_resolveAll (p : Program) {s : Survey} (outside : s.Outside) :
    (stateLeft (Stmt.resolveAll p s)).Outside :=
  (Stmt.restores_all _ p (fun _ member => member) s).outside outside

/-- A program is resolved alike from all places outside of all scopes. -/
theorem Stmt.resolveAll_outside (p : Program) {s : Survey} (outside : s.Outside) :
    Stmt.resolveAll p s = Resolving.behind s.uses (Stmt.resolveAll p .start) := by
  have starts : Survey.start.Outside := ⟨rfl, rfl, rfl⟩
  have walks := Stmt.finds_all unlabelled p [] 0 0
  have ends := walks s outside.scopes outside.loopDepth outside.functionDepth
  exact ends.behind (walks .start rfl rfl rfl) (Stmt.outside_of_resolveAll p outside)
    (Stmt.outside_of_resolveAll p starts)

/-- However the walk over an expression or a statement ends, it leaves the scopes, loops and functions
around the place as they were, but for names that the statement itself declares in the innermost
scope; and if it ends normally, these names have their values. Thus nothing is left outside of all
scopes, and a program is resolved there as it would be at the start, behind the uses noted before. -/
theorem walk_restores :
    (∀ (e : Expr) (s : Survey), s.Restored [] (stateLeft (e.resolve s))) ∧
      (∀ (t : Stmt) (s : Survey), s.Restored t.ownNames (stateLeft (t.resolve s)) ∧
        ∀ s', t.resolve s = .ok () s' → ∀ name ∈ t.ownNames, ReadyIn name s'.scopes) ∧
      ∀ s : Survey, s.Outside → ∀ p q : Program,
        let s' := stateLeft (Stmt.resolveAll p s)
        s'.Outside ∧ Stmt.resolveAll q s' = Resolving.behind s'.uses (Stmt.resolveAll q .start) := by
  refine ⟨Expr.restores [], fun t s => ⟨?_, ?_⟩, fun s outside p q => ?_⟩
  · exact Stmt.restores _ t (fun _ member => member) s
  · intro s' accepted name own
    exact Stmt.ready_of_accepted accepted own
  · have outside' := Stmt.outside_of_resolveAll p outside
    exact ⟨outside', Stmt.resolveAll_outside q outside'⟩

/-- A jump in a function in a loop is refused deep inside of the program, and the next program is
resolved as at the start. -/
theorem break_in_function_restores :
    let name : Token := ⟨.identifier, "a", .nil, 1⟩
    let function : Expr := .lambda 2 ⟨.funWord, "fun", .nil, 1⟩ [name]
      [.breakLoop ⟨.breakWord, "break", .nil, 1⟩] none
    let p : Program := [.whileLoop (.literal 1 (.bool true)) (.block [.expression function]) none]
    let q : Program := [.block [.declaration name none, .expression (.reference 3 name)]]
    let s' := stateLeft (Stmt.resolveAll p .start)
    Survey.start.Outside ∧
      Stmt.resolveAll p .start = .error (.error ⟨.noLoop "break", 1⟩) s' ∧
      s'.Outside ∧ Stmt.resolveAll q s' = Resolving.behind s'.uses (Stmt.resolveAll q .start) := by
  intro name function p q s'
  have starts : Survey.start.Outside := ⟨rfl, rfl, rfl⟩
  exact ⟨starts, rfl, walk_restores.2.2 .start starts p q⟩

end Lox
