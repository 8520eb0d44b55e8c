import Lox.Proofs.Alike.Same
import Lox.Proofs.Nearest.Trees
import Lox.Proofs.Safety.Accepted

/-!
# Accepted programs that declare names first

While such a program is walked, the names of a scope, those that its frame has when the place is run, and
those that its block or function declares are the same but for names that are still to come. A use is of
none of these. So the frame at its distance has its name, and the frames before that one never get it.
-/

namespace Lox

/-! ## Frames that never get a name -/

/-- The names that a block or a function declares itself. -/
def ScopeNode.declared : ScopeNode → List String
  | .block statements => Stmt.allDeclare statements
  | .function _ params body _ => params.map (·.lexeme) ++ Stmt.allDeclare body

/-- A frame was made by entering something that does not declare the name. -/
def Origin.Lacks (origin : Origin) (name : String) : Prop :=
  ∃ node, origin = some node ∧ name ∉ node.declared

/-- Of the frames around a use, none before the one at its distance gets its name; if it has no distance,
none but the global one does. -/
def Reaches (T : Distances) (around : List Origin) (id : Nat) (name : String) : Prop :=
  ∃ nearer owner farther, around = nearer ++ owner :: farther ∧
    (∀ origin ∈ nearer, Origin.Lacks origin name) ∧
    match T[id]? with
    | some distance => nearer.length = distance
    | none => owner = none ∧ farther = []

/-- A tree is like itself if each use reaches its variable at its distance, and each frame gets only
names that were declared by what was entered. -/
def Likeness.declaring (T : Distances) : Likeness Origin where
  lines line line' := line' = line
  enters _ node node' mark := node' = node ∧ mark = some node
  uses around id name id' name' := id' = id ∧ name' = name ∧ Reaches T around id name.lexeme
  names around name name' := name' = name ∧
    ∀ node, around.head? = some (some node) → name.lexeme ∈ node.declared
  missing name name' := name' = name

/-- The frames that are made by entering nodes, inside of the global one. -/
def origins (nodes : List ScopeNode) : List Origin := nodes.map some ++ [none]

/-- Variables have their values before they are used. -/
def Usage.certain (T : Distances) : Usage := ⟨T, fun _ _ => True, True⟩

/-! ## Names of a scope, its frame and its node -/

/-- The names that are still to be declared for the first time. -/
def awaited (before names : List String) : List String := names.filter (· ∉ before)

theorem mem_awaited {before names : List String} {name : String} :
    name ∈ awaited before names ↔ name ∈ names ∧ name ∉ before := by
  simp [awaited]

/-- A name is in none of the lists of names that the scopes around a place are still to declare. -/
def Names.Lack (ahead : Names) (name : Token) : Prop := ∀ names ∈ ahead, name.lexeme ∉ names

/-- The names in a scope, those that its frame has and those that its node declares are the same but for
some that are still to come. -/
structure Scope.SameBut (scope : Scope) (names coming : List String) (node : ScopeNode) : Prop where
  named : ∀ name ∈ names, (scope[name]?).isSome
  known : ∀ name, (scope[name]?).isSome → name ∈ names ∨ name ∈ coming
  declared : ∀ name ∈ node.declared, name ∈ names ∨ name ∈ coming

namespace Scope.SameBut

variable {scope : Scope} {names names' coming coming' : List String} {node : ScopeNode}

theorem lacks (same : scope.SameBut names coming node) {name : String} (missing : scope[name]? = none)
    (notComing : name ∉ coming) : name ∉ node.declared := by
  intro declared
  rcases same.declared name declared with isKnown | isComing
  · have isSome := same.named name isKnown
    rw [missing] at isSome
    cases isSome
  · exact notComing isComing

/-- A name may have come. -/
theorem recount (same : scope.SameBut names coming node)
    (come : ∀ name ∈ coming, name ∈ names ∨ name ∈ coming') : scope.SameBut names coming' node := by
  refine ⟨same.named, ?_, ?_⟩
  · intro name isSome
    rcases same.known name isSome with isKnown | isComing
    · exact .inl isKnown
    · exact come name isComing
  · intro name declared
    rcases same.declared name declared with isKnown | isComing
    · exact .inl isKnown
    · exact come name isComing

/-- A name that was to come is declared, and may be known from then on. -/
theorem insert (same : scope.SameBut names coming node) {name : String} (readiness : Readiness)
    (named : ∀ other ∈ names', other = name ∨ other ∈ names)
    (kept : ∀ other, other = name ∨ other ∈ names ∨ other ∈ coming →
      other ∈ names' ∨ other ∈ coming') :
    Scope.SameBut (scope.insert name readiness) names' coming' node := by
  refine ⟨?_, ?_, ?_⟩
  · intro other member
    rw [getElem?_insert_string]
    by_cases here : name = other
    · simp [here]
    · rw [if_neg here]
      rcases named other member with isName | isKnown
      · exact absurd isName.symm here
      · exact same.named other isKnown
  · intro other isSome
    rw [getElem?_insert_string] at isSome
    by_cases here : name = other
    · exact kept other (.inl here.symm)
    · rw [if_neg here] at isSome
      exact kept other (.inr (same.known other isSome))
  · intro other declared
    exact kept other (.inr (same.declared other declared))

/-- In a block that has just been entered all names are still to come. -/
theorem block (statements : List Stmt) :
    Scope.SameBut ∅ [] (Stmt.allDeclare statements) (.block statements) := by
  refine ⟨fun _ member => absurd member List.not_mem_nil, ?_, fun _ declared => .inr declared⟩
  intro name isSome
  simp at isSome

end Scope.SameBut

/-- The parameters are the first names in the scope of a function. -/
theorem Scopes.declareAll_cons {κ : Type} (params : List Token) (label : κ) (scope : Scope)
    (outer : Scopes κ) :
    ∃ scope' : Scope, Scopes.declareAll params ((label, scope) :: outer) = (label, scope') :: outer ∧
      ∀ name, (scope'[name]?).isSome ↔
        name ∈ params.map (·.lexeme) ∨ (scope[name]?).isSome := by
  induction params generalizing scope with
  | nil => exact ⟨scope, rfl, by simp⟩
  | cons first rest ih =>
    obtain ⟨scope', isDeclared, isSome⟩ := ih (scope.insert first.lexeme .ready)
    refine ⟨scope', isDeclared, fun name => ?_⟩
    rw [isSome, getElem?_insert_string, List.map_cons, List.mem_cons]
    by_cases same : first.lexeme = name
    · simp [same]
    · simp [same, Ne.symm same]

/-- The names of all scopes around a place, of their frames and of their nodes are the same but for those
that are still to come. -/
inductive Scopes.SameBut : Scopes Unit → Names → Names → List ScopeNode → Prop
  | nil : SameBut [] [] [] []
  | cons {scope : Scope} {names coming : List String} {node : ScopeNode} {outer : Scopes Unit}
      {known ahead : Names} {nodes : List ScopeNode} (innermost : scope.SameBut names coming node)
      (around : SameBut outer known ahead nodes) :
      SameBut (((), scope) :: outer) (names :: known) (coming :: ahead) (node :: nodes)

/-! ## Uses -/

namespace Scopes.SameBut

variable {scopes : Scopes Unit} {known ahead : Names} {nodes : List ScopeNode} {name : Token}

/-- The frame of the scope that a name is found in has the name, and the frames before it do not get
it. -/
theorem find_some (same : SameBut scopes known ahead nodes) (lack : ahead.Lack name) {distance : Nat}
    {owner : Unit} {readiness : Readiness}
    (found : scopes.find name.lexeme = some (distance, owner, readiness)) :
    (∃ names, known[distance]? = some names ∧ name.lexeme ∈ names) ∧
      ∃ nearer node farther, nodes = nearer ++ node :: farther ∧ nearer.length = distance ∧
        ∀ node ∈ nearer, name.lexeme ∉ node.declared := by
  induction same generalizing distance with
  | nil => cases found
  | @cons scope names coming node outer known ahead nodes innermost around ih =>
    obtain ⟨notComing, lack⟩ := List.forall_mem_cons.1 lack
    simp only [Scopes.find] at found
    cases inside : scope[name.lexeme]? with
    | some readiness' =>
      simp only [inside, Option.some.injEq, Prod.mk.injEq] at found
      obtain ⟨rfl, _, _⟩ := found
      refine ⟨⟨names, rfl, ?_⟩, [], node, nodes, rfl, rfl, fun _ member => absurd member List.not_mem_nil⟩
      have isKnown := innermost.known name.lexeme (by simp [inside])
      exact isKnown.resolve_right notComing
    | none =>
      simp only [inside, Option.map_eq_some_iff] at found
      obtain ⟨⟨distance', rest⟩, further, isFound⟩ := found
      cases isFound
      obtain ⟨isKnown, nearer, node', farther, rfl, rfl, others⟩ := ih lack further
      refine ⟨isKnown, node :: nearer, node', farther, rfl, rfl, ?_⟩
      exact List.forall_mem_cons.2 ⟨innermost.lacks inside notComing, others⟩

/-- No frame but the global one gets a name that is found in no scope. -/
theorem find_none (same : SameBut scopes known ahead nodes) (lack : ahead.Lack name)
    (missing : scopes.find name.lexeme = none) : ∀ node ∈ nodes, name.lexeme ∉ node.declared := by
  induction same with
  | nil => exact fun _ member => absurd member List.not_mem_nil
  | @cons scope names coming node outer known ahead nodes innermost around ih =>
    obtain ⟨notComing, lack⟩ := List.forall_mem_cons.1 lack
    simp only [Scopes.find] at missing
    cases inside : scope[name.lexeme]? with
    | some readiness =>
      rw [inside] at missing
      cases missing
    | none =>
      simp only [inside, Option.map_eq_none_iff] at missing
      exact List.forall_mem_cons.2 ⟨innermost.lacks inside notComing, ih lack missing⟩

/-- A use that was noted finds its variable, and no frame before it gets the name. -/
theorem use (same : SameBut scopes known ahead nodes) (lack : ahead.Lack name) {T : Distances}
    {id : Nat} {form : UseForm} (walked : Walked T (scopes.note id form name) [id]) :
    (Usage.certain T).Binds known id name ∧ Reaches T (origins nodes) id name.lexeme := by
  have lacking {nearer : List ScopeNode} (others : ∀ node ∈ nearer, name.lexeme ∉ node.declared) :
      ∀ origin ∈ nearer.map some, Origin.Lacks origin name.lexeme := by
    intro origin member
    obtain ⟨node, isNearer, rfl⟩ := List.mem_map.1 member
    exact ⟨node, rfl, others node isNearer⟩
  unfold Scopes.note at walked
  cases found : scopes.find name.lexeme with
  | none =>
    rw [found] at walked
    have missing : T[id]? = none :=
      walked.only id (List.mem_singleton_self id) fun _ noted => absurd noted List.not_mem_nil
    refine ⟨⟨trivial, fun distance isDistance => ?_⟩, nodes.map some, none, [], rfl,
      lacking (same.find_none lack found), ?_⟩
    · have isDistance : T[id]? = some distance := isDistance
      rw [missing] at isDistance
      cases isDistance
    · rw [missing]
      exact ⟨rfl, rfl⟩
  | some use =>
    obtain ⟨distance, owner, readiness⟩ := use
    rw [found] at walked
    have noted : T[id]? = some distance := walked.noted _ (List.mem_singleton_self _)
    obtain ⟨⟨names, isKnown, member⟩, nearer, node, farther, rfl, isLength, others⟩ :=
      same.find_some lack found
    refine ⟨⟨trivial, fun distance' isDistance => ?_⟩, nearer.map some, some node,
      farther.map some ++ [none], by simp [origins], lacking others, ?_⟩
    · have isDistance : T[id]? = some distance' := isDistance
      cases noted.symm.trans isDistance
      exact ⟨names, isKnown, fun _ => member⟩
    · rw [noted]
      simpa using isLength

/-- A block is entered. -/
theorem block (same : SameBut scopes known ahead nodes) (statements : List Stmt) :
    SameBut (((), ∅) :: scopes) ([] :: known) (Stmt.allDeclare statements :: ahead)
      (.block statements :: nodes) :=
  .cons (.block statements) same

/-- A function is entered. -/
theorem function (same : SameBut scopes known ahead nodes) (keyword : Token) (params : List Token)
    (body : List Stmt) (name : Option Token) :
    SameBut (Scopes.declareAll params (((), ∅) :: scopes)) (params.map (·.lexeme) :: known)
      (Stmt.allDeclare body :: ahead) (.function keyword params body name :: nodes) := by
  obtain ⟨scope, isDeclared, isSome⟩ := Scopes.declareAll_cons params () ∅ scopes
  rw [isDeclared]
  refine .cons ⟨fun other member => (isSome other).2 (.inl member), fun other isKnown => ?_, ?_⟩ same
  · rcases (isSome other).1 isKnown with member | outside
    · exact .inl member
    · simp at outside
  · intro other declared
    exact List.mem_append.1 declared

end Scopes.SameBut

/-! ## Statements one after the other -/

/-- The scopes in which the parts of a statement are walked. -/
def Stmt.scopesInside (scopes : Scopes Unit) : Stmt → Scopes Unit
  | .declaration name (some e) => scopes.declare name e.readiness
  | _ => scopes

/-- The names that are known while the parts of a statement are run. -/
def Stmt.knownInside (known : Names) : Stmt → Names
  | .declaration name (some e) => known.inside name e
  | _ => known

/-- A statement that is no declaration is walked and run among the names that there are. -/
theorem Scopes.SameBut.plain {scopes : Scopes Unit} {known ahead : Names} {nodes : List ScopeNode}
    {s : Stmt} (same : SameBut scopes known ahead nodes) (plain : s.IsPlain) :
    SameBut (s.scopesInside scopes) (s.knownInside known) ahead nodes := by
  cases s with
  | declaration => exact plain.elim
  | _ => exact same

/-- A statement that is no declaration declares no names, so that the innermost node has them all. -/
theorem Stmt.IsPlain.declares {s : Stmt} (plain : s.IsPlain) (nodes : List ScopeNode) :
    ∀ name ∈ s.declares, ∀ node ∈ nodes.head?, name ∈ node.declared := by
  cases s with
  | declaration => exact plain.elim
  | _ => exact fun _ member => absurd member List.not_mem_nil

theorem Stmt.inside_nil (s : Stmt) : s.scopesInside [] = [] ∧ s.knownInside [] = [] := by
  cases s with
  | declaration name initializer =>
    cases initializer with
    | none => exact ⟨rfl, rfl⟩
    | some e => simp [Stmt.scopesInside, Stmt.knownInside, Names.inside, Scopes.declare, Names.declare]
  | _ => exact ⟨rfl, rfl⟩

mutual

/-- A statement that is no declaration leaves the scopes as they are. -/
theorem Stmt.after_of_plain (s : Stmt) (plain : s.IsPlain) (first : s.DeclaredFirst)
    (scopes : Scopes Unit) : s.after scopes = scopes := by
  cases s with
  | declaration => exact plain.elim
  | ifElse _ thenBranch elseBranch =>
    obtain ⟨_, ⟨plainThen, firstThen⟩, firstElse⟩ := first
    rw [Stmt.after, Stmt.after_of_plain thenBranch plainThen firstThen]
    exact Stmt.optionAfter_of_plain elseBranch firstElse scopes
  | whileLoop _ body _ =>
    obtain ⟨_, ⟨plainBody, firstBody⟩, _⟩ := first
    exact Stmt.after_of_plain body plainBody firstBody scopes
  | expression | block | breakLoop | continueLoop | returnValue | misplaced => rfl

theorem Stmt.optionAfter_of_plain (s? : Option Stmt) (first : Stmt.OptionDeclaredFirst s?)
    (scopes : Scopes Unit) : Stmt.optionAfter scopes s? = scopes := by
  cases s? with
  | none => rfl
  | some s => exact Stmt.after_of_plain s first.1 first.2 scopes

end

namespace Scopes.SameBut

variable {scopes : Scopes Unit} {known ahead : Names} {nodes : List ScopeNode} {node : ScopeNode}
  {before : List String} {s : Stmt} {rest : List Stmt}

/-- Inside of a statement, those names are still to come that were not declared before it. -/
theorem into (s : Stmt)
    (same : SameBut scopes (before :: known) (Stmt.allDeclare (s :: rest) :: ahead) (node :: nodes)) :
    SameBut (s.scopesInside scopes) (s.knownInside (before :: known))
      (awaited (s.declaredInside ++ before) (Stmt.allDeclare (s :: rest)) :: ahead)
      (node :: nodes) := by
  cases same with
  | cons innermost around =>
    have come (before names : List String) (other : String) (member : other ∈ names) :
        other ∈ before ∨ other ∈ awaited before names := by
      rw [mem_awaited]
      by_cases isBefore : other ∈ before
      · exact .inl isBefore
      · exact .inr ⟨member, isBefore⟩
    have plain : SameBut (((), _) :: _) (before :: known)
        (awaited before (Stmt.allDeclare (s :: rest)) :: ahead) (node :: nodes) :=
      .cons (innermost.recount (come before _)) around
    cases s with
    | declaration name initializer =>
      cases initializer with
      | none => exact plain
      | some e =>
        have isNext : name.lexeme ∈ Stmt.allDeclare (.declaration name (some e) :: rest) :=
          List.mem_cons_self
        simp only [Stmt.scopesInside, Stmt.knownInside, Stmt.declaredInside, Names.inside]
        by_cases isFunction : e.isLambda
        · simp only [isFunction, if_true]
          refine .cons (innermost.insert _ (fun other => List.mem_cons.1) fun other cases => ?_) around
          rcases cases with rfl | isKnown | isComing
          · exact .inl List.mem_cons_self
          · exact .inl (List.mem_cons_of_mem _ isKnown)
          · exact come (name.lexeme :: before) _ other isComing
        · simp only [isFunction, Bool.false_eq_true, if_false]
          refine .cons (innermost.insert _ (fun other => .inr) fun other cases => ?_) around
          rcases cases with rfl | isKnown | isComing
          · exact come before _ _ isNext
          · exact .inl isKnown
          · exact come before _ other isComing
    | _ => exact plain

/-- After a statement, the name that it declares has come. -/
theorem past (s : Stmt) (first : s.DeclaredFirst)
    (same : SameBut scopes (before :: known) (Stmt.allDeclare (s :: rest) :: ahead) (node :: nodes)) :
    SameBut (s.after scopes) ((s.declares ++ before) :: known) (Stmt.allDeclare rest :: ahead)
      (node :: nodes) := by
  have unchanged (plain : s.IsPlain) : s.after scopes = scopes :=
    Stmt.after_of_plain s plain first scopes
  cases same with
  | cons innermost around =>
    cases s with
    | declaration name initializer =>
      have declared (scope : Scope) (same : scope.SameBut before
            (Stmt.allDeclare (.declaration name initializer :: rest)) node) :
          Scope.SameBut (scope.insert name.lexeme .ready) (name.lexeme :: before)
            (Stmt.allDeclare rest) node := by
        refine same.insert _ (fun other => List.mem_cons.1) fun other cases => ?_
        rcases cases with rfl | isKnown | isComing
        · exact .inl List.mem_cons_self
        · exact .inl (List.mem_cons_of_mem _ isKnown)
        · rcases List.mem_cons.1 isComing with rfl | later
          · exact .inl List.mem_cons_self
          · exact .inr later
      cases initializer with
      | none => exact .cons (declared _ innermost) around
      | some e =>
        refine .cons (declared _ (innermost.insert _ (fun other => .inr) fun other cases => ?_)) around
        rcases cases with rfl | either
        · exact .inr List.mem_cons_self
        · exact either
    | _ =>
      rw [unchanged trivial]
      exact .cons innermost around

end Scopes.SameBut

theorem Stmt.learn_cons (s : Stmt) (before : List String) (known : Names) :
    s.learn (before :: known) = (s.declares ++ before) :: known := by
  cases s <;> rfl

/-! ## Walks that were accepted -/

section
variable {T : Distances}

theorem Token.alike_declaring (t : Token) : t.Alike (.declaring T) t := ⟨rfl, rfl, rfl⟩

mutual

/-- The uses of an expression find their variables, and no frames before them get their names. -/
theorem Expr.reaches_of_walked (e : Expr) {scopes : Scopes Unit} {known ahead : Names}
    {nodes : List ScopeNode} {loops functions : Nat} (same : scopes.SameBut known ahead nodes)
    (first : e.DeclaredFirst) (lack : ∀ use ∈ e.uses, ahead.Lack use.2)
    (walked : Walked T (e.walk unlabelled scopes loops functions) e.useIds) :
    e.Fits (.certain T) known ∧ Expr.Alike (.declaring T) (origins nodes) e e := by
  cases e with
  | literal id value => exact ⟨trivial, .literal id id value⟩
  | misplaced => cases walked.accepted
  | grouping id inner =>
    obtain ⟨fits, alike⟩ := Expr.reaches_of_walked inner same first lack walked
    exact ⟨fits, .grouping id id alike⟩
  | unary id operator right =>
    obtain ⟨fits, alike⟩ := Expr.reaches_of_walked right same first lack walked
    exact ⟨fits, .unary id id operator.alike_declaring alike⟩
  | step id left operator =>
    obtain ⟨fits, alike⟩ := Expr.reaches_of_walked left same first lack walked
    exact ⟨fits, .step id id alike operator.alike_declaring⟩
  | binary id left operator right =>
    obtain ⟨lackLeft, lackRight⟩ := List.forall_mem_append.1 lack
    obtain ⟨inLeft, inRight⟩ := walked.andThen (left.noted_inside _ _ _ _) (right.noted_inside _ _ _ _)
    obtain ⟨fits, alike⟩ := Expr.reaches_of_walked left same first.1 lackLeft inLeft
    obtain ⟨fits', alike'⟩ := Expr.reaches_of_walked right same first.2 lackRight inRight
    exact ⟨⟨fits, fits'⟩, .binary id id alike operator.alike_declaring alike'⟩
  | logical id left operator right =>
    obtain ⟨lackLeft, lackRight⟩ := List.forall_mem_append.1 lack
    obtain ⟨inLeft, inRight⟩ := walked.andThen (left.noted_inside _ _ _ _) (right.noted_inside _ _ _ _)
    obtain ⟨fits, alike⟩ := Expr.reaches_of_walked left same first.1 lackLeft inLeft
    obtain ⟨fits', alike'⟩ := Expr.reaches_of_walked right same first.2 lackRight inRight
    exact ⟨⟨fits, fits'⟩, .logical id id alike operator.alike_declaring alike'⟩
  | reference id name =>
    have checked : ∀ note ∈ (scopes.checkReady name).notes, note.use.id ∈ ([] : List Nat) := by
      rw [Scopes.checkReady_notes]
      exact fun _ noted => absurd noted List.not_mem_nil
    have whole : Walked T ((scopes.checkReady name).andThen (scopes.note id .reference name))
      ([] ++ [id]) := walked
    obtain ⟨_, noted⟩ := whole.andThen checked (scopes.noted_inside id .reference name)
    obtain ⟨binds, reaches⟩ := same.use (lack _ (List.mem_singleton_self _)) noted
    exact ⟨binds, .reference ⟨rfl, rfl, reaches⟩⟩
  | assignment id name value =>
    obtain ⟨lackValue, lackName⟩ := List.forall_mem_append.1 lack
    obtain ⟨inValue, noted⟩ := walked.andThen (value.noted_inside _ _ _ _)
      (scopes.noted_inside id .assignment name)
    obtain ⟨fits, alike⟩ := Expr.reaches_of_walked value same first lackValue inValue
    obtain ⟨binds, reaches⟩ := same.use (lackName _ (List.mem_singleton_self _)) noted
    exact ⟨⟨fits, binds⟩, .assignment ⟨rfl, rfl, reaches⟩ alike⟩
  | call id callee arguments paren =>
    obtain ⟨lackCallee, lackArguments⟩ := List.forall_mem_append.1 lack
    obtain ⟨inCallee, inArguments⟩ := walked.andThen (callee.noted_inside _ _ _ _)
      (Expr.noted_insideAll _ _ _ _ arguments)
    obtain ⟨fits, alike⟩ := Expr.reaches_of_walked callee same first.1 lackCallee inCallee
    obtain ⟨fits', alike'⟩ :=
      Expr.allReach_of_walked arguments same first.2 lackArguments inArguments
    exact ⟨⟨fits, fits'⟩, .call id id alike alike' rfl⟩
  | lambda id keyword params body name =>
    have members : ∀ other ∈ Stmt.allDeclare body,
        other ∈ ScopeNode.declared (.function keyword params body name) :=
      fun _ member => List.mem_append_right _ member
    have outsideOfLoops : 0 ≠ 0 → False := fun some => some rfl
    have inFunction : functions + 1 ≠ 0 → True := fun _ => trivial
    obtain ⟨fits, alike⟩ := Stmt.allReach_of_walked body (same.function keyword params body name)
      first lack members outsideOfLoops inFunction walked
    refine ⟨fits, .lambda id id ⟨rfl, rfl⟩ rfl rfl (List.forall₂_same.2 fun param member => ?_) alike⟩
    refine ⟨rfl, fun node isNode => ?_⟩
    cases isNode
    exact List.mem_append_left _ (List.mem_map_of_mem member)

theorem Expr.allReach_of_walked (es : List Expr) {scopes : Scopes Unit} {known ahead : Names}
    {nodes : List ScopeNode} {loops functions : Nat} (same : scopes.SameBut known ahead nodes)
    (first : Expr.AllDeclaredFirst es) (lack : ∀ use ∈ Expr.allUses es, ahead.Lack use.2)
    (walked : Walked T (Expr.walkAll unlabelled scopes loops functions es) (Expr.allUseIds es)) :
    Expr.AllFits (.certain T) known es ∧ Expr.AllAlike (.declaring T) (origins nodes) es es := by
  cases es with
  | nil => exact ⟨trivial, .nil⟩
  | cons e rest =>
    obtain ⟨lackHead, lackRest⟩ := List.forall_mem_append.1 lack
    obtain ⟨inHead, inRest⟩ := walked.andThen (e.noted_inside _ _ _ _)
      (Expr.noted_insideAll _ _ _ _ rest)
    obtain ⟨fits, alike⟩ := Expr.reaches_of_walked e same first.1 lackHead inHead
    obtain ⟨fits', alike'⟩ := Expr.allReach_of_walked rest same first.2 lackRest inRest
    exact ⟨⟨fits, fits'⟩, .cons alike alike'⟩

theorem Expr.optionReaches_of_walked (e? : Option Expr) {scopes : Scopes Unit} {known ahead : Names}
    {nodes : List ScopeNode} {loops functions : Nat} (same : scopes.SameBut known ahead nodes)
    (first : Expr.OptionDeclaredFirst e?) (lack : ∀ use ∈ Expr.optionUses e?, ahead.Lack use.2)
    (walked : Walked T (Expr.walkOption unlabelled scopes loops functions e?)
      (Expr.optionUseIds e?)) :
    Expr.OptionFits (.certain T) known e? ∧
      Expr.OptionAlike (.declaring T) (origins nodes) e? e? := by
  cases e? with
  | none => exact ⟨trivial, .none⟩
  | some e =>
    obtain ⟨fits, alike⟩ := Expr.reaches_of_walked e same first lack walked
    exact ⟨fits, .some alike⟩

theorem Stmt.reaches_of_walked (s : Stmt) {scopes : Scopes Unit} {known ahead : Names}
    {nodes : List ScopeNode} {loops functions : Nat} {inLoop inFunction : Prop}
    (same : (s.scopesInside scopes).SameBut (s.knownInside known) ahead nodes)
    (first : s.DeclaredFirst) (lack : ∀ use ∈ s.uses, ahead.Lack use.2)
    (members : ∀ name ∈ s.declares, ∀ node ∈ nodes.head?, name ∈ node.declared)
    (hasLoop : loops ≠ 0 → inLoop) (hasFunction : functions ≠ 0 → inFunction)
    (walked : Walked T (s.walk unlabelled scopes loops functions) s.useIds) :
    s.Fits (.certain T) known inLoop inFunction ∧
      Stmt.Alike (.declaring T) (origins nodes) s s := by
  cases s with
  | expression e =>
    obtain ⟨fits, alike⟩ := Expr.reaches_of_walked e same first lack walked
    exact ⟨fits, .expression alike⟩
  | declaration name initializer =>
    have names : (Likeness.declaring T).names (origins nodes) name name := by
      refine ⟨rfl, fun node isNode => members name.lexeme List.mem_cons_self node ?_⟩
      cases nodes with
      | nil => cases isNode
      | cons innermost outer =>
        cases isNode
        rfl
    cases initializer with
    | none => exact ⟨trivial, .declaration names .none⟩
    | some e =>
      obtain ⟨fits, alike⟩ := Expr.reaches_of_walked e same first lack walked
      exact ⟨fits, .declaration names (.some alike)⟩
  | block statements =>
    obtain ⟨fits, alike⟩ := Stmt.allReach_of_walked statements (Scopes.SameBut.block same statements)
      first lack (fun _ => id) hasLoop hasFunction walked
    exact ⟨fits, .block ⟨rfl, rfl⟩ alike⟩
  | ifElse condition thenBranch elseBranch =>
    obtain ⟨firstTest, ⟨plainThen, firstThen⟩, firstElse⟩ := first
    obtain ⟨lackTest, lackBranches⟩ := List.forall_mem_append.1 lack
    obtain ⟨lackThen, lackElse⟩ := List.forall_mem_append.1 lackBranches
    obtain ⟨inTest, inThen, inElse⟩ := walked.three (condition.noted_inside _ _ _ _)
      (thenBranch.noted_inside _ _ _ _) (Stmt.noted_insideOption _ _ _ _ elseBranch)
    rw [Stmt.after_of_plain thenBranch plainThen firstThen] at inElse
    obtain ⟨test, testAlike⟩ := Expr.reaches_of_walked condition same firstTest lackTest inTest
    obtain ⟨branch, branchAlike⟩ := Stmt.reaches_of_walked thenBranch (same.plain plainThen) firstThen
      lackThen (plainThen.declares nodes) hasLoop hasFunction inThen
    obtain ⟨other, otherAlike⟩ :=
      Stmt.optionReaches_of_walked elseBranch same firstElse lackElse hasLoop hasFunction inElse
    exact ⟨⟨test, branch, other⟩, .ifElse testAlike branchAlike otherAlike⟩
  | whileLoop condition body increment =>
    obtain ⟨firstTest, ⟨plainBody, firstBody⟩, firstIncrement⟩ := first
    obtain ⟨lackTest, lackRest⟩ := List.forall_mem_append.1 lack
    obtain ⟨lackBody, lackIncrement⟩ := List.forall_mem_append.1 lackRest
    obtain ⟨inTest, inBody, inIncrement⟩ := walked.three (condition.noted_inside _ _ _ _)
      (body.noted_inside _ _ _ _) (Expr.noted_insideOption _ _ _ _ increment)
    rw [Stmt.after_of_plain body plainBody firstBody] at inIncrement
    obtain ⟨test, testAlike⟩ := Expr.reaches_of_walked condition same firstTest lackTest inTest
    obtain ⟨round, roundAlike⟩ := Stmt.reaches_of_walked body (same.plain plainBody) firstBody
      lackBody (plainBody.declares nodes) (fun _ => trivial) hasFunction inBody
    obtain ⟨onward, onwardAlike⟩ :=
      Expr.optionReaches_of_walked increment same firstIncrement lackIncrement inIncrement
    exact ⟨⟨test, round, onward⟩, .whileLoop testAlike roundAlike onwardAlike⟩
  | breakLoop keyword | continueLoop keyword =>
    have isInLoop : inLoop := by
      have accepted := walked.accepted
      rw [Stmt.walk] at accepted
      split at accepted
      · cases accepted
      · next some => exact hasLoop some
    constructor
    · exact isInLoop
    · constructor
  | returnValue keyword value =>
    rw [Stmt.walk] at walked
    split at walked
    · cases walked.accepted
    · next some =>
      obtain ⟨fits, alike⟩ := Expr.optionReaches_of_walked value same first lack walked
      exact ⟨⟨hasFunction some, fits⟩, .returnValue keyword keyword alike⟩
  | misplaced => cases walked.accepted

theorem Stmt.allReach_of_walked (ss : List Stmt) {scopes : Scopes Unit} {known ahead : Names}
    {before : List String} {node : ScopeNode} {nodes : List ScopeNode} {loops functions : Nat}
    {inLoop inFunction : Prop}
    (same : scopes.SameBut (before :: known) (Stmt.allDeclare ss :: ahead) (node :: nodes))
    (first : Stmt.AllDeclaredFirst before ss) (lack : ∀ use ∈ Stmt.allUses ss, ahead.Lack use.2)
    (members : ∀ name ∈ Stmt.allDeclare ss, name ∈ node.declared)
    (hasLoop : loops ≠ 0 → inLoop) (hasFunction : functions ≠ 0 → inFunction)
    (walked : Walked T (Stmt.walkAll unlabelled scopes loops functions ss) (Stmt.allUseIds ss)) :
    Stmt.AllFits (.certain T) (before :: known) inLoop inFunction ss ∧
      Stmt.AllAlike (.declaring T) (origins (node :: nodes)) ss ss := by
  cases ss with
  | nil => exact ⟨trivial, .nil⟩
  | cons s rest =>
    obtain ⟨usedFirst, firstHere, firstRest⟩ := first
    obtain ⟨lackHead, lackRest⟩ := List.forall_mem_append.1 lack
    obtain ⟨inHead, inRest⟩ := walked.andThen (s.noted_inside _ _ _ _)
      (Stmt.noted_insideAll _ _ _ _ rest)
    obtain ⟨memberFirst, membersRest⟩ := List.forall_mem_append.1 members
    -- In the scope of the statement itself, the names that it uses are not awaited.
    have lackHere : ∀ use ∈ s.uses, Names.Lack
        (awaited (s.declaredInside ++ before) (Stmt.allDeclare (s :: rest)) :: ahead) use.2 := by
      intro use member
      refine List.forall_mem_cons.2 ⟨fun isAwaited => ?_, lackHead use member⟩
      obtain ⟨declared, notBefore⟩ := mem_awaited.1 isAwaited
      exact notBefore (usedFirst use member declared)
    have membersHere : ∀ name ∈ s.declares, ∀ owner ∈ (node :: nodes).head?,
        name ∈ owner.declared := by
      intro name member owner isOwner
      cases isOwner
      exact memberFirst name member
    obtain ⟨fits, alike⟩ := Stmt.reaches_of_walked s (Scopes.SameBut.into s same) firstHere lackHere
      membersHere hasLoop hasFunction inHead
    obtain ⟨fits', alike'⟩ := Stmt.allReach_of_walked rest (Scopes.SameBut.past s firstHere same)
      firstRest lackRest membersRest hasLoop hasFunction inRest
    rw [← Stmt.learn_cons] at fits'
    exact ⟨⟨fits, fits'⟩, .cons alike alike'⟩

theorem Stmt.optionReaches_of_walked (s? : Option Stmt) {scopes : Scopes Unit} {known ahead : Names}
    {nodes : List ScopeNode} {loops functions : Nat} {inLoop inFunction : Prop}
    (same : scopes.SameBut known ahead nodes) (first : Stmt.OptionDeclaredFirst s?)
    (lack : ∀ use ∈ Stmt.optionUses s?, ahead.Lack use.2) (hasLoop : loops ≠ 0 → inLoop)
    (hasFunction : functions ≠ 0 → inFunction)
    (walked : Walked T (Stmt.walkOption unlabelled scopes loops functions s?)
      (Stmt.optionUseIds s?)) :
    Stmt.OptionFits (.certain T) known inLoop inFunction s? ∧
      Stmt.OptionAlike (.declaring T) (origins nodes) s? s? := by
  cases s? with
  | none => exact ⟨trivial, .none⟩
  | some s =>
    obtain ⟨plain, first⟩ := first
    obtain ⟨fits, alike⟩ := Stmt.reaches_of_walked s (same.plain plain) first lack
      (plain.declares nodes) hasLoop hasFunction walked
    exact ⟨fits, .some alike⟩

end

/-- The statements of an accepted program that declares names first: they find their variables, and no
frames before those get the names. -/
theorem Program.reaches {p : Program} (accepted : p.resolution.outcome = .ok ())
    (nodup : p.useIds.Nodup) (first : p.DeclaredFirst) :
    Stmt.AllFits (.certain p.distances) [] False False p ∧
      Stmt.AllAlike (.declaring p.distances) [none] p p := by
  have walked : Walked p.distances (Stmt.walkAll unlabelled [] 0 0 p) (Stmt.allUseIds p) :=
    Program.walked accepted nodup
  generalize p.distances = T at walked ⊢
  clear accepted nodup
  induction p with
  | nil => exact ⟨trivial, .nil⟩
  | cons s rest ih =>
    obtain ⟨firstHere, firstRest⟩ := List.forall_mem_cons.1 first
    obtain ⟨inHead, inRest⟩ := walked.andThen (s.noted_inside _ _ _ _)
      (Stmt.noted_insideAll _ _ _ _ rest)
    rw [Stmt.after_nil] at inRest
    have same : (s.scopesInside []).SameBut (s.knownInside []) [] [] := by
      rw [s.inside_nil.1, s.inside_nil.2]
      exact .nil
    have lack : ∀ use ∈ s.uses, Names.Lack [] use.2 :=
      fun _ _ _ member => absurd member List.not_mem_nil
    have outside : 0 ≠ 0 → False := fun some => some rfl
    have members : ∀ name ∈ s.declares, ∀ node ∈ ([] : List ScopeNode).head?,
        name ∈ node.declared := by
      intro name _ node isNode
      cases isNode
    obtain ⟨fits, alike⟩ :=
      Stmt.reaches_of_walked s same firstHere lack members outside outside inHead
    obtain ⟨fits', alike'⟩ := ih firstRest inRest
    rw [← Stmt.learn_nil s] at fits'
    exact ⟨⟨fits, fits'⟩, .cons alike alike'⟩

end

end Lox
