import Mathlib.Logic.Equiv.Basic
import Lox.Proofs.Alike.Machines
import Lox.Proofs.Renaming.Trees
import Lox.Proofs.Scopes.Walked

/-!
# The walk over a renamed program

A name and the new one change places in the scope of the variable, and all other scopes keep their
names. No use is caught by another scope, since the new name is in none. So the walk over the
renamed program notes the same distances.
-/

namespace Lox

namespace Renaming

variable (r : Renaming)

/-- The names that correspond in frames; the mark tells whether a frame is one of the scope. -/
def keys : Keys Bool where
  key mark name := if mark then Equiv.swap r.old r.new name else name
  injective mark := by
    cases mark with
    | true => exact (Equiv.swap r.old r.new).injective
    | false => exact Function.injective_id
  root := false
  key_root _ := rfl

variable {r} {f : Focus} {name : Token}

theorem key_of_ne {mark : Bool} {name : String} (notOld : name ≠ r.old) (notNew : name ≠ r.new) :
    r.keys.key mark name = name := by
  cases mark with
  | true => exact Equiv.swap_apply_of_ne_of_ne notOld notNew
  | false => rfl

theorem key_old : r.keys.key true r.old = r.new := Equiv.swap_apply_left r.old r.new

theorem key_new : r.keys.key true r.new = r.old := Equiv.swap_apply_right r.old r.new

theorem used_line {id : Nat} : (r.used f id name).line = name.line := by
  unfold used
  split
  · split <;> rfl
  · rfl

/-- A declared name corresponds to itself by the mark of the frame that it is declared in. -/
theorem declared_lexeme (notNew : name.lexeme ≠ r.new) :
    (r.declared f name).lexeme = r.keys.key (f.depth? = some 0) name.lexeme := by
  unfold declared
  by_cases inScope : f.depth? = some 0
  · by_cases isOld : name.lexeme = r.old
    · simp only [inScope, isOld, and_self, if_true, decide_true, key_old]
    · simp only [isOld, and_false, if_false, key_of_ne isOld notNew]
  · simp only [inScope, false_and, if_false, decide_false]
    rfl

/-- A used name corresponds to itself by the mark of the frame at its distance. -/
theorem used_lexeme {id distance : Nat} (found : r.table[id]? = some distance)
    (notNew : name.lexeme ≠ r.new) :
    (r.used f id name).lexeme = r.keys.key (f.depth? = some distance) name.lexeme := by
  unfold used
  cases f.depth? with
  | none => simp only [reduceCtorEq, decide_false]; rfl
  | some depth =>
    dsimp only
    by_cases same : depth = distance
    · subst same
      by_cases isOld : name.lexeme = r.old
      · simp only [found, isOld, and_self, if_true, decide_true, key_old]
      · simp only [isOld, and_false, if_false, key_of_ne isOld notNew]
    · have other : ¬ (distance = depth) := fun equal => same equal.symm
      simp only [found, Option.some.injEq, other, same, false_and, if_false, decide_false]
      rfl

/-- A use without a distance keeps its name. -/
theorem used_of_none {id : Nat} (missing : r.table[id]? = none) : r.used f id name = name := by
  unfold used
  cases f.depth? with
  | none => rfl
  | some depth => simp only [missing, reduceCtorEq, false_and, if_false]

end Renaming

/-! ## Scopes with corresponding names -/

/-- The number of scopes between, seen from one scope further out. -/
def outward : Option Nat → Option Nat
  | some (depth + 1) => some depth
  | _ => none

theorem outward_eq {depth? : Option Nat} {distance : Nat} :
    outward depth? = some distance ↔ depth? = some (distance + 1) := by
  rcases depth? with _ | _ | depth <;> simp [outward]

theorem Focus.outward_enter (f : Focus) : outward f.enter.depth? = f.depth? := by
  rcases f with path | depth | _
  · cases path <;> rfl
  · rfl
  · rfl

/-- Two lists of scopes have corresponding names, and the new name is in none of the first list. -/
inductive Aligned (r : Renaming) : Option Nat → Scopes Unit → Scopes Unit → Prop
  | nil (depth? : Option Nat) : Aligned r depth? [] []
  | cons {depth? : Option Nat} {scope scope' : Scope} {outer outer' : Scopes Unit}
      (absent : scope[r.new]? = none)
      (same : ∀ name, scope'[r.keys.key (depth? = some 0) name]? = scope[name]?)
      (others : Aligned r (outward depth?) outer outer') :
      Aligned r depth? (((), scope) :: outer) (((), scope') :: outer')

namespace Aligned

variable {r : Renaming} {depth? : Option Nat} {scopes scopes' : Scopes Unit} {name : String}

/-- A name that a scope does not have is not in the corresponding one, also not under the name that
it has in another scope. -/
theorem absent_of_absent {scope scope' : Scope} {mark mark' : Bool} (absent : scope[r.new]? = none)
    (same : ∀ name, scope'[r.keys.key mark name]? = scope[name]?) (missing : scope[name]? = none)
    (notNew : name ≠ r.new) (apart : ¬ (mark = true ∧ mark' = true)) :
    scope'[r.keys.key mark' name]? = none := by
  by_cases isOld : name = r.old
  · subst isOld
    cases mark with
    | true =>
      cases mark' with
      | true => exact absurd ⟨rfl, rfl⟩ apart
      | false =>
        have swapped := same r.new
        rw [Renaming.key_new] at swapped
        exact swapped.trans absent
    | false =>
      cases mark' with
      | true =>
        rw [Renaming.key_old]
        exact (same r.new).trans absent
      | false => exact (same r.old).trans missing
  · have kept := same name
    rw [Renaming.key_of_ne isOld notNew] at kept ⊢
    exact kept.trans missing

/-- A name is found at the same distance, under the name that it has in the scope there. -/
theorem find_some (aligned : Aligned r depth? scopes scopes') (notNew : name ≠ r.new)
    {distance : Nat} {owner : Unit} {readiness : Readiness}
    (found : scopes.find name = some (distance, owner, readiness)) :
    scopes'.find (r.keys.key (depth? = some distance) name) = some (distance, (), readiness) := by
  induction aligned generalizing distance with
  | nil => cases found
  | @cons depth? scope scope' outer outer' absent same others ih =>
    simp only [Scopes.find] at found ⊢
    cases inside : scope[name]? with
    | some readiness' =>
      simp only [inside, Option.some.injEq, Prod.mk.injEq] at found
      obtain ⟨rfl, _, rfl⟩ := found
      rw [same, inside]
    | none =>
      simp only [inside, Option.map_eq_some_iff] at found
      obtain ⟨⟨distance', rest⟩, further, equal⟩ := found
      cases equal
      have found' := ih further
      simp only [outward_eq] at found'
      have missing : scope'[r.keys.key (depth? = some (distance' + 1)) name]? = none := by
        refine absent_of_absent absent same inside notNew ?_
        simp only [decide_eq_true_eq]
        rintro ⟨here, there⟩
        rw [here] at there
        cases there
      rw [missing]
      simp only [found', Option.map_some]

theorem find_none (aligned : Aligned r depth? scopes scopes') (notNew : name ≠ r.new)
    (missing : scopes.find name = none) : scopes'.find name = none := by
  induction aligned with
  | nil => rfl
  | @cons depth? scope scope' outer outer' absent same others ih =>
    simp only [Scopes.find] at missing ⊢
    cases inside : scope[name]? with
    | some readiness => simp only [inside, reduceCtorEq] at missing
    | none =>
      simp only [inside, Option.map_eq_none_iff] at missing
      have missing' : scope'[r.keys.key false name]? = none :=
        absent_of_absent absent same inside notNew (by simp)
      have missing' : scope'[name]? = none := missing'
      rw [missing', ih missing]
      rfl

theorem child {f : Focus} (aligned : Aligned r f.depth? scopes scopes') (position : Nat) :
    Aligned r (f.child position).depth? scopes scopes' := by
  rw [Focus.depth?_child]
  exact aligned

theorem of_child {f : Focus} {position : Nat}
    (aligned : Aligned r (f.child position).depth? scopes scopes') :
    Aligned r f.depth? scopes scopes' := by
  rw [Focus.depth?_child] at aligned
  exact aligned

/-- Nothing is declared in a scope that has just been entered. -/
theorem enter {f : Focus} (aligned : Aligned r f.depth? scopes scopes') :
    Aligned r f.enter.depth? (((), ∅) :: scopes) (((), ∅) :: scopes') := by
  refine .cons (by simp) (fun name => by simp) ?_
  rw [Focus.outward_enter]
  exact aligned

/-- A declared name corresponds to itself in the innermost scope. -/
theorem declare {f : Focus} (aligned : Aligned r f.depth? scopes scopes') {name : Token}
    (notNew : name.lexeme ≠ r.new) (readiness : Readiness) :
    Aligned r f.depth? (scopes.declare name readiness)
      (scopes'.declare (r.declared f name) readiness) := by
  generalize isDepth : f.depth? = depth? at aligned
  cases aligned with
  | nil => exact .nil _
  | @cons _ scope scope' outer outer' absent same others =>
    refine .cons ?_ (fun other => ?_) others
    · rw [getElem?_insert_string]
      simp only [notNew, if_false]
      exact absent
    · rw [getElem?_insert_string, getElem?_insert_string, Renaming.declared_lexeme notNew, isDepth]
      by_cases isName : name.lexeme = other
      · subst isName
        simp only [if_true]
      · have different : ¬ r.keys.key (depth? = some 0) name.lexeme =
            r.keys.key (depth? = some 0) other :=
          fun equal => isName (r.keys.injective _ equal)
        simp only [isName, different, if_false]
        exact same other

theorem declareAll {f : Focus} {params : List Token} (notNew : ∀ name ∈ params, name.lexeme ≠ r.new)
    (aligned : Aligned r f.depth? scopes scopes') :
    Aligned r f.depth? (scopes.declareAll params)
      (scopes'.declareAll (params.map (r.declared f))) := by
  induction params generalizing scopes scopes' with
  | nil => exact aligned
  | cons name rest ih =>
    obtain ⟨first, others⟩ := List.forall_mem_cons.1 notNew
    exact ih others (aligned.declare first .ready)

end Aligned

theorem Expr.readiness_rename (r : Renaming) (f : Focus) (e : Expr) :
    (e.rename r f).readiness = e.readiness := by
  cases e <;> rfl

mutual

theorem Stmt.after_rename {r : Renaming} (s : Stmt) {f : Focus} {scopes scopes' : Scopes Unit}
    (aligned : Aligned r f.depth? scopes scopes') (others : ∀ name ∈ s.names, name ≠ r.new) :
    Aligned r f.depth? (s.after scopes) ((s.rename r f).after scopes') := by
  cases s with
  | declaration name initializer =>
    obtain ⟨notNew, _⟩ := List.forall_mem_cons.1 others
    cases initializer with
    | none => exact aligned.declare notNew .ready
    | some e =>
      simp only [Stmt.rename, Expr.renameOption, Stmt.after, Expr.readiness_rename]
      exact (aligned.declare notNew e.readiness).declare notNew .ready
  | ifElse condition thenBranch elseBranch =>
    obtain ⟨_, inBranches⟩ := List.forall_mem_append.1 others
    obtain ⟨inThen, inElse⟩ := List.forall_mem_append.1 inBranches
    have afterThen := (Stmt.after_rename thenBranch (aligned.child 1) inThen).of_child
    exact (Stmt.after_renameOption elseBranch (afterThen.child 2) inElse).of_child
  | whileLoop condition body increment =>
    obtain ⟨_, inRest⟩ := List.forall_mem_append.1 others
    obtain ⟨inBody, _⟩ := List.forall_mem_append.1 inRest
    exact (Stmt.after_rename body (aligned.child 1) inBody).of_child
  | _ => exact aligned

theorem Stmt.after_renameOption {r : Renaming} (s? : Option Stmt) {f : Focus}
    {scopes scopes' : Scopes Unit} (aligned : Aligned r f.depth? scopes scopes')
    (others : ∀ name ∈ Stmt.optionNames s?, name ≠ r.new) :
    Aligned r f.depth? (Stmt.optionAfter scopes s?)
      (Stmt.optionAfter scopes' (Stmt.renameOption r f s?)) := by
  cases s? with
  | none => exact aligned
  | some s => exact Stmt.after_rename s aligned others

end

/-! ## What is found by both walks -/

/-- Another walk is not refused either, and notes the same uses with other names. -/
structure Tallies (found found' : Findings Unit) : Prop where
  accepted : found.refusal = none
  accepted' : found'.refusal = none
  same : found'.uses.map Use.outline = found.uses.map Use.outline

theorem Tallies.nothing : Tallies .nothing .nothing := ⟨rfl, rfl, rfl⟩

theorem Tallies.andThen {first first' second second' : Findings Unit} (before : Tallies first first')
    (later : Tallies second second') : Tallies (first.andThen second) (first'.andThen second') := by
  simp only [Findings.andThen, before.accepted, before.accepted']
  refine ⟨later.accepted, later.accepted', ?_⟩
  have sameBefore := before.same
  have sameLater := later.same
  simp only [Findings.uses, List.map_append] at sameBefore sameLater ⊢
  rw [sameBefore, sameLater]

/-! ## Both walks -/

section
variable {r : Renaming} {f : Focus} {scopes scopes' : Scopes Unit} {id : Nat} {name : Token}

/-- A use is found where it was, under its new name. -/
theorem Aligned.find_used (aligned : Aligned r f.depth? scopes scopes')
    (notNew : name.lexeme ≠ r.new) {form : UseForm}
    (walked : Walked r.table (scopes.note id form name) [id]) :
    scopes'.find (r.used f id name).lexeme = scopes.find name.lexeme := by
  unfold Scopes.note at walked
  cases found : scopes.find name.lexeme with
  | none =>
    rw [found] at walked
    have missing : r.table[id]? = none :=
      walked.only id (List.mem_singleton_self id) fun _ noted => absurd noted List.not_mem_nil
    rw [Renaming.used_of_none missing]
    exact aligned.find_none notNew found
  | some use =>
    obtain ⟨distance, owner, readiness⟩ := use
    rw [found] at walked
    have noted : r.table[id]? = some distance := walked.noted _ (List.mem_singleton_self _)
    rw [Renaming.used_lexeme noted notNew]
    exact aligned.find_some notNew found

/-- A use is noted with the same distance under its new name. -/
theorem Aligned.note (aligned : Aligned r f.depth? scopes scopes') (notNew : name.lexeme ≠ r.new)
    {form : UseForm} (walked : Walked r.table (scopes.note id form name) [id]) :
    Tallies (scopes.note id form name) (scopes'.note id form (r.used f id name)) := by
  have same := aligned.find_used notNew walked
  unfold Scopes.note
  rw [same]
  cases scopes.find name.lexeme with
  | none => exact .nothing
  | some use => exact ⟨rfl, rfl, rfl⟩

/-- A variable that has its value has it under its new name. -/
theorem Aligned.checkReady (aligned : Aligned r f.depth? scopes scopes')
    (notNew : name.lexeme ≠ r.new) {form : UseForm}
    (walked : Walked r.table (scopes.note id form name) [id])
    (accepted : (scopes.checkReady name).refusal = none) :
    Tallies (scopes.checkReady name) (scopes'.checkReady (r.used f id name)) := by
  have same := aligned.find_used notNew walked
  unfold Scopes.checkReady at accepted ⊢
  rw [same]
  cases found : scopes.find name.lexeme with
  | none => exact .nothing
  | some use =>
    obtain ⟨distance, owner, readiness⟩ := use
    rw [found] at accepted
    cases readiness with
    | pending => cases accepted
    | ready => exact .nothing

end

section
variable {r : Renaming}

mutual

theorem Expr.walk_rename (e : Expr) {f : Focus} {scopes scopes' : Scopes Unit}
    {loops functions : Nat} (aligned : Aligned r f.depth? scopes scopes')
    (others : ∀ name ∈ e.names, name ≠ r.new)
    (walked : Walked r.table (e.walk unlabelled scopes loops functions) e.useIds) :
    Tallies (e.walk unlabelled scopes loops functions)
      ((e.rename r f).walk unlabelled scopes' loops functions) := by
  cases e with
  | literal => exact .nothing
  | misplaced => cases walked.accepted
  | grouping _ inner | unary _ _ inner | step _ inner _ =>
    exact Expr.walk_rename inner (aligned.child 0) others walked
  | binary _ left _ right | logical _ left _ right =>
    obtain ⟨inLeft, inRight⟩ := List.forall_mem_append.1 others
    obtain ⟨first, second⟩ := walked.andThen
      ((Expr.walk_at unlabelled [] left _ _ _).inside (Expr.ids_sites _ _ left))
      ((Expr.walk_at unlabelled [] right _ _ _).inside (Expr.ids_sites _ _ right))
    exact (Expr.walk_rename left (aligned.child 0) inLeft first).andThen
      (Expr.walk_rename right (aligned.child 1) inRight second)
  | reference id name =>
    have notNew := others _ (List.mem_singleton_self _)
    have checked : ∀ note ∈ (scopes.checkReady name).notes, note.use.id ∈ ([] : List Nat) := by
      rw [Scopes.checkReady_notes]
      exact fun _ noted => absurd noted List.not_mem_nil
    have whole : Walked r.table ((scopes.checkReady name).andThen (scopes.note id .reference name))
      ([] ++ [id]) := walked
    obtain ⟨ready, noted⟩ := whole.andThen checked
      ((Scopes.note_at scopes [] id .reference name).inside rfl)
    exact (aligned.checkReady notNew noted ready.accepted).andThen (aligned.note notNew noted)
  | assignment id name value =>
    obtain ⟨notNew, inValue⟩ := List.forall_mem_cons.1 others
    obtain ⟨first, noted⟩ := walked.andThen
      ((Expr.walk_at unlabelled [] value _ _ _).inside (Expr.ids_sites _ _ value))
      ((Scopes.note_at scopes [] id .assignment name).inside rfl)
    exact (Expr.walk_rename value (aligned.child 0) inValue first).andThen
      (aligned.note notNew noted)
  | call _ callee arguments _ =>
    obtain ⟨inCallee, inArguments⟩ := List.forall_mem_append.1 others
    obtain ⟨first, second⟩ := walked.andThen
      ((Expr.walk_at unlabelled [] callee _ _ _).inside (Expr.ids_sites _ _ callee))
      ((Expr.walkAll_at unlabelled [] arguments _ _ _).inside (Expr.ids_allSites _ _ arguments))
    exact (Expr.walk_rename callee (aligned.child 0) inCallee first).andThen
      (Expr.walkAll_rename arguments 1 aligned inArguments second)
  | lambda _ _ params body _ =>
    obtain ⟨inParams, inBody⟩ := List.forall_mem_append.1 others
    have notNew : ∀ name ∈ params, name.lexeme ≠ r.new :=
      fun name member => inParams _ (List.mem_map_of_mem member)
    exact Stmt.walkAll_rename body 0 (aligned.enter.declareAll notNew) inBody walked

theorem Expr.walkAll_rename (es : List Expr) (position : Nat) {f : Focus}
    {scopes scopes' : Scopes Unit} {loops functions : Nat}
    (aligned : Aligned r f.depth? scopes scopes')
    (others : ∀ name ∈ Expr.allNames es, name ≠ r.new)
    (walked : Walked r.table (Expr.walkAll unlabelled scopes loops functions es)
      (Expr.allUseIds es)) :
    Tallies (Expr.walkAll unlabelled scopes loops functions es)
      (Expr.walkAll unlabelled scopes' loops functions (Expr.renameAll r f position es)) := by
  cases es with
  | nil => exact .nothing
  | cons e rest =>
    obtain ⟨inHead, inRest⟩ := List.forall_mem_append.1 others
    obtain ⟨first, second⟩ := walked.andThen
      ((Expr.walk_at unlabelled [] e _ _ _).inside (Expr.ids_sites _ _ e))
      ((Expr.walkAll_at unlabelled [] rest _ _ _).inside (Expr.ids_allSites _ _ rest))
    exact (Expr.walk_rename e (aligned.child position) inHead first).andThen
      (Expr.walkAll_rename rest (position + 1) aligned inRest second)

theorem Expr.walkOption_rename (e? : Option Expr) {f : Focus} {scopes scopes' : Scopes Unit}
    {loops functions : Nat} (aligned : Aligned r f.depth? scopes scopes')
    (others : ∀ name ∈ Expr.optionNames e?, name ≠ r.new)
    (walked : Walked r.table (Expr.walkOption unlabelled scopes loops functions e?)
      (Expr.optionUseIds e?)) :
    Tallies (Expr.walkOption unlabelled scopes loops functions e?)
      (Expr.walkOption unlabelled scopes' loops functions (Expr.renameOption r f e?)) := by
  cases e? with
  | none => exact .nothing
  | some e => exact Expr.walk_rename e aligned others walked

theorem Stmt.walk_rename (s : Stmt) {f : Focus} {scopes scopes' : Scopes Unit}
    {loops functions : Nat} (aligned : Aligned r f.depth? scopes scopes')
    (others : ∀ name ∈ s.names, name ≠ r.new)
    (walked : Walked r.table (s.walk unlabelled scopes loops functions) s.useIds) :
    Tallies (s.walk unlabelled scopes loops functions)
      ((s.rename r f).walk unlabelled scopes' loops functions) := by
  cases s with
  | expression e => exact Expr.walk_rename e (aligned.child 0) others walked
  | declaration name initializer =>
    obtain ⟨notNew, inInitializer⟩ := List.forall_mem_cons.1 others
    cases initializer with
    | none => exact .nothing
    | some e =>
      have declared := aligned.declare notNew e.readiness
      have inner := Expr.walk_rename e (declared.child 0) inInitializer walked
      simp only [Stmt.rename, Expr.renameOption, Stmt.walk, Expr.readiness_rename]
      exact inner
  | block statements => exact Stmt.walkAll_rename statements 0 aligned.enter others walked
  | ifElse condition thenBranch elseBranch =>
    obtain ⟨inCondition, inBranches⟩ := List.forall_mem_append.1 others
    obtain ⟨inThen, inElse⟩ := List.forall_mem_append.1 inBranches
    have thenInside := Stmt.walk_at unlabelled [] thenBranch scopes loops functions
    have elseInside :=
      Stmt.walkOption_at unlabelled [] elseBranch (thenBranch.after scopes) loops functions
    have thenIds := Stmt.ids_sites unlabelled (scopes.labels ++ []) thenBranch
    have elseIds :=
      Stmt.ids_optionSites unlabelled (Scopes.labels (thenBranch.after scopes) ++ []) elseBranch
    obtain ⟨first, branches⟩ := walked.andThen
      ((Expr.walk_at unlabelled [] condition _ _ _).inside (Expr.ids_sites _ _ condition))
      ((thenInside.andThen elseInside).inside (by rw [List.map_append, thenIds, elseIds]))
    obtain ⟨second, third⟩ :=
      branches.andThen (thenInside.inside thenIds) (elseInside.inside elseIds)
    have after := (Stmt.after_rename thenBranch (aligned.child 1) inThen).of_child
    exact (Expr.walk_rename condition (aligned.child 0) inCondition first).andThen
      ((Stmt.walk_rename thenBranch (aligned.child 1) inThen second).andThen
        (Stmt.walkOption_rename elseBranch (after.child 2) inElse third))
  | whileLoop condition body increment =>
    obtain ⟨inCondition, inRest⟩ := List.forall_mem_append.1 others
    obtain ⟨inBody, inIncrement⟩ := List.forall_mem_append.1 inRest
    have bodyInside := Stmt.walk_at unlabelled [] body scopes (loops + 1) functions
    have onwardInside :=
      Expr.walkOption_at unlabelled [] increment (body.after scopes) loops functions
    have bodyIds := Stmt.ids_sites unlabelled (scopes.labels ++ []) body
    have onwardIds :=
      Expr.ids_optionSites unlabelled (Scopes.labels (body.after scopes) ++ []) increment
    obtain ⟨first, round⟩ := walked.andThen
      ((Expr.walk_at unlabelled [] condition _ _ _).inside (Expr.ids_sites _ _ condition))
      ((bodyInside.andThen onwardInside).inside (by rw [List.map_append, bodyIds, onwardIds]))
    obtain ⟨second, third⟩ :=
      round.andThen (bodyInside.inside bodyIds) (onwardInside.inside onwardIds)
    have after := (Stmt.after_rename body (aligned.child 1) inBody).of_child
    exact (Expr.walk_rename condition (aligned.child 0) inCondition first).andThen
      ((Stmt.walk_rename body (aligned.child 1) inBody second).andThen
        (Expr.walkOption_rename increment (after.child 2) inIncrement third))
  | breakLoop | continueLoop =>
    have accepted := walked.accepted
    simp only [Stmt.rename, Stmt.walk] at accepted ⊢
    split at accepted
    · cases accepted
    · next inLoop =>
      simp only [inLoop, if_false]
      exact .nothing
  | returnValue _ value =>
    simp only [Stmt.rename, Stmt.walk] at walked ⊢
    by_cases outside : functions = 0
    · simp only [outside, if_true] at walked
      cases walked.accepted
    · simp only [outside, if_false] at walked ⊢
      exact Expr.walkOption_rename value (aligned.child 0) others walked
  | misplaced => cases walked.accepted

theorem Stmt.walkAll_rename (ss : List Stmt) (position : Nat) {f : Focus}
    {scopes scopes' : Scopes Unit} {loops functions : Nat}
    (aligned : Aligned r f.depth? scopes scopes')
    (others : ∀ name ∈ Stmt.allNames ss, name ≠ r.new)
    (walked : Walked r.table (Stmt.walkAll unlabelled scopes loops functions ss)
      (Stmt.allUseIds ss)) :
    Tallies (Stmt.walkAll unlabelled scopes loops functions ss)
      (Stmt.walkAll unlabelled scopes' loops functions (Stmt.renameAll r f position ss)) := by
  cases ss with
  | nil => exact .nothing
  | cons s rest =>
    obtain ⟨inHead, inRest⟩ := List.forall_mem_append.1 others
    obtain ⟨first, second⟩ := walked.andThen
      ((Stmt.walk_at unlabelled [] s _ _ _).inside (Stmt.ids_sites _ _ s))
      ((Stmt.walkAll_at unlabelled [] rest _ _ _).inside (Stmt.ids_allSites _ _ rest))
    have after := (Stmt.after_rename s (aligned.child position) inHead).of_child
    exact (Stmt.walk_rename s (aligned.child position) inHead first).andThen
      (Stmt.walkAll_rename rest (position + 1) after inRest second)

theorem Stmt.walkOption_rename (s? : Option Stmt) {f : Focus} {scopes scopes' : Scopes Unit}
    {loops functions : Nat} (aligned : Aligned r f.depth? scopes scopes')
    (others : ∀ name ∈ Stmt.optionNames s?, name ≠ r.new)
    (walked : Walked r.table (Stmt.walkOption unlabelled scopes loops functions s?)
      (Stmt.optionUseIds s?)) :
    Tallies (Stmt.walkOption unlabelled scopes loops functions s?)
      (Stmt.walkOption unlabelled scopes' loops functions (Stmt.renameOption r f s?)) := by
  cases s? with
  | none => exact .nothing
  | some s => exact Stmt.walk_rename s aligned others walked

end

end

/-! ## Whole programs -/

/-- The walk over a renamed program is not refused and notes the same distances. -/
theorem Program.resolution_rename {p : Program} (accepted : p.resolution.outcome = .ok ())
    (nodup : p.useIds.Nodup) (path : List Nat) (old new : String) (fresh : new ∉ p.names) :
    (p.rename path old new).resolution.outcome = .ok () ∧
      (p.rename path old new).resolution.uses.map Use.outline =
        p.resolution.uses.map Use.outline := by
  have others : ∀ name ∈ p.names, name ≠ new := by
    rintro name member rfl
    exact fresh member
  have tallies := Stmt.walkAll_rename (r := ⟨p.distances, old, new⟩) p 0
    (.nil (Focus.depth? (.toward path))) others (Program.walked accepted nodup)
  refine ⟨Program.accepted_iff.2 tallies.accepted', ?_⟩
  rw [Program.uses_eq, Program.uses_eq]
  exact tallies.same

end Lox
