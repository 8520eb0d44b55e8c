import Lox.Proofs.Alike.Sessions
import Lox.Proofs.Renaming.Scopes
import Lox.Proofs.Scopes.Tables
import Lox.Proofs.Sessions.Stages

/-!
# Runs of renamed programs

A program and the same program with a local variable renamed run alike: in the frames of the scope
of the variable the two names change places, and all other frames have the same names. So local
names are bound by the text around them alone, and no frame of a caller or of another scope catches
a use under the new name.
-/

namespace Lox

/-- The marks around a place tell which frame is one of the scope. -/
def Seen (f : Focus) (around : List Bool) : Prop :=
  ∀ (distance : Nat) (mark : Bool), around[distance]? = some mark →
    mark = decide (f.depth? = some distance)

namespace Seen

variable {f : Focus} {around : List Bool}

theorem child (seen : Seen f around) (position : Nat) : Seen (f.child position) around := by
  unfold Seen
  rw [Focus.depth?_child]
  exact seen

theorem enter (seen : Seen f around) :
    Seen f.enter (decide (f.enter.depth? = some 0) :: around) := by
  intro distance mark found
  cases distance with
  | zero =>
    simp only [List.getElem?_cons_zero, Option.some.injEq] at found
    exact found.symm
  | succ distance =>
    have isMark := seen distance mark found
    simp only [isMark, ← Focus.outward_enter f, outward_eq]

end Seen

/-- A tree and the renamed one correspond: uses with a distance by the frame there, and all others
by having the same name. -/
def Renaming.likeness (r : Renaming) : Likeness Bool where
  lines line line' := line' = line
  enters _ _ _ _ := True
  uses around id name id' name' := id' = id ∧ name'.line = name.line ∧ name.lexeme ≠ r.new ∧
    (r.table[id]? = none → name'.lexeme = name.lexeme) ∧
    ∀ distance, r.table[id]? = some distance → ∀ mark, around[distance]? = some mark →
      name'.lexeme = r.keys.key mark name.lexeme
  names around name name' :=
    ∀ mark, around[0]? = some mark → name'.lexeme = r.keys.key mark name.lexeme
  missing name name' := name' = name ∨ name = r.old ∧ name' = r.new

namespace Renaming

variable {r : Renaming} {f : Focus} {around : List Bool}

theorem likeness_used (seen : Seen f around) (id : Nat) {name : Token}
    (notNew : name.lexeme ≠ r.new) :
    r.likeness.uses around id name id (r.used f id name) := by
  refine ⟨rfl, used_line, notNew, fun missing => by rw [used_of_none missing], ?_⟩
  intro distance found mark isMark
  rw [used_lexeme found notNew]
  rw [← seen distance mark isMark]

theorem likeness_declared (seen : Seen f around) {name : Token} (notNew : name.lexeme ≠ r.new) :
    r.likeness.names around name (r.declared f name) := by
  intro mark isMark
  rw [declared_lexeme notNew]
  rw [← seen 0 mark isMark]

theorem likeness_allDeclared (seen : Seen f around) {names : List Token}
    (notNew : ∀ name ∈ names, name.lexeme ≠ r.new) :
    List.Forall₂ (r.likeness.names around) names (names.map (r.declared f)) := by
  induction names with
  | nil => exact .nil
  | cons name rest ih =>
    obtain ⟨first, others⟩ := List.forall_mem_cons.1 notNew
    exact .cons (likeness_declared seen first) (ih others)

theorem operators_alike (t : Token) : t.Alike r.likeness t := ⟨rfl, rfl, rfl⟩

end Renaming

section
variable {r : Renaming}

mutual

theorem Expr.alike_rename (e : Expr) {f : Focus} {around : List Bool} (seen : Seen f around)
    (others : ∀ name ∈ e.names, name ≠ r.new) : Expr.Alike r.likeness around e (e.rename r f) := by
  cases e with
  | literal id value => exact .literal _ _ _
  | misplaced kind => exact .misplaced kind
  | grouping _ inner => exact .grouping _ _ (Expr.alike_rename inner (seen.child 0) others)
  | unary _ operator right =>
    exact .unary _ _ (r.operators_alike operator) (Expr.alike_rename right (seen.child 0) others)
  | step _ left operator =>
    exact .step _ _ (Expr.alike_rename left (seen.child 0) others) (r.operators_alike operator)
  | binary _ left operator right =>
    obtain ⟨inLeft, inRight⟩ := List.forall_mem_append.1 others
    exact .binary _ _ (Expr.alike_rename left (seen.child 0) inLeft) (r.operators_alike operator)
      (Expr.alike_rename right (seen.child 1) inRight)
  | logical _ left operator right =>
    obtain ⟨inLeft, inRight⟩ := List.forall_mem_append.1 others
    exact .logical _ _ (Expr.alike_rename left (seen.child 0) inLeft) (r.operators_alike operator)
      (Expr.alike_rename right (seen.child 1) inRight)
  | reference id name =>
    exact .reference (r.likeness_used seen id (others _ (List.mem_singleton_self _)))
  | assignment id name value =>
    obtain ⟨notNew, inValue⟩ := List.forall_mem_cons.1 others
    exact .assignment (r.likeness_used seen id notNew)
      (Expr.alike_rename value (seen.child 0) inValue)
  | call _ callee arguments paren =>
    obtain ⟨inCallee, inArguments⟩ := List.forall_mem_append.1 others
    exact .call _ _ (Expr.alike_rename callee (seen.child 0) inCallee)
      (Expr.allAlike_rename arguments 1 seen inArguments) rfl
  | lambda _ keyword params body name =>
    obtain ⟨inParams, inBody⟩ := List.forall_mem_append.1 others
    have notNew : ∀ name ∈ params, name.lexeme ≠ r.new :=
      fun name member => inParams _ (List.mem_map_of_mem member)
    exact .lambda _ _ trivial rfl rfl (r.likeness_allDeclared seen.enter notNew)
      (Stmt.allAlike_rename body 0 seen.enter inBody)

theorem Expr.allAlike_rename (es : List Expr) (position : Nat) {f : Focus} {around : List Bool}
    (seen : Seen f around) (others : ∀ name ∈ Expr.allNames es, name ≠ r.new) :
    Expr.AllAlike r.likeness around es (Expr.renameAll r f position es) := by
  cases es with
  | nil => exact .nil
  | cons e rest =>
    obtain ⟨inHead, inRest⟩ := List.forall_mem_append.1 others
    exact .cons (Expr.alike_rename e (seen.child position) inHead)
      (Expr.allAlike_rename rest (position + 1) seen inRest)

theorem Expr.optionAlike_rename (e? : Option Expr) {f : Focus} {around : List Bool}
    (seen : Seen f around) (others : ∀ name ∈ Expr.optionNames e?, name ≠ r.new) :
    Expr.OptionAlike r.likeness around e? (Expr.renameOption r f e?) := by
  cases e? with
  | none => exact .none
  | some e => exact .some (Expr.alike_rename e seen others)

theorem Stmt.alike_rename (s : Stmt) {f : Focus} {around : List Bool} (seen : Seen f around)
    (others : ∀ name ∈ s.names, name ≠ r.new) : Stmt.Alike r.likeness around s (s.rename r f) := by
  cases s with
  | expression e => exact .expression (Expr.alike_rename e (seen.child 0) others)
  | declaration name initializer =>
    obtain ⟨notNew, inInitializer⟩ := List.forall_mem_cons.1 others
    exact .declaration (r.likeness_declared seen notNew)
      (Expr.optionAlike_rename initializer (seen.child 0) inInitializer)
  | block statements => exact .block trivial (Stmt.allAlike_rename statements 0 seen.enter others)
  | ifElse condition thenBranch elseBranch =>
    obtain ⟨inCondition, inBranches⟩ := List.forall_mem_append.1 others
    obtain ⟨inThen, inElse⟩ := List.forall_mem_append.1 inBranches
    exact .ifElse (Expr.alike_rename condition (seen.child 0) inCondition)
      (Stmt.alike_rename thenBranch (seen.child 1) inThen)
      (Stmt.optionAlike_rename elseBranch (seen.child 2) inElse)
  | whileLoop condition body increment =>
    obtain ⟨inCondition, inRest⟩ := List.forall_mem_append.1 others
    obtain ⟨inBody, inIncrement⟩ := List.forall_mem_append.1 inRest
    exact .whileLoop (Expr.alike_rename condition (seen.child 0) inCondition)
      (Stmt.alike_rename body (seen.child 1) inBody)
      (Expr.optionAlike_rename increment (seen.child 2) inIncrement)
  | breakLoop keyword => exact .breakLoop _ _
  | continueLoop keyword => exact .continueLoop _ _
  | returnValue keyword value =>
    exact .returnValue _ _ (Expr.optionAlike_rename value (seen.child 0) others)
  | misplaced kind => exact .misplaced kind

theorem Stmt.allAlike_rename (ss : List Stmt) (position : Nat) {f : Focus} {around : List Bool}
    (seen : Seen f around) (others : ∀ name ∈ Stmt.allNames ss, name ≠ r.new) :
    Stmt.AllAlike r.likeness around ss (Stmt.renameAll r f position ss) := by
  cases ss with
  | nil => exact .nil
  | cons s rest =>
    obtain ⟨inHead, inRest⟩ := List.forall_mem_append.1 others
    exact .cons (Stmt.alike_rename s (seen.child position) inHead)
      (Stmt.allAlike_rename rest (position + 1) seen inRest)

theorem Stmt.optionAlike_rename (s? : Option Stmt) {f : Focus} {around : List Bool}
    (seen : Seen f around) (others : ∀ name ∈ Stmt.optionNames s?, name ≠ r.new) :
    Stmt.OptionAlike r.likeness around s? (Stmt.renameOption r f s?) := by
  cases s? with
  | none => exact .none
  | some s => exact .some (Stmt.alike_rename s seen others)

end

end

/-! ## Whole runs -/

/-- Uses that correspond find their variables at the same distances under corresponding names. -/
theorem Renaming.finds (r : Renaming) : r.likeness.Finds r.keys r.table r.table where
  lines use := use.2.1
  distance use := by rw [use.1]
  names := by
    rintro around id id' name name' ⟨_, _, notNew, _, named⟩ distance found mark isMark
    have corresponds := named distance found mark isMark
    refine ⟨?_, corresponds⟩
    rw [corresponds]
    by_cases isOld : name.lexeme = r.old
    · rw [isOld]
      cases mark with
      | true => exact .inr ⟨rfl, key_old⟩
      | false => exact .inl rfl
    · exact .inl (key_of_ne isOld notNew)
  globals use missing := use.2.2.2.1 missing
  declared named := named _ rfl

/-- Runs end in the same way, but that one may tell of the old name without a value what the other
tells of the new one. -/
inductive EndsAlike (old new : String) : Except Failure Unit → Except Failure Unit → Prop
  | same (ending : Except Failure Unit) : EndsAlike old new ending ending
  | uninitialized (line : Option Int) (context : List CallStep) :
      EndsAlike old new (.error (.stopped (.error ⟨.uninitialized old, line, context⟩)))
        (.error (.stopped (.error ⟨.uninitialized new, line, context⟩)))

theorem Renaming.ends {r : Renaming} {e e' : Stop} (alike : e.Alike r.likeness e') :
    EndsAlike r.old r.new (.error (.stopped e)) (.error (.stopped e')) := by
  cases alike with
  | @error e e' alike =>
    obtain ⟨cause, line, context⟩ := e
    obtain ⟨cause', line', context'⟩ := e'
    obtain ⟨causes, lines, contexts⟩ := alike
    dsimp only at causes lines contexts
    cases RuntimeError.context_eq (fun same => same) contexts
    cases RuntimeError.line_eq (fun same => same) lines
    cases causes with
    | same => exact .same _
    | uninitialized names =>
      rcases names with rfl | ⟨rfl, rfl⟩
      · exact .same _
      · exact .uninitialized _ _
  | fault f => exact .same _
  | outOfFuel => exact .same _

/-- What a program does in a session of its own. -/
def Program.freshRun (console : Console) (debugLevel fuel : Nat) (p : Program) :
    Except Failure Unit × Session :=
  (Session.start console debugLevel).after do
    Acting.install p.resolution
    Acting.runTrees fuel p

/-- A program that is accepted is run with the distances that were noted. -/
theorem Program.freshRun_eq {p : Program} (accepted : p.resolution.outcome = .ok ())
    (console : Console) (debugLevel : Nat) :
    ∃ trace, ∀ fuel, p.freshRun console debugLevel fuel =
      Session.after ⟨{ Machine.initial console debugLevel with trace }, p.distances, 1⟩
        (Acting.runTrees fuel p) := by
  obtain ⟨trace, installed⟩ := Acting.install_eq p.resolution (.start console debugLevel)
  refine ⟨trace, fun fuel => ?_⟩
  rw [accepted] at installed
  rw [Program.freshRun, Session.after, run_bind_of_ok installed]
  rfl

/-- A local variable can be renamed to any name that does not occur: the renamed program is accepted
with the same distances, and does the same to the console and to the global variables up to the
bodies of functions, and ends in the same way. No two nodes of a program have the same number; of a
program that was read this is `Grammar.apart_of_program`. -/
theorem rename_local {p : Program} (accepted : p.resolution.outcome = .ok ())
    (nodup : p.useIds.Nodup) (path : List Nat) (old new : String) (fresh : new ∉ p.names) :
    let p' := p.rename path old new
    p'.resolution.outcome = .ok () ∧
      p'.resolution.uses.map Use.outline = p.resolution.uses.map Use.outline ∧
      ∀ (console : Console) (debugLevel fuel : Nat),
        let ran := p.freshRun console debugLevel fuel
        let ran' := p'.freshRun console debugLevel fuel
        EndsAlike old new ran.1 ran'.1 ∧ ran'.2.machine.console = ran.2.machine.console ∧
          ran'.2.machine.store.globalOutlines = ran.2.machine.store.globalOutlines := by
  intro p'
  obtain ⟨accepted', sameUses⟩ := Program.resolution_rename accepted nodup path old new fresh
  refine ⟨accepted', sameUses, ?_⟩
  intro console debugLevel fuel ran ran'
  have sameTable : p'.distances = p.distances := Distances.insertUses_congr sameUses
  let r : Renaming := ⟨p.distances, old, new⟩
  have others : ∀ name ∈ p.names, name ≠ r.new := by
    rintro name member rfl
    exact fresh member
  have seen : Seen (.toward path) [false] := by
    intro distance mark found
    cases distance with
    | zero => simpa [Focus.depth?] using found.symm
    | succ distance => simp at found
  have alike : Stmt.AllAlike r.likeness [false] p p' := Stmt.allAlike_rename p 0 seen others
  obtain ⟨trace, isRun⟩ := Program.freshRun_eq accepted console debugLevel
  obtain ⟨trace', isRun'⟩ := Program.freshRun_eq accepted' console debugLevel
  have states : Machine.Alike r.likeness r.keys [false]
      { Machine.initial console debugLevel with trace }
      { Machine.initial console debugLevel with trace := trace' } :=
    ⟨rfl, Store.alike_initial, rfl, rfl⟩
  rw [sameTable] at isRun'
  let s : Session := ⟨{ Machine.initial console debugLevel with trace }, p.distances, 1⟩
  let s' : Session := ⟨{ Machine.initial console debugLevel with trace := trace' }, p.distances, 1⟩
  have statesOfSessions : Machine.Alike r.likeness r.keys [false] s.machine s'.machine := states
  obtain ⟨marks, _, states, endings⟩ := runTrees_alike fuel r.finds statesOfSessions alike
  show EndsAlike old new (p.freshRun console debugLevel fuel).1
    (p'.freshRun console debugLevel fuel).1 ∧ _
  rw [← isRun, ← isRun'] at states endings
  refine ⟨?_, states.console, states.store.globalOutlines states.root⟩
  revert endings
  generalize (p.freshRun console debugLevel fuel).1 = ending
  generalize (p'.freshRun console debugLevel fuel).1 = ending'
  intro endings
  cases endings with
  | ok => exact .same _
  | stopped stops => exact Renaming.ends stops

/-- The variable of a block can be renamed, also where a function of the block uses it. -/
theorem rename_in_block :
    let x : Token := ⟨.identifier, "x", .nil, 1⟩
    let keyword : Token := ⟨.funWord, "fun", .nil, 1⟩
    let p : Program := [.block [.declaration x none,
      .expression (.lambda 2 keyword [] [.expression (.reference 1 x)] none)]]
    let p' := p.rename [0] "x" "y"
    p.resolution.outcome = .ok () ∧ p.useIds.Nodup ∧ "y" ∉ p.names ∧ p'.names = ["y", "y"] ∧
      p'.resolution.outcome = .ok () := by
  intro x keyword p p'
  have accepted : p.resolution.outcome = .ok () := by
    have isOk : p.resolution.outcome.isOk = true := by decide +kernel
    revert isOk
    cases p.resolution.outcome with
    | error e => exact nofun
    | ok u => exact fun _ => rfl
  have nodup : p.useIds.Nodup := by decide
  have fresh : "y" ∉ p.names := by decide
  refine ⟨accepted, nodup, fresh, by decide +kernel, ?_⟩
  exact (rename_local accepted nodup [0] "x" "y" fresh).1

end Lox
