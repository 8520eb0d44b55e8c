import Mathlib.Data.List.Perm.Subperm
import Mathlib.Logic.Equiv.Basic
import Lox.Proofs.Matching.Ends
import Lox.Proofs.Scopes.Permuted

/-!
# Function declarations in another order

A function that is declared outside of all blocks and functions finds the others when it is called,
not when it is declared. Main statement: functions declared one after the other under different names
can be declared in any order.
-/

namespace Lox

/-- A function declaration. -/
structure FunctionDeclaration where
  id : Nat
  keyword : Token
  name : Token
  params : List Token
  body : List Stmt

/-- A function declaration declares a variable with the function, which has the name as well. -/
def FunctionDeclaration.statement (f : FunctionDeclaration) : Stmt :=
  .declaration f.name (some (.lambda f.id f.keyword f.params f.body (some f.name)))

/-! ## Ends up to the identities of functions -/

/-- Whenever a program ends, so does another one: in the same way, with the same console, and with the
same global variables up to a permutation of the identities of functions. -/
def Program.EndsAs (p p' : Program) : Prop :=
  ∀ (console : Console) (debugLevel : Nat) (outcome : Except Failure Unit)
    (left : Console × List (String × Value)), p.EndsWith console debugLevel outcome left →
    ∃ π : Equiv.Perm Nat, p'.EndsWith console debugLevel outcome (renamedLeft π left)

namespace Program.EndsAs

variable {p p' p'' : Program}

theorem refl (p : Program) : p.EndsAs p := by
  intro console debugLevel outcome left ends
  refine ⟨Equiv.refl Nat, ?_⟩
  rwa [Equiv.coe_refl, renamedLeft_id]

theorem trans (first : p.EndsAs p') (second : p'.EndsAs p'') : p.EndsAs p'' := by
  intro console debugLevel outcome left ends
  obtain ⟨π, ends'⟩ := first console debugLevel outcome left ends
  obtain ⟨ρ, ends''⟩ := second console debugLevel outcome _ ends'
  refine ⟨π.trans ρ, ?_⟩
  rwa [Equiv.coe_trans, ← renamedLeft_comp]

end Program.EndsAs

namespace Matching

/-- How the run of a program matches that of one with other numbers of nodes and another order of
functions. -/
def reordering (T T' : Distances) : Matching where
  table := T
  table' := T'
  respells := False
  admits _ := True
  admits_nil := trivial
  admits_next _ _ := trivial
  blur := id
  blur_step := nofun

section
variable {w : List Nat} (nodup : w.Nodup) (inside : ∀ i ∈ w, i < w.length)
include nodup inside

theorem placeOf_injective : (placeOf w).Injective := by
  intro i j same
  rcases Nat.lt_or_ge i w.length with listed | beyond <;>
    rcases Nat.lt_or_ge j w.length with listed' | beyond'
  · rw [placeOf_of_lt listed, placeOf_of_lt listed'] at same
    exact nodup.getElem_inj_iff.1 same
  · rw [placeOf_of_lt listed, placeOf_of_le beyond'] at same
    exact absurd (inside _ (List.getElem_mem listed)) (same ▸ Nat.not_lt_of_ge beyond')
  · rw [placeOf_of_le beyond, placeOf_of_lt listed'] at same
    exact absurd (inside _ (List.getElem_mem listed')) (same ▸ Nat.not_lt_of_ge beyond)
  · rwa [placeOf_of_le beyond, placeOf_of_le beyond'] at same

/-- The list has all identities below its length, as it has as many different ones. -/
theorem placeOf_surjective : (placeOf w).Surjective := by
  intro j
  rcases Nat.lt_or_ge j w.length with below | beyond
  · have subset : w ⊆ List.range w.length := fun i member => List.mem_range.2 (inside i member)
    have perm : w.Perm (List.range w.length) :=
      (List.subperm_of_subset nodup subset).perm_of_length_le (by simp)
    obtain ⟨i, listed, rfl⟩ := List.getElem_of_mem (perm.mem_iff.2 (List.mem_range.2 below))
    exact ⟨i, placeOf_of_lt listed⟩
  · exact ⟨j, placeOf_of_le beyond⟩

end

/-- The permutation of identities that is listed in the machines. -/
noncomputable def Machines.renaming {M : Matching} {w : List Nat} {m m' : Machine}
    (states : M.Machines w m m') : Equiv.Perm Nat :=
  Equiv.ofBijective (placeOf w)
    ⟨placeOf_injective states.nodup states.inside, placeOf_surjective states.nodup states.inside⟩

theorem Machines.stripped_renaming {M : Matching} {w : List Nat} {m m' : Machine}
    (states : M.Machines w m m') : m'.stripped = renamedLeft states.renaming m.stripped :=
  states.stripped_renamed

theorem blur_id (outcome : Except Failure Unit) : outcome.mapError (·.blur id) = outcome := by
  cases outcome with
  | ok u => rfl
  | error f =>
    cases f with
    | stopped s => cases s <;> rfl
    | _ => rfl

/-- If a program follows another one up to the order of functions, both end in the same way or
never. -/
theorem endsAs_of_follows {p p' : Program} (accepted : p.resolution.outcome = .ok ())
    (accepted' : p'.resolution.outcome = .ok ())
    (follows : ∀ fuel, (reordering p.distances p'.distances).Follows (fun _ _ _ => True) fuel []
      (interpret (Access.distances p.distances).steps fuel p)
      fun k => interpret (Access.distances p'.distances).steps k p') :
    p.EndsAs p' ∧ p'.EndsAs p := by
  have sameOutcome {outcome outcome' : Except Failure Unit}
      (told : outcome'.mapError (·.blur id) = outcome.mapError (·.blur id)) : outcome' = outcome := by
    rwa [blur_id, blur_id] at told
  constructor
  · intro console debugLevel outcome left ends
    obtain ⟨outcome', left', ends', told, w, m, m', states, rfl, rfl⟩ :=
      (exists_sameEnds accepted accepted' follows console debugLevel).1 outcome left ends
    refine ⟨states.renaming, ?_⟩
    rw [← states.stripped_renaming, ← sameOutcome told]
    exact ends'
  · intro console debugLevel outcome' left' ends'
    obtain ⟨outcome, left, ends, told, w, m, m', states, rfl, rfl⟩ :=
      (exists_sameEnds accepted accepted' follows console debugLevel).2 outcome' left' ends'
    refine ⟨states.renaming.symm, ?_⟩
    rw [states.stripped_renaming, renamedLeft_comp, Equiv.symm_comp_self, renamedLeft_id,
      sameOutcome told]
    exact ends

end Matching

/-! ## Declaring functions -/

namespace FunctionDeclaration

variable (f g : FunctionDeclaration)

/-- The function that is declared outside of all blocks and functions. -/
def value (identity : Nat) : Value :=
  .closure ⟨identity, f.keyword, f.params, f.body, some f.name, .global⟩

/-- What a declaration outside of all blocks and functions makes of a machine. -/
def declared (m : Machine) : Machine :=
  let v := f.value m.closures
  { m with
    store := m.store.define .global f.name.lexeme v
    closures := m.closures + 1
    trace := m.trace.note (.declared f.name.lexeme v) }

variable {n : Nat} (T : Distances) (m : Machine)

/-- Nothing but fuel is needed for declaring functions. -/
theorem interpret_pair (enough : 2 ≤ n) :
    interpret (Access.distances T).steps n [f.statement, g.statement] m =
      .ok () (g.declared (f.declared m)) := by
  obtain ⟨k, rfl⟩ := Nat.exists_eq_add_of_le' enough
  rfl

theorem interpret_pair_of_lt (few : n < 2) :
    interpret (Access.distances T).steps n [f.statement, g.statement] m = .error .outOfFuel m := by
  match n, few with
  | 0, _ => rfl
  | 1, _ => rfl

end FunctionDeclaration

/-- Variables with different names are declared in any order. -/
theorem Store.bindings_bind_comm (s : Store) (r : Ref) {name other : String} (differ : name ≠ other)
    (v u : Value) (r' : Ref) (x : String) :
    (((s.bind r name v).bind r other u).bindings r')[x]? =
      (((s.bind r other u).bind r name v).bindings r')[x]? := by
  simp only [bindings_bind, size_bind]
  by_cases here : r = r' ∧ r < s.frames.size
  · obtain ⟨rfl, inside⟩ := here
    simp only [inside, and_self, if_true, getElem?_insert_string]
    by_cases isName : name = x
    · have notOther : ¬ other = x := fun isOther => differ (isName.trans isOther.symm)
      simp only [isName, notOther, if_true, if_false]
    · simp only [isName, if_false]
  · simp only [here, if_false]

namespace Matching

variable {T T' : Distances} (tables : ∀ i : Nat, T'[i]? = T[i]?)
include tables

/-- With the same distances trees match themselves. -/
theorem allMatches_self (ss : List Stmt) :
    Stmt.AllMatches (reordering T T').respells (reordering T T').uses ss ss := by
  have matching : Stmt.AllMatches (reordering T T').respells (reordering T T').uses ss
      (Stmt.relabelAll id id ss) := Stmt.allMatches_relabel ss fun i _ => tables i
  rwa [Stmt.relabelAll_id] at matching

variable {n : Nat} {w : List Nat} {f g : FunctionDeclaration} {m m' : Machine}

/-- Of two functions that are declared in another order each has the identity of the other. -/
theorem machines_swap (differ : f.name.lexeme ≠ g.name.lexeme)
    (states : (reordering T T').Machines w m m') :
    (reordering T T').Machines (w ++ [w.length + 1, w.length]) (g.declared (f.declared m))
      (f.declared (g.declared m')) := by
  have further : w <+: w ++ [w.length + 1, w.length] := List.prefix_append _ _
  have function (d : FunctionDeclaration) {i i' : Nat}
      (place : (w ++ [w.length + 1, w.length])[i]? = some i') :
      (reordering T T').Values (w ++ [w.length + 1, w.length]) (d.value i) (d.value i') :=
    .closure ⟨place, rfl, rfl, rfl, rfl, allMatches_self tables d.body⟩
  have first : (w ++ [w.length + 1, w.length])[w.length]? = some (w.length + 1) := by simp
  have second : (w ++ [w.length + 1, w.length])[w.length + 1]? = some w.length := by simp
  have stores := ((states.stores.later further).bind 0 f.name.lexeme (function f first)).bind 0
    g.name.lexeme (function g second)
  have next : ∀ i ∈ [w.length + 1, w.length], w.length ≤ i ∧ i < w.length + 2 := by simp
  refine ⟨⟨?_, fun r name => ?_⟩, states.console, ?_, ?_, states.nodup_append next (by simp),
    states.inside_append next, trivial⟩
  · simp only [FunctionDeclaration.declared, Store.define, Store.size_bind, states.stores.size]
  · have values := stores.values r name
    rw [Store.bindings_bind_comm m'.store _ differ] at values
    simp only [FunctionDeclaration.declared, Store.define, states.closures, states.closures']
    exact values
  · simp [FunctionDeclaration.declared, states.closures]
  · simp [FunctionDeclaration.declared, states.closures']

/-- Two function declarations in another order follow the same ones. -/
theorem follows_swap (differ : f.name.lexeme ≠ g.name.lexeme) :
    (reordering T T').Follows (fun _ _ _ => True) n w
      (interpret (Access.distances T).steps n [f.statement, g.statement])
      fun k => interpret (Access.distances T').steps k [g.statement, f.statement] := by
  refine .of_trails fun m m' states => ?_
  by_cases enough : 2 ≤ n
  · refine .inr ⟨.ok () (f.declared (g.declared m')), ⟨fun k => ?_, 2, fun k more => ?_⟩, ?_⟩
    · by_cases more : 2 ≤ k
      · exact .inr (g.interpret_pair f T' m' more)
      · exact .inl ⟨m', g.interpret_pair_of_lt f T' m' (Nat.lt_of_not_le more)⟩
    · exact g.interpret_pair f T' m' more
    · rw [f.interpret_pair g T m enough]
      exact .ok _ (List.prefix_append _ _) (machines_swap tables differ states) trivial
  · refine .inl ⟨⟨m, f.interpret_pair_of_lt g T m (Nat.lt_of_not_le enough)⟩, fun k few => ?_⟩
    exact ⟨m', g.interpret_pair_of_lt f T' m' (by omega)⟩

end Matching

/-! ## Programs -/

theorem interpret_append {σ : Type} (steps : Steps σ) (fuel : Nat) (p q : Program) :
    interpret steps fuel (p ++ q) = interpret steps fuel p >>= fun _ => interpret steps fuel q :=
  List.forM_append

/-- Two function declarations of an accepted program can change places. -/
theorem Program.endsAs_swap {f g : FunctionDeclaration} (differ : f.name.lexeme ≠ g.name.lexeme)
    (before after : Program) {p q : Program} (isProgram : p = before ++ ([f.statement, g.statement] ++ after))
    (isSwapped : q = before ++ ([g.statement, f.statement] ++ after))
    (accepted : p.resolution.outcome = .ok ()) (nodup : p.useIds.Nodup) : p.EndsAs q := by
  have perm : q.Perm p := by
    rw [isProgram, isSwapped]
    exact ((List.Perm.swap _ _ []).append_right after).append_left before
  have tables (i : Nat) : q.distances[i]? = p.distances[i]? := distances_perm perm accepted nodup i
  refine (Matching.endsAs_of_follows accepted (resolution_perm perm accepted).1 fun fuel => ?_).1
  generalize p.distances = T at tables ⊢
  generalize q.distances = T' at tables ⊢
  subst isProgram isSwapped
  simp only [interpret_append]
  refine (Matching.follows_interpret fuel (Matching.allMatches_self tables before)).bind
    fun w further _ _ _ => ?_
  refine (Matching.follows_swap tables differ).bind fun w' further' _ _ _ => ?_
  exact Matching.follows_interpret fuel (Matching.allMatches_self tables after)

/-- Function declarations with different names of an accepted program can be in any order. -/
theorem Program.endsAs_perm {functions functions' : List FunctionDeclaration}
    (perm : functions'.Perm functions) (before after : Program) :
    (functions.map (·.name.lexeme)).Nodup →
    Resolution.outcome (Program.resolution (before ++ (functions.map (·.statement) ++ after))) = .ok () →
    (Program.useIds (before ++ (functions.map (·.statement) ++ after))).Nodup →
    Program.EndsAs (before ++ (functions.map (·.statement) ++ after))
      (before ++ (functions'.map (·.statement) ++ after)) := by
  induction perm generalizing before with
  | nil => exact fun _ _ _ => .refl _
  | cons f _ ih =>
    intro different accepted nodup
    have next := ih (before ++ [f.statement]) (List.nodup_cons.1 different).2
    simp only [List.append_assoc, List.singleton_append] at next
    exact next accepted nodup
  | swap f g rest =>
    intro different accepted nodup
    have differ : f.name.lexeme ≠ g.name.lexeme := by
      intro same
      simp [same] at different
    exact Program.endsAs_swap differ before (rest.map (·.statement) ++ after) rfl rfl accepted nodup
  | @trans first second third inner outer ih ih' =>
    intro different accepted nodup
    have programs : (before ++ (second.map (·.statement) ++ after)).Perm
        (before ++ (third.map (·.statement) ++ after)) :=
      ((outer.map _).append_right after).append_left before
    refine (ih' before different accepted nodup).trans (ih before ?_ ?_ ?_)
    · exact (outer.map _).nodup_iff.2 different
    · exact (Program.resolution_perm programs accepted).1
    · exact (Program.useIds_perm programs).nodup_iff.2 nodup

/-- A program with other numbers of nodes ends as it did. -/
theorem Program.endsAs_relabel {p : Program} (numbers : Nat → Nat)
    (accepted : p.resolution.outcome = .ok ())
    (nodup : (Program.useIds (Stmt.relabelAll id numbers p)).Nodup) :
    p.EndsAs (Stmt.relabelAll id numbers p) ∧
      Program.EndsAs (Stmt.relabelAll id numbers p) p := by
  have accepted' := (Program.resolution_relabel id numbers accepted).1
  refine Matching.endsAs_of_follows accepted accepted' fun fuel => ?_
  exact Matching.follows_interpret fuel
    (Stmt.allMatches_relabel p fun i use => Program.distances_relabel numbers nodup use)

/-- Functions that are declared one after the other, outside of all blocks and functions and under
different names, can be declared in any order. The program stays accepted, with its uses at the same
distances under their new numbers, and for every console it ends in the same way, with the same
console and global variables, or never ends either. The console may stop to take lines, so that the
lines written before are the same as well. No two nodes have the same new number. -/
theorem declare_in_any_order {before after : Program} {functions functions' : List FunctionDeclaration}
    (numbers : Nat → Nat) (perm : functions'.Perm functions)
    (different : (functions.map (·.name.lexeme)).Nodup) :
    let p : Program := before ++ (functions.map (·.statement) ++ after)
    let p' : Program :=
      Stmt.relabelAll id numbers (before ++ (functions'.map (·.statement) ++ after))
    p.resolution.outcome = .ok () → p'.useIds.Nodup →
      p'.resolution.outcome = .ok () ∧
        (∀ i ∈ p.useIds, p'.distances[numbers i]? = p.distances[i]?) ∧
        p.EndsAs p' ∧ p'.EndsAs p := by
  intro p p' accepted nodup'
  let q : Program := before ++ (functions'.map (·.statement) ++ after)
  have programs : q.Perm p := ((perm.map _).append_right after).append_left before
  have uses : q.useIds.Perm p.useIds := Program.useIds_perm programs
  have nodupMap : (q.useIds.map numbers).Nodup := by
    rw [← show p'.useIds = q.useIds.map numbers from Stmt.allUseIds_relabelAll id numbers q]
    exact nodup'
  have nodup : p.useIds.Nodup := uses.nodup_iff.1 (List.Nodup.of_map numbers nodupMap)
  have acceptedPerm := (Program.resolution_perm programs accepted).1
  refine ⟨(Program.resolution_relabel id numbers acceptedPerm).1, fun i use => ?_, ?_, ?_⟩
  · rw [← Program.distances_perm programs accepted nodup i]
    exact Program.distances_relabel numbers nodup' (uses.mem_iff.2 use)
  · exact (Program.endsAs_perm perm before after different accepted nodup).trans
      (Program.endsAs_relabel numbers acceptedPerm nodup').1
  · refine (Program.endsAs_relabel numbers acceptedPerm nodup').2.trans ?_
    exact Program.endsAs_perm perm.symm before after ((perm.map _).nodup_iff.2 different) acceptedPerm
      (uses.nodup_iff.2 nodup)

/-- Two functions that call each other are declared in either order. -/
theorem declare_mutually_recursive :
    let n : Token := ⟨.identifier, "n", .nil, 1⟩
    let declaration (first : Nat) (name other : String) (line : Int) : FunctionDeclaration :=
      { id := first + 3
        keyword := ⟨.funWord, "fun", .nil, line⟩
        name := ⟨.identifier, name, .nil, line⟩
        params := [n]
        body := [.returnValue ⟨.returnWord, "return", .nil, line⟩
          (some (.call (first + 2) (.reference first ⟨.identifier, other, .nil, line⟩)
            [.reference (first + 1) n] ⟨.rightParen, ")", .nil, line⟩))] }
    let even := declaration 1 "even" "odd" 1
    let odd := declaration 5 "odd" "even" 2
    let after : Program := [.expression (.binary 11 (.reference 9 even.name)
      ⟨.equalEqual, "==", .nil, 3⟩ (.reference 10 odd.name))]
    let numbers (i : Nat) : Nat := if i ≤ 4 then i + 4 else if i ≤ 8 then i - 4 else i
    let p : Program := [even.statement, odd.statement] ++ after
    let p' : Program := Stmt.relabelAll id numbers ([odd.statement, even.statement] ++ after)
    p.resolution.outcome = .ok () ∧ p'.useIds.Nodup ∧ p'.resolution.outcome = .ok () ∧
      (∀ i ∈ p.useIds, p'.distances[numbers i]? = p.distances[i]?) ∧
      p.EndsAs p' ∧ p'.EndsAs p := by
  intro n declaration even odd after numbers p p'
  have accepted : p.resolution.outcome = .ok () := Program.accepted_of_isOk (by decide +kernel)
  have nodup' : p'.useIds.Nodup := by decide
  have perm : List.Perm [odd, even] [even, odd] := .swap even odd []
  exact ⟨accepted, nodup',
    @declare_in_any_order [] after [even, odd] [odd, even] numbers perm (by decide) accepted nodup'⟩

end Lox
