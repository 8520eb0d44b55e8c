import Mathlib.Data.List.Forall2
import Lox.Proofs.Safety.Trees
import Lox.Value.Store

/-!
# Frames that fit

While a program runs, frames are added and variables get values, and nothing is taken away. So what is
known of an environment stays known, and a function that fits into the frames around it still fits
when it is called.
-/

namespace Lox

/-! ## Stores that grow -/

/-- A store has all frames and variables of an earlier one. -/
structure Store.Grown (s s' : Store) : Prop where
  size : s.frames.size ≤ s'.frames.size
  kept : ∀ {r : Ref} {name : String}, (s.bindings r)[name]?.isSome → (s'.bindings r)[name]?.isSome

namespace Store

theorem Grown.refl (s : Store) : s.Grown s := ⟨Nat.le_refl _, id⟩

theorem Grown.trans {s s' s'' : Store} (first : s.Grown s') (second : s'.Grown s'') : s.Grown s'' :=
  ⟨Nat.le_trans first.size second.size, fun bound => second.kept (first.kept bound)⟩

theorem getElem?_bind (s : Store) (r r' : Ref) (name name' : String) (v : Value) :
    ((s.bind r name v).bindings r')[name']? =
      if r = r' ∧ r < s.frames.size ∧ name = name' then some v else (s.bindings r')[name']? := by
  rw [bindings_bind]
  by_cases here : r = r' ∧ r < s.frames.size
  · obtain ⟨rfl, inside⟩ := here
    simp only [inside, true_and, and_self, if_true, getElem?_insert_string]
  · have elsewhere : ¬ (r = r' ∧ r < s.frames.size ∧ name = name') :=
      fun ⟨same, inside, _⟩ => here ⟨same, inside⟩
    rw [if_neg here, if_neg elsewhere]

theorem grown_bind (s : Store) (r : Ref) (name : String) (v : Value) : s.Grown (s.bind r name v) := by
  refine ⟨Nat.le_of_eq (size_bind s r name v).symm, fun bound => ?_⟩
  rw [getElem?_bind]
  split
  · rfl
  · exact bound

theorem grown_grow (s : Store) : s.Grown s.grow := by
  refine ⟨?_, fun bound => ?_⟩
  · rw [size_grow]
    exact Nat.le_succ _
  · rw [bindings_grow]
    exact bound

/-! ## Frames with known names -/

/-- A frame is in the store, and has the names if that is claimed. -/
structure Has (definite : Prop) (s : Store) (r : Ref) (names : List String) : Prop where
  inside : r < s.frames.size
  bound : definite → ∀ name ∈ names, (s.bindings r)[name]?.isSome

section
variable {definite : Prop} {s s' : Store} {r : Ref} {names : List String}

theorem Has.grown (has : s.Has definite r names) (grown : s.Grown s') : s'.Has definite r names :=
  ⟨Nat.lt_of_lt_of_le has.inside grown.size,
    fun isDefinite name member => grown.kept (has.bound isDefinite name member)⟩

theorem Has.bind (has : s.Has definite r names) (name : String) (v : Value) :
    (s.bind r name v).Has definite r (name :: names) := by
  have kept := has.grown (s.grown_bind r name v)
  refine ⟨kept.inside, fun isDefinite => List.forall_mem_cons.2 ⟨?_, kept.bound isDefinite⟩⟩
  rw [getElem?_bind, if_pos ⟨rfl, has.inside, rfl⟩]
  rfl

theorem has_grow : s.grow.Has definite s.frames.size [] := by
  refine ⟨?_, fun _ _ member => absurd member List.not_mem_nil⟩
  rw [size_grow]
  exact Nat.lt_succ_self _

end

end Store

/-- The frames of an environment have the names that are known; the outermost one is global. -/
def Env.Knows (definite : Prop) (s : Store) (env : Env) (known : Names) : Prop :=
  List.Forall₂ (s.Has definite) env.chain (known ++ [[]])

namespace Env.Knows

variable {definite : Prop} {s s' : Store} {env : Env} {known : Names}

theorem grown (knows : env.Knows definite s known) (grown : s.Grown s') :
    env.Knows definite s' known :=
  knows.imp fun _ _ has => has.grown grown

theorem frame (knows : env.Knows definite s known) : env.frame < s.frames.size := by
  obtain ⟨frame, outer⟩ := env
  cases known with
  | nil => cases knows with | cons has _ => exact has.inside
  | cons => cases knows with | cons has _ => exact has.inside

/-- There is a frame at the distance of known names. -/
theorem frameAt (knows : env.Knows definite s known) {distance : Nat} {names : List String}
    (isKnown : known[distance]? = some names) :
    ∃ r, env.frameAt distance = .ok r ∧ s.Has definite r names := by
  obtain ⟨below, isNames⟩ := List.getElem?_eq_some_iff.1 isKnown
  have length := knows.length_eq
  rw [List.length_append] at length
  have inside : distance < env.chain.length := by omega
  refine ⟨env.chain[distance], ?_, ?_⟩
  · rw [Env.frameAt, List.getElem?_eq_getElem inside]
  · have has := (List.forall₂_iff_get.1 knows).2 distance inside (by simp; omega)
    simp only [List.get_eq_getElem, List.getElem_append_left below, isNames] at has
    exact has

/-- A variable that has been given a value is known. -/
theorem declare (knows : env.Knows definite s known) (name : Token) (v : Value) :
    env.Knows definite (s.define env name.lexeme v) (known.declare name) := by
  have grown := s.grown_bind env.frame name.lexeme v
  obtain ⟨frame, outer⟩ := env
  cases known with
  | nil => exact knows.grown grown
  | cons names known =>
    cases knows with
    | cons has around => exact .cons (has.bind name.lexeme v) (around.imp fun _ _ has => has.grown grown)

/-- Nothing is known of a frame that has just been made. -/
theorem enter (knows : env.Knows definite s known) :
    (s.nextEnv env.chain).Knows definite s.grow ([] :: known) :=
  .cons Store.has_grow (knows.grown s.grown_grow)

theorem global (inside : 0 < s.frames.size) : Env.global.Knows definite s [] :=
  .cons ⟨inside, fun _ _ member => absurd member List.not_mem_nil⟩ .nil

/-- A frame may be asked for fewer names. -/
theorem weaken {definite' : Prop} (knows : env.Knows definite s known)
    (imp : definite' → definite) : env.Knows definite' s known :=
  List.Forall₂.imp (fun _ _ has => ⟨has.inside, fun isDefinite => has.bound (imp isDefinite)⟩) knows

end Env.Knows

/-! ## Values that fit -/

/-- The body of a function fits into a frame with its parameters inside of the frames around it. -/
def Closure.Fits (W : Usage) (s : Store) (c : Closure) : Prop :=
  ∃ known, c.env.Knows W.definite s known ∧
    Stmt.AllFits W (c.params.map (·.lexeme) :: known) False True c.body

/-- A value fits if it is no function of a program, or one that fits. -/
def Value.Fits (W : Usage) (s : Store) : Value → Prop
  | .closure c => c.Fits W s
  | _ => True

/-- There is a global frame, and the values of all variables fit. -/
structure Store.Fits (W : Usage) (s : Store) : Prop where
  root : 0 < s.frames.size
  values : ∀ {r : Ref} {name : String} {v : Value}, (s.bindings r)[name]? = some v → v.Fits W s

section
variable {W W' : Usage} {s s' : Store}

theorem Value.Fits.grown {v : Value} (fits : v.Fits W s) (grown : s.Grown s') : v.Fits W s' := by
  cases v with
  | closure c =>
    obtain ⟨known, knows, body⟩ := fits
    exact ⟨known, knows.grown grown, body⟩
  | nil | bool | num | str | native => trivial

theorem Value.Fits.covered {v : Value} (fits : v.Fits W s) (covers : W'.Covers W) : v.Fits W' s := by
  cases v with
  | closure c =>
    obtain ⟨known, knows, body⟩ := fits
    exact ⟨known, knows.weaken covers.definite, Stmt.AllFits.mono covers _ body⟩
  | nil | bool | num | str | native => trivial

theorem Value.fits_ofLiteral (literal : Literal) : (Value.ofLiteral literal).Fits W s := by
  cases literal <;> trivial

theorem Store.Fits.covered (fits : s.Fits W) (covers : W'.Covers W) : s.Fits W' :=
  ⟨fits.root, fun found => (fits.values found).covered covers⟩

/-- A value may fit only because the variable has it. -/
theorem Store.Fits.bind (fits : s.Fits W) {r : Ref} {name : String} {v : Value}
    (value : v.Fits W (s.bind r name v)) : (s.bind r name v).Fits W := by
  refine ⟨?_, fun {r' name' v'} found => ?_⟩
  · rw [size_bind]
    exact fits.root
  · rw [getElem?_bind] at found
    split at found
    · cases found
      exact value
    · exact (fits.values found).grown (s.grown_bind r name v)

theorem Store.Fits.grow (fits : s.Fits W) : s.grow.Fits W := by
  refine ⟨?_, fun {r name v} found => ?_⟩
  · rw [size_grow]
    exact Nat.succ_pos _
  · rw [bindings_grow] at found
    exact (fits.values found).grown s.grown_grow

/-- The first variables hold native functions alone. -/
theorem Store.fits_initial : Store.initial.Fits W := by
  refine ⟨Nat.zero_lt_one, fun {r name v} found => ?_⟩
  cases v with
  | closure c =>
    rw [bindings] at found
    cases r with
    | zero =>
      simp only [initial, List.foldl_cons, List.foldl_nil, List.getElem?_toArray,
        List.getElem?_cons_zero, Option.getD_some, getElem?_insert_string] at found
      split_ifs at found <;> simp at found
    | succ r => simp [initial] at found
  | nil | bool | num | str | native => trivial

/-- Entries that are declared in a frame are bound in it, and the frames still fit. -/
theorem Store.Fits.defineAll {env : Env} {entries : List (String × Value)} {names : List String}
    (fits : s.Fits W) (has : s.Has W.definite env.frame names)
    (values : ∀ entry ∈ entries, entry.2.Fits W s) :
    (s.defineAll env entries).Fits W ∧ s.Grown (s.defineAll env entries) ∧
      (s.defineAll env entries).Has W.definite env.frame ((entries.map Prod.fst).reverse ++ names) := by
  induction entries generalizing s names with
  | nil => exact ⟨fits, .refl s, has⟩
  | cons entry rest ih =>
    obtain ⟨first, others⟩ := List.forall_mem_cons.1 values
    have grown := s.grown_bind env.frame entry.1 entry.2
    obtain ⟨fitsAll, grownAll, hasAll⟩ := ih (fits.bind (first.grown grown))
      (has.bind entry.1 entry.2) fun entry member => (others entry member).grown grown
    refine ⟨fitsAll, grown.trans grownAll, ?_⟩
    rw [List.map_cons, List.reverse_cons, List.append_assoc]
    exact hasAll

/-- The parameters of a function are known in the frame of a call, if there is an argument for each. -/
theorem Store.Fits.defineParameters {env : Env} {known : Names} {params : List String}
    {vs : List Value} (fits : s.Fits W) (knows : env.Knows W.definite s ([] :: known))
    (values : ∀ v ∈ vs, v.Fits W s) (count : W.definite → vs.length = params.length) :
    (s.defineAll env (params.zip vs)).Fits W ∧ s.Grown (s.defineAll env (params.zip vs)) ∧
      env.Knows W.definite (s.defineAll env (params.zip vs)) (params :: known) := by
  obtain ⟨has, around⟩ : s.Has W.definite env.frame [] ∧
      List.Forall₂ (s.Has W.definite) env.outer (known ++ [[]]) := by
    cases env
    cases knows with
    | cons has around => exact ⟨has, around⟩
  have entries : ∀ entry ∈ params.zip vs, entry.2.Fits W s :=
    fun entry member => values _ (List.of_mem_zip member).2
  obtain ⟨fits', grown, has'⟩ := fits.defineAll has entries
  refine ⟨fits', grown, .cons ⟨has'.inside, fun isDefinite name member => ?_⟩
    (around.imp fun _ _ has => has.grown grown)⟩
  refine has'.bound isDefinite name ?_
  rw [List.map_fst_zip (Nat.le_of_eq (count isDefinite).symm)]
  exact List.mem_append_left _ (List.mem_reverse.2 member)

end

end Lox
