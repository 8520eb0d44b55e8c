import Lox.Proofs.Alike.Machines

/-!
# Outlines of values

The outline of a value is the value itself, or what can be told of a function without looking into
its body. Alike stores have the same outlines of global variables.
-/

namespace Lox

/-- What can be told of a value without looking into the body of a function. -/
inductive Outline
  | plain (v : Value)
  | function (identity : Nat) (name : Option String) (arity : Nat) (env : Env)

/-- The outline of a value. -/
def Value.outline : Value → Outline
  | .closure c => .function c.identity (c.declaredName.map (·.lexeme)) c.arity c.env
  | v => .plain v

/-- The global variables in alphabetical order, with their values. -/
def Store.globalValues (s : Store) : List (String × Value) := (s.bindings Env.global.frame).toList

/-- The global variables in alphabetical order, each with the outline of its value. -/
def Store.globalOutlines (s : Store) : List (String × Outline) :=
  (s.bindings Env.global.frame).toList.map fun (name, v) => (name, v.outline)

variable {μ : Type} {L : Likeness μ} {K : Keys μ} {marks : List μ}

theorem Value.Alike.outline {v v' : Value} (alike : v.Alike L marks v') :
    v'.outline = v.outline := by
  cases alike with
  | closure alike =>
    simp only [Value.outline, alike.identity, alike.title, alike.arity, alike.env]
  | _ => rfl

/-- Global variables have the same in common if each of them has. -/
theorem Store.map_globalValues_congr {β : Type} {s s' : Store} {f f' : Value → β}
    (same : ∀ name : String, (s'.bindings 0)[name]?.map f' = (s.bindings 0)[name]?.map f) :
    s'.globalValues.map (fun entry => (entry.1, f' entry.2)) =
      s.globalValues.map fun entry => (entry.1, f entry.2) := by
  have mapped (name : String) : ((s'.bindings 0).map fun _ v => f' v)[name]? =
      ((s.bindings 0).map fun _ v => f v)[name]? := by
    rw [Std.TreeMap.getElem?_map, Std.TreeMap.getElem?_map]
    exact same name
  have lists := (Std.TreeMap.Equiv.of_forall_constGet?_eq mapped).toList_eq
  rw [Std.TreeMap.toList_map, Std.TreeMap.toList_map] at lists
  exact lists

/-- What alike values have in common is the same for the global variables of alike stores. -/
theorem Store.Alike.map_globalValues {β : Type} {s s' : Store} (alike : s.Alike L K marks s')
    (root : marks[0]? = some K.root) {f : Value → β}
    (common : ∀ {v v' : Value}, v.Alike L marks v' → f v' = f v) :
    s'.globalValues.map (fun entry => (entry.1, f entry.2)) =
      s.globalValues.map fun entry => (entry.1, f entry.2) := by
  refine map_globalValues_congr fun name => ?_
  have values := alike.values root name
  rw [K.key_root] at values
  exact rel_map values common

/-- Alike stores have the same global variables up to the bodies of functions. -/
theorem Store.Alike.globalOutlines {s s' : Store} (alike : s.Alike L K marks s')
    (root : marks[0]? = some K.root) : s'.globalOutlines = s.globalOutlines :=
  alike.map_globalValues root Value.Alike.outline

end Lox
