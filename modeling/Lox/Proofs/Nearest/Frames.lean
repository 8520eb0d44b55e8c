import Lox.Proofs.Nearest.Accepted
import Lox.Proofs.Safety.Frames

/-!
# Frames with declared names alone

A frame that was made for a block or a function only gets names that this declares. So a frame that lacks
a name for good does not stand in the way of one farther out: the nearest frame with the name is the one
at the distance of the use.
-/

namespace Lox

namespace Store

/-! ## The nearest frame with a name -/

section
variable {s : Store} {env : Env} {nearer farther : List Ref} {r : Ref} {name : String}
  (chain : env.chain = nearer ++ r :: farther)
include chain

theorem frameAt_length : env.frameAt nearer.length = .ok r := by
  rw [Env.frameAt, chain, List.getElem?_append_right (Nat.le_refl _), Nat.sub_self]
  rfl

theorem getAt_length : s.getAt env nearer.length name =
    match (s.bindings r)[name]? with
    | some v => .ok v
    | none => .error (.uninitialized name) := by
  unfold getAt
  rw [frameAt_length chain]
  rfl

theorem ownerAt_length : s.ownerAt env nearer.length name =
    if (s.bindings r).contains name then .ok r else .error (.uninitialized name) := by
  unfold ownerAt
  rw [frameAt_length chain]
  rfl

variable (lacking : ∀ r' ∈ nearer, (s.bindings r')[name]? = none)
include lacking

/-- The nearest variable of a name is not in the frames that lack it. -/
theorem findSome?_of_lacking :
    (env.chain.findSome? fun r => (s.bindings r)[name]?) =
      (r :: farther).findSome? fun r => (s.bindings r)[name]? := by
  rw [chain, List.findSome?_append, List.findSome?_eq_none_iff.2 lacking, Option.none_or]

theorem find?_of_lacking :
    (env.chain.find? fun r => (s.bindings r).contains name) =
      (r :: farther).find? fun r => (s.bindings r).contains name := by
  have noOwner : nearer.find? (fun r => (s.bindings r).contains name) = none := by
    rw [List.find?_eq_none]
    intro r' member
    rw [Std.TreeMap.contains_eq_isSome_getElem?, lacking r' member]
    exact Bool.false_ne_true
  rw [chain, List.find?_append, noOwner, Option.none_or]

theorem get_of_lacking {v : Value} (found : (s.bindings r)[name]? = some v) :
    s.get env name = .ok v := by
  have isFirst := findSome?_of_lacking chain lacking
  rw [List.findSome?_cons, found] at isFirst
  simp only [get, isFirst]

theorem owner_of_lacking (found : (s.bindings r).contains name) : s.owner env name = .ok r := by
  have isFirst := find?_of_lacking chain lacking
  rw [List.find?_cons, found] at isFirst
  simp only [owner, isFirst]

end

/-- A name that all frames but the global one lack is that of a global variable. -/
theorem get_of_all_lacking {s : Store} {env : Env} {nearer : List Ref} {name : String}
    (chain : env.chain = nearer ++ [Env.global.frame])
    (lacking : ∀ r ∈ nearer, (s.bindings r)[name]? = none) :
    s.get env name = s.get .global name := by
  unfold get
  rw [findSome?_of_lacking chain lacking]
  rfl

theorem owner_of_all_lacking {s : Store} {env : Env} {nearer : List Ref} {name : String}
    (chain : env.chain = nearer ++ [Env.global.frame])
    (lacking : ∀ r ∈ nearer, (s.bindings r)[name]? = none) :
    s.owner env name = s.owner .global name := by
  unfold owner
  rw [find?_of_lacking chain lacking]
  rfl

/-! ## Frames that are found -/

theorem contains_of_owner {s : Store} {env : Env} {name : String} {r : Ref}
    (found : s.owner env name = .ok r) : (s.bindings r).contains name := by
  unfold owner at found
  split at found
  · next isOwner =>
    cases found
    have holds := List.find?_some isOwner
    exact holds
  · cases found

theorem contains_of_ownerAt {s : Store} {env : Env} {distance : Nat} {name : String} {r : Ref}
    (found : s.ownerAt env distance name = .ok r) : (s.bindings r).contains name := by
  unfold ownerAt at found
  cases isFrame : env.frameAt distance with
  | error missing =>
    rw [isFrame] at found
    cases found
  | ok r' =>
    rw [isFrame] at found
    have found : (if (s.bindings r').contains name then Except.ok r'
      else Except.error (Missing.uninitialized name)) = .ok r := found
    split at found
    · next contains =>
      cases found
      exact contains
    · cases found

/-! ## Frames and what they were made for -/

/-- The frames of the store only have names that are declared by what was entered to make them, and the
only frame for which nothing was is the global one. -/
structure Declared (marks : List Origin) (s : Store) : Prop where
  root : ∀ {r : Ref}, marks[r]? = some none → r = Env.global.frame
  names : ∀ {r : Ref} {node : ScopeNode} {name : String}, marks[r]? = some (some node) →
    ((s.bindings r)[name]?).isSome → name ∈ node.declared

namespace Declared

variable {s : Store} {marks : List Origin}

theorem bind (declared : s.Declared marks) {r : Ref} {name : String}
    (isDeclared : ∀ node, marks[r]? = some (some node) → name ∈ node.declared) (v : Value) :
    (s.bind r name v).Declared marks := by
  refine ⟨declared.root, fun {r' node other} isMark isSome => ?_⟩
  rw [getElem?_bind] at isSome
  split at isSome
  · next here =>
    obtain ⟨rfl, _, rfl⟩ := here
    exact isDeclared node isMark
  · exact declared.names isMark isSome

theorem defineAll (declared : s.Declared marks) {env : Env} {entries : List (String × Value)}
    (areDeclared : ∀ entry ∈ entries, ∀ node, marks[env.frame]? = some (some node) →
      entry.1 ∈ node.declared) :
    (s.defineAll env entries).Declared marks := by
  induction entries generalizing s with
  | nil => exact declared
  | cons entry rest ih =>
    obtain ⟨first, others⟩ := List.forall_mem_cons.1 areDeclared
    exact ih (declared.bind first entry.2) others

theorem grow (declared : s.Declared marks) (size : s.frames.size = marks.length)
    (node : ScopeNode) : s.grow.Declared (marks ++ [some node]) := by
  constructor
  · intro r isMark
    by_cases old : r < marks.length
    · rw [List.getElem?_append_left old] at isMark
      exact declared.root isMark
    · rw [List.getElem?_append_right (Nat.le_of_not_lt old)] at isMark
      obtain ⟨_, isNode⟩ := List.getElem?_eq_some_iff.1 isMark
      simp at isNode
  · intro r node' name isMark isSome
    rw [bindings_grow] at isSome
    by_cases old : r < marks.length
    · rw [List.getElem?_append_left old] at isMark
      exact declared.names isMark isSome
    · have outside : s.frames[r]? = none :=
        Array.getElem?_eq_none (by rw [size]; exact Nat.le_of_not_lt old)
      simp [bindings, outside] at isSome

/-- Only the global frame is there at the beginning. -/
theorem initial : Store.initial.Declared [none] := by
  constructor
  · intro r isMark
    cases r with
    | zero => rfl
    | succ r => simp at isMark
  · intro r node name isMark
    cases r with
    | zero => simp at isMark
    | succ r => simp at isMark

/-- The frames before the one that a use reaches do not have its name. -/
theorem reached (declared : s.Declared marks) {env : Env} {around : List Origin}
    (marked : env.Marked marks around) {T : Distances} {id : Nat} {name : String}
    (reaches : Reaches T around id name) :
    ∃ nearer r farther, env.chain = nearer ++ r :: farther ∧
      (∀ r' ∈ nearer, (s.bindings r')[name]? = none) ∧
      match T[id]? with
      | some distance => nearer.length = distance
      | none => r = Env.global.frame ∧ farther = [] := by
  obtain ⟨nearer, owner, farther, rfl, lacks, position⟩ := reaches
  rw [Env.Marked, List.map_append, List.map_cons] at marked
  obtain ⟨before, rest, isChain, isNearer, isRest⟩ := List.map_eq_append_iff.1 marked
  obtain ⟨r, after, rfl, isOwner, isFarther⟩ := List.map_eq_cons_iff.1 isRest
  refine ⟨before, r, after, isChain, ?_, ?_⟩
  · intro r' member
    have isMark : marks[r']? ∈ nearer.map some := by
      rw [← isNearer]
      exact List.mem_map_of_mem member
    obtain ⟨origin, isOrigin, same⟩ := List.mem_map.1 isMark
    obtain ⟨node, rfl, notDeclared⟩ := lacks origin isOrigin
    cases value : (s.bindings r')[name]? with
    | none => rfl
    | some v => exact absurd (declared.names same.symm (by simp [value])) notDeclared
  · cases isDistance : T[id]? with
    | some distance =>
      rw [isDistance] at position
      have lengths := congrArg List.length isNearer
      rw [List.length_map, List.length_map] at lengths
      exact lengths.trans position
    | none =>
      rw [isDistance] at position
      obtain ⟨rfl, rfl⟩ := position
      exact ⟨declared.root isOwner, List.map_eq_nil_iff.1 isFarther⟩

end Declared

end Store

end Lox
