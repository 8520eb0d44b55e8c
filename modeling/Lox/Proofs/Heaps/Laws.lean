import Lox.Proofs.Heaps.Links
import Lox.Proofs.Nearest.Frames

/-!
# The laws of variables

Environments that are made inside of one another share frames, so that a change made from one of them
can be seen from others. Main statement: in all heaps that can be made, a variable is looked up and
changed in the nearest frame that binds it, or in the frame at a distance and in no other, and a change
is seen from exactly those environments whose nearest frame with the name it was made in.
-/

namespace Lox

/-- Environments in the order in which they were made, and the variables of their frames. -/
structure Heap where
  store : Store
  links : Links
  envs : List Env

namespace Heap

/-! ## Heaps that can be made -/

/-- What changes a heap. -/
inductive Operation
  /-- Makes an environment, inside of another one or of none. -/
  | new (around : Option Env)
  | define (e : Env) (name : String) (v : Value)
  | assign (e : Env) (name : String) (v : Value)
  | assignAt (e : Env) (distance : Nat) (name : String) (v : Value)

/-- The environment that an operation is about. -/
def Operation.env? : Operation → Option Env
  | new around => around
  | define e .. | assign e .. | assignAt e .. => some e

/-- What an operation makes of a heap. -/
def perform (h : Heap) : Operation → Except Missing Heap
  | .new around =>
    let outer := (around.map Env.chain).getD []
    .ok ⟨h.store.grow, h.links ++ [around.map Env.frame], h.envs ++ [h.store.nextEnv outer]⟩
  | .define e name v => .ok { h with store := h.store.define e name v }
  | .assign e name v => (h.store.assign e name v).map ({ h with store := · })
  | .assignAt e distance name v => (h.store.assignAt e distance name v).map ({ h with store := · })

/-- A heap after an operation, which leaves it as it is if it fails. -/
def after (h : Heap) (op : Operation) : Heap :=
  match h.perform op with
  | .ok h' => h'
  | .error _ => h

theorem after_of_ok {h h' : Heap} {op : Operation} (performed : h.perform op = .ok h') :
    h.after op = h' := by
  rw [after, performed]

theorem after_of_error {h : Heap} {op : Operation} {missing : Missing}
    (failed : h.perform op = .error missing) : h.after op = h := by
  rw [after, failed]

/-- An operation is about an environment of the heap. -/
def Admits (h : Heap) (op : Operation) : Prop := ∀ e ∈ op.env?, e ∈ h.envs

instance (h : Heap) (op : Operation) : Decidable (h.Admits op) :=
  inferInstanceAs (Decidable (∀ e ∈ op.env?, e ∈ h.envs))

/-- A heap is made by operations, each about environments that there are. -/
inductive Made : Heap → Prop
  | empty : Made ⟨.empty, [], []⟩
  | after {h : Heap} {op : Operation} (made : Made h) (admits : h.Admits op) : Made (h.after op)

/-! ## The laws -/

/-- The frame at a distance from an environment is the nearest one that binds a name. -/
structure Nearest (h : Heap) (e : Env) (name : String) (distance : Nat) (r : Ref) : Prop where
  reached : h.links.outward distance e.frame = some r
  binds : name ∈ h.store.bindings r
  first : ∀ nearer < distance, ∀ r', h.links.outward nearer e.frame = some r' →
    name ∉ h.store.bindings r'

/-- A variable of a frame has another value, and all other variables are the same. -/
def Changed (h : Heap) (r : Ref) (name : String) (v : Value) (s' : Store) : Prop :=
  ∀ r' name', (s'.bindings r')[name']? =
    if r' = r ∧ name' = name then some v else (h.store.bindings r')[name']?

/-- How variables are looked up and changed. -/
structure Lawful (h : Heap) : Prop where
  /-- Walking outwards from an environment comes to an end. -/
  ends : ∀ e ∈ h.envs, ∃ distance, h.links.outward distance e.frame = none
  /-- A variable is looked up in the nearest frame that binds it. -/
  get : ∀ e ∈ h.envs, ∀ name v, h.store.get e name = .ok v ↔
    ∃ distance r, h.Nearest e name distance r ∧ (h.store.bindings r)[name]? = some v
  /-- A variable can be changed where it can be looked up. -/
  assigns : ∀ e ∈ h.envs, ∀ name v,
    (∃ s', h.store.assign e name v = .ok s') ↔ ∃ w, h.store.get e name = .ok w
  /-- What cannot be looked up is undefined. -/
  undefined : ∀ e ∈ h.envs, ∀ name, (∀ distance r, ¬ h.Nearest e name distance r) →
    h.store.get e name = .error (.undefined name) ∧
      ∀ v, h.store.assign e name v = .error (.undefined name)
  /-- A change is made in the nearest frame that binds the name, and it is seen from those environments
  for which this is the nearest one. -/
  assign : ∀ e ∈ h.envs, ∀ name v s', h.store.assign e name v = .ok s' →
    ∃ distance r, h.Nearest e name distance r ∧ h.Changed r name v s' ∧
      ∀ e' ∈ h.envs,
        ((∃ distance', h.Nearest e' name distance' r) → s'.get e' name = .ok v) ∧
        ∀ name', ¬ (name' = name ∧ ∃ distance', h.Nearest e' name distance' r) →
          s'.get e' name' = h.store.get e' name'
  /-- A declaration is made in the innermost frame. -/
  define : ∀ e ∈ h.envs, ∀ name v, h.Changed e.frame name v (h.store.define e name v)
  /-- At a distance, a variable is looked up in the frame there and in no other. -/
  getAt : ∀ e ∈ h.envs, ∀ distance name v, h.store.getAt e distance name = .ok v ↔
    ∃ r, h.links.outward distance e.frame = some r ∧ (h.store.bindings r)[name]? = some v
  /-- At a distance, a variable is changed in the frame there and in no other. -/
  assignAt : ∀ e ∈ h.envs, ∀ distance name v s', h.store.assignAt e distance name v = .ok s' →
    ∃ r, h.links.outward distance e.frame = some r ∧ name ∈ h.store.bindings r ∧
      h.Changed r name v s'
  /-- At a distance, a variable can be changed where the frame binds it. -/
  assignsAt : ∀ e ∈ h.envs, ∀ distance name v,
    (∃ s', h.store.assignAt e distance name v = .ok s') ↔
      ∃ r, h.links.outward distance e.frame = some r ∧ name ∈ h.store.bindings r
  /-- A frame at a distance that does not bind the name is not looked behind. -/
  uninitialized : ∀ e ∈ h.envs, ∀ distance name r, h.links.outward distance e.frame = some r →
    name ∉ h.store.bindings r →
    h.store.getAt e distance name = .error (.uninitialized name) ∧
      ∀ v, h.store.assignAt e distance name v = .error (.uninitialized name)
  /-- At the distance of the nearest frame that binds the name, both ways are the same. -/
  agree : ∀ e ∈ h.envs, ∀ name distance r, h.Nearest e name distance r →
    h.store.getAt e distance name = h.store.get e name ∧
      ∀ v, h.store.assignAt e distance name v = h.store.assign e name v
  /-- What fails changes nothing. -/
  fails : ∀ op missing, h.perform op = .error missing → h.after op = h
  /-- A run that cannot look a variable of the heap up, or cannot change it, has changed nothing. -/
  stops : ∀ (m : Machine), m.store = h.store → ∀ access e id name stop m',
    (Running.lookUp access e id name m = .error stop m' → m' = m) ∧
      ∀ v, Running.assign access e id name v m = .error stop m' → m' = m
  /-- Names are added by declarations alone, and only to the frame of the declaration. -/
  names : ∀ op, h.Admits op → ∀ r name, name ∈ (h.after op).store.bindings r ↔
    name ∈ h.store.bindings r ∨ ∃ e v, op = .define e name v ∧ r = e.frame

/-! ## Every heap that can be made is sound -/

/-- The frames of the environments follow the links. -/
structure Sound (h : Heap) : Prop where
  size : h.links.length = h.store.frames.size
  leads : ∀ e ∈ h.envs, h.links.Lead e.chain

theorem Sound.perform {h h' : Heap} (sound : h.Sound) {op : Operation} (admits : h.Admits op)
    (performed : h.perform op = .ok h') : h'.Sound := by
  have changed {assigned : Except Missing Store} (sizes : ∀ s', assigned = .ok s' →
      s'.frames.size = h.store.frames.size)
      (performed : assigned.map ({ h with store := · }) = .ok h') : h'.Sound := by
    cases assigned with
    | error => cases performed
    | ok s' =>
      cases performed
      exact ⟨sound.size.trans (sizes s' rfl).symm, sound.leads⟩
  have bound {owner : Except Missing Ref} {name : String} {v : Value} (s' : Store)
      (isStore : owner.map (h.store.bind · name v) = .ok s') :
      s'.frames.size = h.store.frames.size := by
    cases owner with
    | error => cases isStore
    | ok r =>
      cases isStore
      exact Store.size_bind ..
  cases op with
  | new around =>
    cases performed
    refine ⟨?_, fun e member => ?_⟩
    · rw [List.length_append, Store.size_grow, sound.size]
      rfl
    · rcases List.mem_append.1 member with old | new
      · exact (sound.leads e old).mono (List.prefix_append _ _)
      · cases List.mem_singleton.1 new
        rw [Env.chain, Store.nextEnv, ← sound.size]
        cases around with
        | none => exact .outermost List.getElem?_concat_length
        | some e => exact (sound.leads e (admits e rfl)).enter
  | define e name v =>
    cases performed
    exact ⟨sound.size.trans (Store.size_bind ..).symm, sound.leads⟩
  | assign e name v => exact changed bound performed
  | assignAt e distance name v => exact changed bound performed

theorem Made.sound {h : Heap} (made : h.Made) : h.Sound := by
  induction made with
  | empty => exact ⟨rfl, fun _ member => absurd member List.not_mem_nil⟩
  | @after h op _ admits sound =>
    cases performed : h.perform op with
    | error missing =>
      rw [after_of_error performed]
      exact sound
    | ok h' =>
      rw [after_of_ok performed]
      exact sound.perform admits performed

/-! ## Frames at distances -/

section
variable {s : Store} {name : String} {r : Ref}

theorem mem_bindings_iff : name ∈ s.bindings r ↔ ∃ v, (s.bindings r)[name]? = some v := by
  rw [Std.TreeMap.mem_iff_isSome_getElem?, Option.isSome_iff_exists]

theorem notMem_bindings_iff : name ∉ s.bindings r ↔ (s.bindings r)[name]? = none := by
  rw [Std.TreeMap.mem_iff_isSome_getElem?, Bool.not_eq_true, Option.isSome_eq_false_iff,
    Option.isNone_iff_eq_none]

end

namespace Sound

variable {h : Heap} (sound : h.Sound) {e : Env} (member : e ∈ h.envs)
include sound member

theorem getElem?_chain (distance : Nat) : e.chain[distance]? = h.links.outward distance e.frame :=
  (sound.leads e member).getElem? distance

theorem frameAt {distance : Nat} {r : Ref} (reached : h.links.outward distance e.frame = some r) :
    e.frameAt distance = .ok r := by
  rw [Env.frameAt, sound.getElem?_chain member, reached]

/-- The frames of an environment, parted at the nearest one that binds a name. -/
theorem nearest_iff {name : String} {distance : Nat} {r : Ref} :
    h.Nearest e name distance r ↔ ∃ nearer farther, e.chain = nearer ++ r :: farther ∧
      nearer.length = distance ∧ name ∈ h.store.bindings r ∧
      ∀ r' ∈ nearer, (h.store.bindings r')[name]? = none := by
  constructor
  · rintro ⟨reached, binds, first⟩
    rw [← sound.getElem?_chain member] at reached
    obtain ⟨inside, isFrame⟩ := List.getElem?_eq_some_iff.1 reached
    refine ⟨e.chain.take distance, e.chain.drop (distance + 1), ?_, ?_, binds, fun r' nearer => ?_⟩
    · rw [← isFrame, ← List.drop_eq_getElem_cons inside, List.take_append_drop]
    · rw [List.length_take]
      exact Nat.min_eq_left (Nat.le_of_lt inside)
    · obtain ⟨i, below, isNearer⟩ := List.mem_take_iff_getElem.1 nearer
      have below := Nat.lt_of_lt_of_le below (Nat.min_le_left _ _)
      refine notMem_bindings_iff.1 (first i below r' ?_)
      rw [← sound.getElem?_chain member, ← isNearer]
      exact List.getElem?_eq_getElem _
  · rintro ⟨nearer, farther, chain, rfl, binds, lacking⟩
    refine ⟨?_, binds, fun i below r' reached => ?_⟩
    · rw [← sound.getElem?_chain member, chain, List.getElem?_append_right (Nat.le_refl _),
        Nat.sub_self]
      rfl
    · rw [← sound.getElem?_chain member, chain, List.getElem?_append_left below] at reached
      exact notMem_bindings_iff.2 (lacking r' (List.mem_of_getElem? reached))

/-- A name has a nearest frame that binds it, or no frame of the environment does. -/
theorem exists_nearest_or_lacking (name : String) :
    (∃ distance r, h.Nearest e name distance r) ∨
      ∀ r ∈ e.chain, (h.store.bindings r)[name]? = none := by
  cases found : e.chain.findSome? fun r => (h.store.bindings r)[name]? with
  | none => exact .inr (List.findSome?_eq_none_iff.1 found)
  | some v =>
    obtain ⟨nearer, r, farther, chain, isValue, lacking⟩ := List.findSome?_eq_some_iff.1 found
    exact .inl ⟨nearer.length, r, (sound.nearest_iff member).2
      ⟨nearer, farther, chain, rfl, mem_bindings_iff.2 ⟨v, isValue⟩, lacking⟩⟩

/-! ## Looking up and changing at a distance -/

section
variable {distance : Nat} {r : Ref} (reached : h.links.outward distance e.frame = some r)
include reached

theorem getAt_reached (name : String) : h.store.getAt e distance name =
    match (h.store.bindings r)[name]? with
    | some v => .ok v
    | none => .error (.uninitialized name) := by
  unfold Store.getAt
  rw [sound.frameAt member reached]
  rfl

theorem assignAt_reached (name : String) (v : Value) : h.store.assignAt e distance name v =
    if name ∈ h.store.bindings r then .ok (h.store.bind r name v)
    else .error (.uninitialized name) := by
  unfold Store.assignAt Store.ownerAt
  rw [sound.frameAt member reached]
  show Except.map _ (if (h.store.bindings r).contains name then _ else _) = _
  simp only [← Std.TreeMap.mem_iff_contains]
  split <;> rfl

/-- A change in the frame is made there and nowhere else. -/
theorem changed_reached (name : String) (v : Value) :
    h.Changed r name v (h.store.bind r name v) := by
  intro r' name'
  have inside : r < h.store.frames.size := by
    rw [← sound.getElem?_chain member] at reached
    exact Nat.lt_of_lt_of_eq ((sound.leads e member).lt_length (List.mem_of_getElem? reached))
      sound.size
  rw [Store.getElem?_bind]
  simp only [inside, true_and, eq_comm (a := r), eq_comm (a := name)]

end

theorem changed_define (name : String) (v : Value) :
    h.Changed e.frame name v (h.store.define e name v) :=
  sound.changed_reached member (by rfl : h.links.outward 0 e.frame = some e.frame) name v

/-- Where there is no frame, nothing is looked up or changed. -/
theorem unreached {distance : Nat} (outside : h.links.outward distance e.frame = none)
    (name : String) :
    (∀ v, h.store.getAt e distance name ≠ .ok v) ∧
      ∀ v s', h.store.assignAt e distance name v ≠ .ok s' := by
  have noFrame : e.frameAt distance = .error (.noFrame (distance - e.chain.length)) := by
    rw [Env.frameAt, sound.getElem?_chain member, outside]
  refine ⟨fun v found => ?_, fun v s' assigned => ?_⟩
  · rw [Store.getAt, noFrame] at found
    cases found
  · rw [Store.assignAt, Store.ownerAt, noFrame] at assigned
    cases assigned

theorem assignAt_eq_ok {distance : Nat} {name : String} {v : Value} {s' : Store}
    (assigned : h.store.assignAt e distance name v = .ok s') :
    ∃ r, h.links.outward distance e.frame = some r ∧ name ∈ h.store.bindings r ∧
      s' = h.store.bind r name v := by
  cases reached : h.links.outward distance e.frame with
  | none => exact absurd assigned ((sound.unreached member reached name).2 v s')
  | some r =>
    rw [sound.assignAt_reached member reached] at assigned
    split at assigned
    · next binds =>
      cases assigned
      exact ⟨r, rfl, binds, rfl⟩
    · cases assigned

/-! ## Looking up and changing -/

section
variable {name : String} {distance : Nat} {r : Ref} (nearest : h.Nearest e name distance r)
include nearest

theorem get_nearest {v : Value} (found : (h.store.bindings r)[name]? = some v) :
    h.store.get e name = .ok v := by
  obtain ⟨nearer, farther, chain, _, _, lacking⟩ := (sound.nearest_iff member).1 nearest
  exact Store.get_of_lacking chain lacking found

theorem assign_nearest (v : Value) : h.store.assign e name v = .ok (h.store.bind r name v) := by
  obtain ⟨nearer, farther, chain, _, binds, lacking⟩ := (sound.nearest_iff member).1 nearest
  rw [Store.assign, Store.owner_of_lacking chain lacking (Std.TreeMap.mem_iff_contains.1 binds)]
  rfl

/-- A change in the nearest frame is seen. -/
theorem get_bind_nearest (v : Value) : (h.store.bind r name v).get e name = .ok v := by
  have changed := sound.changed_reached member nearest.reached name v
  obtain ⟨nearer, farther, chain, _, binds, lacking⟩ := (sound.nearest_iff member).1 nearest
  refine Store.get_of_lacking chain (fun r' isNearer => ?_) ?_
  · have other : r' ≠ r := by
      rintro rfl
      exact notMem_bindings_iff.2 (lacking r' isNearer) binds
    rw [changed, if_neg fun ⟨same, _⟩ => other same]
    exact lacking r' isNearer
  · rw [changed, if_pos ⟨rfl, rfl⟩]

end

/-- A change is not seen past a nearer frame with the name, or where the frame is none of the
environment. -/
theorem get_bind_other {name : String} {r : Ref} (binds : name ∈ h.store.bindings r)
    (other : ¬ ∃ distance, h.Nearest e name distance r) (v : Value) :
    (h.store.bind r name v).get e name = h.store.get e name := by
  have elsewhere {r' : Ref} (lacks : (h.store.bindings r')[name]? = none) : r ≠ r' := by
    rintro rfl
    exact notMem_bindings_iff.2 lacks binds
  have same {r' : Ref} (different : r ≠ r') :
      ((h.store.bind r name v).bindings r')[name]? = (h.store.bindings r')[name]? := by
    rw [Store.getElem?_bind, if_neg fun ⟨isFrame, _⟩ => different isFrame]
  rcases sound.exists_nearest_or_lacking member name with ⟨distance, r', nearest⟩ | lacking
  · have different : r ≠ r' := by
      rintro rfl
      exact other ⟨distance, nearest⟩
    obtain ⟨w, isValue⟩ := mem_bindings_iff.1 nearest.binds
    obtain ⟨nearer, farther, chain, _, _, lacking⟩ := (sound.nearest_iff member).1 nearest
    rw [sound.get_nearest member nearest isValue]
    refine Store.get_of_lacking chain (fun r'' isNearer => ?_) ((same different).trans isValue)
    rw [same (elsewhere (lacking r'' isNearer))]
    exact lacking r'' isNearer
  · rw [Store.get, Store.get, List.findSome?_eq_none_iff.2 lacking, List.findSome?_eq_none_iff.2]
    intro r' inChain
    rw [same (elsewhere (lacking r' inChain))]
    exact lacking r' inChain

omit sound member in
/-- A name that no frame of the environment binds is undefined. -/
theorem undefined_of_lacking {name : String}
    (lacking : ∀ r ∈ e.chain, (h.store.bindings r)[name]? = none) :
    h.store.get e name = .error (.undefined name) ∧
      ∀ v, h.store.assign e name v = .error (.undefined name) := by
  have noOwner : e.chain.find? (fun r => (h.store.bindings r).contains name) = none := by
    rw [List.find?_eq_none]
    intro r inChain
    rw [Std.TreeMap.contains_eq_isSome_getElem?, lacking r inChain]
    exact Bool.false_ne_true
  refine ⟨?_, fun v => ?_⟩
  · rw [Store.get, List.findSome?_eq_none_iff.2 lacking]
  · rw [Store.assign, Store.owner, noOwner]
    rfl

theorem get_eq_ok_iff (name : String) (v : Value) : h.store.get e name = .ok v ↔
    ∃ distance r, h.Nearest e name distance r ∧ (h.store.bindings r)[name]? = some v := by
  constructor
  · intro isValue
    rcases sound.exists_nearest_or_lacking member name with ⟨distance, r, nearest⟩ | lacking
    · obtain ⟨w, found⟩ := mem_bindings_iff.1 nearest.binds
      rw [sound.get_nearest member nearest found] at isValue
      cases isValue
      exact ⟨distance, r, nearest, found⟩
    · rw [(undefined_of_lacking lacking).1] at isValue
      cases isValue
  · rintro ⟨distance, r, nearest, found⟩
    exact sound.get_nearest member nearest found

theorem assign_eq_ok {name : String} {v : Value} {s' : Store}
    (assigned : h.store.assign e name v = .ok s') :
    ∃ distance r, h.Nearest e name distance r ∧ s' = h.store.bind r name v := by
  rcases sound.exists_nearest_or_lacking member name with ⟨distance, r, nearest⟩ | lacking
  · rw [sound.assign_nearest member nearest] at assigned
    cases assigned
    exact ⟨distance, r, nearest, rfl⟩
  · rw [(undefined_of_lacking lacking).2] at assigned
    cases assigned

end Sound

/-! ## Names -/

/-- A change adds no other name than that of its variable. -/
theorem Changed.mem_iff {h : Heap} {r r' : Ref} {name name' : String} {v : Value} {s' : Store}
    (changed : h.Changed r name v s') :
    name' ∈ s'.bindings r' ↔ name' ∈ h.store.bindings r' ∨ (r' = r ∧ name' = name) := by
  rw [mem_bindings_iff, mem_bindings_iff, changed]
  by_cases here : r' = r ∧ name' = name
  · simp only [here, and_self, if_true, or_true, Option.some.injEq, exists_eq']
  · simp only [here, if_false, or_false]

/-- A change of a variable that there is adds no name. -/
theorem Changed.mem_iff_of_mem {h : Heap} {r r' : Ref} {name name' : String} {v : Value} {s' : Store}
    (changed : h.Changed r name v s') (binds : name ∈ h.store.bindings r) :
    name' ∈ s'.bindings r' ↔ name' ∈ h.store.bindings r' := by
  rw [changed.mem_iff, or_iff_left_iff_imp]
  rintro ⟨rfl, rfl⟩
  exact binds

theorem Sound.mem_after_iff {h : Heap} (sound : h.Sound) {op : Operation} (admits : h.Admits op)
    (r : Ref) (name : String) : name ∈ (h.after op).store.bindings r ↔
      name ∈ h.store.bindings r ∨ ∃ e v, op = .define e name v ∧ r = e.frame := by
  have unchanged (noDefinition : ∀ e v, op ≠ .define e name v)
      (same : name ∈ (h.after op).store.bindings r ↔ name ∈ h.store.bindings r) :
      name ∈ (h.after op).store.bindings r ↔
        name ∈ h.store.bindings r ∨ ∃ e v, op = .define e name v ∧ r = e.frame := by
    rw [same, or_iff_left]
    rintro ⟨e, v, isDefinition, _⟩
    exact noDefinition e v isDefinition
  cases op with
  | new around =>
    refine unchanged (fun _ _ isDefinition => by cases isDefinition) ?_
    show name ∈ h.store.grow.bindings r ↔ _
    rw [Store.bindings_grow]
  | define e name' v =>
    have changed := sound.changed_define (admits e rfl) name' v
    show name ∈ (h.store.define e name' v).bindings r ↔ _
    rw [changed.mem_iff]
    refine or_congr_right ⟨?_, ?_⟩
    · rintro ⟨rfl, rfl⟩
      exact ⟨e, v, rfl, rfl⟩
    · rintro ⟨_, _, isDefinition, rfl⟩
      cases isDefinition
      exact ⟨rfl, rfl⟩
  | assign e name' v =>
    refine unchanged (fun _ _ isDefinition => by cases isDefinition) ?_
    have performed : h.perform (.assign e name' v) =
      (h.store.assign e name' v).map ({ h with store := · }) := rfl
    cases assigned : h.store.assign e name' v with
    | error missing => rw [after_of_error (performed.trans (by rw [assigned]; rfl))]
    | ok s' =>
      rw [after_of_ok (performed.trans (by rw [assigned]; rfl))]
      obtain ⟨distance, r', nearest, rfl⟩ := sound.assign_eq_ok (admits e rfl) assigned
      exact (sound.changed_reached (admits e rfl) nearest.reached name' v).mem_iff_of_mem nearest.binds
  | assignAt e distance name' v =>
    refine unchanged (fun _ _ isDefinition => by cases isDefinition) ?_
    have performed : h.perform (.assignAt e distance name' v) =
      (h.store.assignAt e distance name' v).map ({ h with store := · }) := rfl
    cases assigned : h.store.assignAt e distance name' v with
    | error missing => rw [after_of_error (performed.trans (by rw [assigned]; rfl))]
    | ok s' =>
      rw [after_of_ok (performed.trans (by rw [assigned]; rfl))]
      obtain ⟨r', reached, binds, rfl⟩ := sound.assignAt_eq_ok (admits e rfl) assigned
      exact (sound.changed_reached (admits e rfl) reached name' v).mem_iff_of_mem binds

/-! ## Runs that fail -/

section
variable {access : Access} {e : Env} {id : Nat} {name : Token} {m m' : Machine} {stop : Stop}

theorem ofFound_of_error {α : Type} {found : Except Missing α}
    (failed : Running.ofFound name found m = .error stop m') : m' = m := by
  cases found with
  | ok a => cases failed
  | error missing =>
    cases failed
    rfl

theorem assign_of_error {v : Value} (failed : Running.assign access e id name v m = .error stop m') :
    m' = m := by
  unfold Running.assign at failed
  cases owner : Running.ownerOf access e id name m with
  | ok r m'' =>
    rw [run_bind_of_ok owner] at failed
    cases failed
  | error stop' m'' =>
    rw [run_bind_of_error owner] at failed
    cases failed
    exact ofFound_of_error owner

end

/-! ## All laws -/

/-- In a heap that was made by any operations, variables are looked up and changed lawfully. -/
theorem Made.lawful {h : Heap} (made : h.Made) : h.Lawful := by
  have sound := made.sound
  constructor
  case ends =>
    intro e member
    refine ⟨e.chain.length, ?_⟩
    rw [← sound.getElem?_chain member]
    exact List.getElem?_eq_none (Nat.le_refl _)
  case get => exact fun e member => sound.get_eq_ok_iff member
  case assigns =>
    intro e member name v
    constructor
    · rintro ⟨s', assigned⟩
      obtain ⟨distance, r, nearest, _⟩ := sound.assign_eq_ok member assigned
      obtain ⟨w, found⟩ := mem_bindings_iff.1 nearest.binds
      exact ⟨w, sound.get_nearest member nearest found⟩
    · rintro ⟨w, isValue⟩
      obtain ⟨distance, r, nearest, _⟩ := (sound.get_eq_ok_iff member name w).1 isValue
      exact ⟨_, sound.assign_nearest member nearest v⟩
  case undefined =>
    intro e member name noNearest
    rcases sound.exists_nearest_or_lacking member name with ⟨distance, r, nearest⟩ | lacking
    · exact absurd nearest (noNearest distance r)
    · exact Sound.undefined_of_lacking lacking
  case assign =>
    intro e member name v s' assigned
    obtain ⟨distance, r, nearest, rfl⟩ := sound.assign_eq_ok member assigned
    have changed := sound.changed_reached member nearest.reached name v
    refine ⟨distance, r, nearest, changed, fun e' member' => ⟨?_, fun name' other => ?_⟩⟩
    · rintro ⟨distance', nearest'⟩
      exact sound.get_bind_nearest member' nearest' v
    · by_cases same : name' = name
      · subst same
        exact sound.get_bind_other member' nearest.binds (fun seen => other ⟨rfl, seen⟩) v
      · unfold Store.get
        simp only [changed _ name', same, and_false, if_false]
  case define => exact fun e member => sound.changed_define member
  case getAt =>
    intro e member distance name v
    cases reached : h.links.outward distance e.frame with
    | none =>
      refine iff_of_false ((sound.unreached member reached name).1 v) ?_
      rintro ⟨r, isFrame, _⟩
      cases isFrame
    | some r =>
      rw [sound.getAt_reached member reached]
      cases found : (h.store.bindings r)[name]? <;> simp [found]
  case assignAt =>
    intro e member distance name v s' assigned
    obtain ⟨r, reached, binds, rfl⟩ := sound.assignAt_eq_ok member assigned
    exact ⟨r, reached, binds, sound.changed_reached member reached name v⟩
  case assignsAt =>
    intro e member distance name v
    constructor
    · rintro ⟨s', assigned⟩
      obtain ⟨r, reached, binds, _⟩ := sound.assignAt_eq_ok member assigned
      exact ⟨r, reached, binds⟩
    · rintro ⟨r, reached, binds⟩
      rw [sound.assignAt_reached member reached, if_pos binds]
      exact ⟨_, rfl⟩
  case uninitialized =>
    intro e member distance name r reached lacks
    refine ⟨?_, fun v => ?_⟩
    · rw [sound.getAt_reached member reached, notMem_bindings_iff.1 lacks]
    · rw [sound.assignAt_reached member reached, if_neg lacks]
  case agree =>
    intro e member name distance r nearest
    obtain ⟨w, found⟩ := mem_bindings_iff.1 nearest.binds
    refine ⟨?_, fun v => ?_⟩
    · rw [sound.getAt_reached member nearest.reached, found, sound.get_nearest member nearest found]
    · rw [sound.assignAt_reached member nearest.reached, if_pos nearest.binds,
        sound.assign_nearest member nearest]
  case fails => exact fun op missing failed => after_of_error failed
  case stops => exact fun m _ access e id name stop m' =>
    ⟨ofFound_of_error, fun v => assign_of_error⟩
  case names => exact fun op admits => sound.mem_after_iff admits

/-- A name that is bound in two frames, and changed from inside of both. -/
theorem lawful_shadowed :
    let outer : Env := ⟨0, []⟩
    let middle : Env := ⟨1, [0]⟩
    let inner : Env := ⟨2, [1, 0]⟩
    let bare := (((mk .empty [] []).after (.new none)).after (.new (some outer))).after
      (.new (some middle))
    let h := ((bare.after (.define outer "x" .nil)).after (.define middle "x" .nil)).after
      (.assign inner "x" (.bool true))
    h.Made ∧ h.Lawful ∧ (h.store.get inner "x").toOption.map Value.truthy = some true ∧
      (h.store.get outer "x").toOption.map Value.truthy = some false := by
  intro outer middle inner bare h
  have made : bare.Made :=
    .after (.after (.after .empty (by decide)) (by decide)) (by decide)
  have made : h.Made := .after (.after (.after made (by decide)) (by decide)) (by decide)
  exact ⟨made, made.lawful, by decide +kernel, by decide +kernel⟩

end Heap

end Lox
