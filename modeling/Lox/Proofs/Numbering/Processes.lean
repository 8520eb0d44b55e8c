import Mathlib.Data.List.Nodup
import Mathlib.Data.List.Pairwise
import Mathlib.Logic.Function.Basic
import Lox.Proofs.Numbering.Requests

/-!
# Interpreters that share one numbering of nodes

The interpreters of a process take the numbers of their nodes from one counter, and each has a table
of distances of its own. However they are asked to read, run and resolve, no two nodes that were
read have the same number. So an entry of a table is about one node, and it is what the resolution
of its tree noted of it; nothing that comes later can change it.
-/

namespace Lox

/-- Interpreters that share a counter. -/
structure Process where
  /-- The number of the next node. -/
  nextId : Nat
  machine : Nat → Machine
  table : Nat → Distances
  /-- All trees that were read, those before an error included. -/
  trees : List Program

namespace Process

/-- A process in which nothing was read. -/
def start (machine : Nat → Machine) : Process := ⟨1, machine, fun _ => ∅, []⟩

/-- The session of an interpreter. -/
def session (w : Process) (i : Nat) : Session := ⟨w.machine i, w.table i, w.nextId⟩

/-- One of the interpreters is asked something. -/
def step (w : Process) (i : Nat) (r : Request) : Process :=
  let s := r.after w.trees (w.session i)
  ⟨s.nextId, Function.update w.machine i s.machine, Function.update w.table i s.table,
    w.trees ++ r.handsOut w.nextId⟩

/-- The interpreters are asked one thing after the other. -/
def steps (w : Process) (requests : List (Nat × Request)) : Process :=
  requests.foldl (fun w (i, r) => w.step i r) w

/-- The tree that a request resolves. -/
def resolved (w : Process) (r : Request) : Program := r.resolved w.trees w.nextId

variable {w : Process} {i : Nat} {r : Request} {p q : Program} {id d : Nat}

theorem nextId_step (w : Process) (i : Nat) (r : Request) :
    (w.step i r).nextId = ((r.reading w.nextId).map Prod.snd).getD w.nextId :=
  (r.advanced w.trees (w.session i)).nextId

theorem table_step (w : Process) (i : Nat) (r : Request) :
    (w.step i r).table =
      Function.update w.table i ((w.table i).insertUses (w.resolved r).resolution.uses) :=
  congrArg (Function.update w.table i) (r.advanced w.trees (w.session i)).table

theorem table_step_self (w : Process) (i : Nat) (r : Request) :
    (w.step i r).table i = (w.table i).insertUses (w.resolved r).resolution.uses := by
  rw [table_step, Function.update_self]

theorem table_step_other {k : Nat} (other : k ≠ i) : (w.step i r).table k = w.table k := by
  rw [table_step, Function.update_of_ne other]

/-! ## What holds of all trees and tables -/

/-- All nodes have numbers of their own, those inside of a node are numbered before it, and an entry
of a table is what the resolution of a tree notes. -/
structure Orderly (w : Process) : Prop where
  apart : Apart ((w.trees.flatMap Program.nodes).map Expr.number) 0 w.nextId
  enclosed : ∀ p ∈ w.trees, ∀ outer ∈ p.nodes, ∀ inner ∈ outer.enclosed,
    inner.number < outer.number
  entries : ∀ k id d, (w.table k)[id]? = some d →
    ∃ p ∈ w.trees, ∃ u ∈ p.resolution.uses, u.id = id ∧ u.distance = d

theorem orderly_start (machine : Nat → Machine) : (start machine).Orderly where
  apart := .nil 0 1
  enclosed _ member := absurd member List.not_mem_nil
  entries k id d found := by simp [start] at found

end Process

/-- The uses that are noted are some of the uses of a program, in their order. -/
theorem Program.ids_sublist (p : Program) :
    (p.resolution.uses.map (·.id)).Sublist (usesAmong p.nodes) := by
  have ids := (Program.findings_at unlabelled [] p).ids
  rw [Program.ids_sites] at ids
  rw [Program.usesAmong_nodes, Program.uses_eq, List.map_map]
  exact ids

theorem usesAmong_sublist (nodes : List Expr) :
    (usesAmong nodes).Sublist (nodes.map Expr.number) :=
  List.filter_sublist.map Expr.number

/-- A use that is noted has the number of a node. -/
theorem Program.number_of_use {p : Program} {u : Use} (noted : u ∈ p.resolution.uses) :
    u.id ∈ p.nodes.map Expr.number :=
  (usesAmong_sublist _).subset (p.ids_sublist.subset (List.mem_map_of_mem noted))

namespace Process

variable {w : Process} {i : Nat} {r : Request} {p q : Program} {id d : Nat}

namespace Orderly

variable (orderly : w.Orderly)
include orderly

theorem nodup_flatMap : (w.trees.flatMap fun p => p.nodes.map Expr.number).Nodup := by
  rw [← List.map_flatMap]
  exact orderly.apart.nodup

theorem nodup (member : p ∈ w.trees) : (p.nodes.map Expr.number).Nodup :=
  (List.nodup_flatMap.1 orderly.nodup_flatMap).1 p member

/-- A number is that of a node in one tree. -/
theorem same_tree (member : p ∈ w.trees) (member' : q ∈ w.trees)
    (inside : id ∈ p.nodes.map Expr.number) (inside' : id ∈ q.nodes.map Expr.number) : p = q := by
  have apart := (List.nodup_flatMap.1 orderly.nodup_flatMap).2
  have : Std.Symm (Function.onFun List.Disjoint fun p : Program => p.nodes.map Expr.number) :=
    ⟨fun _ _ disjoint _ first second => disjoint second first⟩
  by_contra other
  exact apart.forall member member' other inside inside'

theorem nodup_uses (member : p ∈ w.trees) : (p.resolution.uses.map (·.id)).Nodup :=
  ((orderly.nodup member).sublist (usesAmong_sublist _)).sublist p.ids_sublist

/-- The entry of a node is what the resolution of its own tree notes of it. -/
theorem entry_of_use {k : Nat} (member : p ∈ w.trees) {u : Use} (noted : u ∈ p.resolution.uses)
    (found : (w.table k)[u.id]? = some d) : d = u.distance := by
  obtain ⟨q, member', u', noted', same, rfl⟩ := orderly.entries k u.id d found
  have inside' := Program.number_of_use noted'
  rw [same] at inside'
  obtain rfl := orderly.same_tree member member' (Program.number_of_use noted) inside'
  rw [List.inj_on_of_nodup_map (orderly.nodup_uses member) noted' noted same]

end Orderly

/-! ## One step -/

/-- What is handed out is numbered from the next number on, and the numbers up to there are used up.
-/
theorem counted_handsOut (n : Nat) (r : Request) :
    ∃ k, Counted ((r.handsOut n).flatMap Program.nodes) n k ∧
      k ≤ ((r.reading n).map Prod.snd).getD n := by
  rw [Request.handsOut]
  rcases read : r.reading n with _ | ⟨e | p, m⟩
  · exact ⟨n, .nil n, Nat.le_refl n⟩
  · obtain ⟨k, counted, le⟩ := Request.counted_before read
    exact ⟨k, by simpa using counted, le⟩
  · exact ⟨m, by simpa using Request.counted_reading read, Nat.le_refl m⟩

/-- A tree that is resolved was read before, or it is handed out now. -/
theorem resolved_mem (w : Process) (i : Nat) (r : Request) :
    w.resolved r ∈ (w.step i r).trees ∨ w.resolved r = [] := by
  have handedOut (isRead : r.resolved w.trees w.nextId = (treeRead? (r.reading w.nextId)).getD []) :
      w.resolved r ∈ (w.step i r).trees ∨ w.resolved r = [] := by
    rw [resolved, isRead, step, Request.handsOut]
    rcases r.reading w.nextId with _ | ⟨e | p, m⟩
    · exact .inr rfl
    · exact .inr rfl
    · exact .inl (List.mem_append_right _ (List.mem_singleton_self p))
  cases r with
  | tokens | parse | parseExpression | perform => exact .inr rfl
  | run | runQuietly | evaluate => exact handedOut rfl
  | resolve index =>
    rw [resolved, Request.resolved]
    cases found : w.trees[index]? with
    | none => exact .inr rfl
    | some p => exact .inl (List.mem_append_left _ (List.mem_of_getElem? found))

/-- What a table has after a step was there before, or it was noted of the tree that is resolved. -/
theorem entry_step {k : Nat} (found : ((w.step i r).table k)[id]? = some d) :
    (∃ u ∈ (w.resolved r).resolution.uses, u.id = id ∧ u.distance = d) ∨
      (w.table k)[id]? = some d := by
  rcases eq_or_ne k i with rfl | other
  · rw [table_step_self] at found
    exact Distances.of_insertUses found
  · rw [table_step_other other] at found
    exact .inr found

theorem Orderly.step (orderly : w.Orderly) (i : Nat) (r : Request) : (w.step i r).Orderly := by
  obtain ⟨k, counted, le⟩ := counted_handsOut w.nextId r
  refine ⟨?_, fun p member => ?_, fun k id d found => ?_⟩
  · rw [nextId_step]
    have all := orderly.apart.append counted.apart (Nat.zero_le _) counted.le
    rw [← List.map_append, ← List.flatMap_append] at all
    exact all.mono (Nat.le_refl _) le
  · rcases List.mem_append.1 member with before | now
    · exact orderly.enclosed p before
    · exact fun outer inside => counted.enclosed outer (List.mem_flatMap.2 ⟨p, now, inside⟩)
  · rcases entry_step found with ⟨u, noted, isEntry⟩ | before
    · rcases resolved_mem w i r with member | empty
      · exact ⟨_, member, u, noted, isEntry⟩
      · rw [empty] at noted
        cases noted
    · obtain ⟨p, member, isEntry⟩ := orderly.entries k id d before
      exact ⟨p, List.mem_append_left _ member, isEntry⟩

/-- An entry is never changed. -/
theorem Orderly.keeps_entry (orderly : w.Orderly) (i : Nat) (r : Request) {k : Nat}
    (found : (w.table k)[id]? = some d) : ((w.step i r).table k)[id]? = some d := by
  obtain ⟨p, member, u, noted, rfl, rfl⟩ := orderly.entries k id d found
  have after := orderly.step i r
  have member' : p ∈ (w.step i r).trees := List.mem_append_left _ member
  rcases eq_or_ne k i with rfl | other
  · obtain ⟨d, stays⟩ := Distances.exists_insertUses found (w.resolved r).resolution.uses
    rw [← table_step_self] at stays
    rw [stays, after.entry_of_use member' noted stays]
  · rw [table_step_other other]
    exact found

/-- Unless a tree is resolved again, all that is noted is about nodes that were not there before. -/
theorem entry_before (w : Process) (i : Nat) (fresh : ∀ index, r ≠ .resolve index) {k : Nat}
    (before : id < w.nextId) : ((w.step i r).table k)[id]? = (w.table k)[id]? := by
  have isLater (u : Use) (noted : u ∈ (w.resolved r).resolution.uses) : w.nextId ≤ u.id := by
    have handedOut (isRead : w.resolved r = (treeRead? (r.reading w.nextId)).getD []) :
        w.nextId ≤ u.id := by
      rw [isRead] at noted
      rcases read : r.reading w.nextId with _ | ⟨e | p, m⟩
      · rw [read] at noted
        cases noted
      · rw [read] at noted
        cases noted
      · rw [read] at noted
        exact (Request.counted_reading read).apart.low_le _ (Program.number_of_use noted)
    cases r with
    | tokens | parse | parseExpression | perform => cases noted
    | run | runQuietly | evaluate => exact handedOut rfl
    | resolve index => exact absurd rfl (fresh index)
  rcases eq_or_ne k i with rfl | other
  · rw [table_step_self]
    refine Distances.insertUses_of_ne fun u noted isId => ?_
    have := isLater u noted
    omega
  · rw [table_step_other other]

/-- A tree that is read has its nodes numbered from the next number on. -/
theorem step_of_reading {m : Nat} (i : Nat) (read : r.reading w.nextId = some (.ok p, m)) :
    (w.step i r).trees = w.trees ++ [p] ∧
      (w.step i r).nextId =
        w.nextId + p.nodes.length + p.nodes.countP Expr.isAssignment := by
  constructor
  · rw [step, Request.handsOut, read]
  · rw [nextId_step, read]
    exact (Request.counted_reading read).count.symm

/-! ## All steps -/

theorem Orderly.steps (orderly : w.Orderly) (requests : List (Nat × Request)) :
    (w.steps requests).Orderly := by
  induction requests generalizing w with
  | nil => exact orderly
  | cons request rest ih => exact ih (orderly.step request.1 request.2)

theorem Orderly.keeps_entries (orderly : w.Orderly) (requests : List (Nat × Request)) {k : Nat}
    (found : (w.table k)[id]? = some d) : ((w.steps requests).table k)[id]? = some d := by
  induction requests generalizing w with
  | nil => exact found
  | cons request rest ih =>
    exact ih (orderly.step request.1 request.2) (orderly.keeps_entry request.1 request.2 found)

/-- What a request resolved has its distances in the table. -/
theorem Orderly.noted_step (orderly : w.Orderly) (i : Nat) (r : Request) :
    ∀ u ∈ (w.resolved r).resolution.uses, ((w.step i r).table i)[u.id]? = some u.distance := by
  intro u noted
  rw [table_step_self]
  refine Distances.insertUses_of_mem ?_ noted
  rcases resolved_mem w i r with member | empty
  · exact (orderly.step i r).nodup_uses member
  · rw [empty]
    exact .nil

theorem trees_steps (w : Process) (requests : List (Nat × Request)) :
    w.trees <+: (w.steps requests).trees := by
  induction requests generalizing w with
  | nil => exact List.prefix_rfl
  | cons request rest ih => exact (List.prefix_append _ _).trans (ih (w.step request.1 request.2))

/-- A tree that was resolved leaves the tables as they are when it is resolved again, whatever was
done in between. -/
theorem Orderly.resolved_again (orderly : w.Orderly) (i : Nat) (r : Request)
    (later : List (Nat × Request)) {index : Nat}
    (isTree : (w.step i r).trees[index]? = some (w.resolved r)) (k id : Nat) :
    ((((w.step i r).steps later).step i (.resolve index)).table k)[id]? =
      (((w.step i r).steps later).table k)[id]? := by
  have isStill : ((w.step i r).steps later).resolved (.resolve index) = w.resolved r := by
    obtain ⟨more, same⟩ := trees_steps (w.step i r) later
    obtain ⟨inside, _⟩ := List.getElem?_eq_some_iff.1 isTree
    rw [resolved, Request.resolved, ← same, List.getElem?_append_left inside, isTree,
      Option.getD_some]
  rcases eq_or_ne k i with rfl | other
  · rw [table_step_self, isStill]
    refine Distances.insertUses_of_noted (fun u noted => ?_) id
    exact (orderly.step k r).keeps_entries later (orderly.noted_step k r u noted)
  · rw [table_step_other other]

/-- However the interpreters of a process are asked to read, run and resolve, all nodes that are
read have numbers of their own, those inside of a node smaller ones than the node. A tree uses up a
number for each node and another one for each assignment. A request writes distances of uses in the
tree that it resolves, of each at most once; no entry is ever changed, those of trees read before
are left alone unless these are resolved again, and then again makes no difference. -/
theorem numbering (machine : Nat → Machine) (past : List (Nat × Request)) (i : Nat) (r : Request) :
    let w := (start machine).steps past
    let w' := w.step i r
    ((w'.trees.flatMap Program.nodes).map Expr.number).Nodup ∧
      (∀ p ∈ w'.trees, ∀ outer ∈ p.nodes, ∀ inner ∈ outer.enclosed, inner.number < outer.number) ∧
      (∀ p m, r.reading w.nextId = some (.ok p, m) → w'.trees = w.trees ++ [p] ∧
        w'.nextId = w.nextId + p.nodes.length + p.nodes.countP Expr.isAssignment) ∧
      (w'.table =
          Function.update w.table i ((w.table i).insertUses (w.resolved r).resolution.uses) ∧
        ((w.resolved r).resolution.uses.map (·.id)).Sublist (usesAmong (w.resolved r).nodes) ∧
        ((w.resolved r).resolution.uses.map (·.id)).Nodup) ∧
      (∀ k id d : Nat, (w.table k)[id]? = some d → (w'.table k)[id]? = some d) ∧
      ((∀ index, r ≠ .resolve index) → ∀ p ∈ w.trees, ∀ node ∈ p.nodes, ∀ k : Nat,
        (w'.table k)[node.number]? = (w.table k)[node.number]?) ∧
      ∀ (later : List (Nat × Request)) (index : Nat), w'.trees[index]? = some (w.resolved r) →
        ∀ k id : Nat,
        (((w'.steps later).step i (.resolve index)).table k)[id]? =
          ((w'.steps later).table k)[id]? := by
  intro w w'
  have orderly : w.Orderly := (orderly_start machine).steps past
  have after : w'.Orderly := orderly.step i r
  refine ⟨after.apart.nodup, after.enclosed, fun p m read => step_of_reading i read,
    ⟨table_step w i r, Program.ids_sublist _, ?_⟩, fun k id d => orderly.keeps_entry i r,
    fun fresh p member node inside k => ?_, fun later index isTree =>
      orderly.resolved_again i r later isTree⟩
  · rcases resolved_mem w i r with member | empty
    · exact after.nodup_uses member
    · rw [empty]
      exact .nil
  · refine entry_before w i fresh (orderly.apart.lt_high _ (List.mem_map_of_mem ?_))
    exact List.mem_flatMap.2 ⟨p, member, inside⟩

/-- A variable that is assigned to itself in a block is read by one interpreter, which resolves it,
and then by another one: the assignment has a number of its own each time, its first entry stays,
and to resolve it again makes no difference. -/
theorem block_read_twice :
    let name : Token := ⟨.identifier, "x", .nil, 1⟩
    let semicolon : Token := ⟨.semicolon, ";", .nil, 1⟩
    let block : List Token := [⟨.leftBrace, "\x7b", .nil, 1⟩, ⟨.varWord, "var", .nil, 1⟩, name,
      semicolon, name, ⟨.equal, "=", .nil, 1⟩, name, semicolon, ⟨.rightBrace, "\x7d", .nil, 1⟩,
      ⟨.eof, "", .nil, 1⟩]
    let machine (_ : Nat) : Machine := .initial (.ofInput "" none false fun _ => 0) 0
    let w := (start machine).steps [(0, .tokens block), (0, .resolve 0)]
    let w' := w.step 1 (.tokens block)
    w.nextId = 4 ∧ w'.nextId = 7 ∧ (w.table 0)[3]? = some 0 ∧ (w'.table 0)[3]? = some 0 ∧
      (w'.table 1)[3]? = (w.table 1)[3]? ∧
      ∀ id : Nat, ((w'.step 0 (.resolve 0)).table 0)[id]? = (w'.table 0)[id]? := by
  intro name semicolon block machine w w'
  have next : w.nextId = 4 := by decide +kernel
  have entry : (w.table 0)[3]? = some 0 := by decide +kernel
  let tree : Program := [.block [.declaration name none,
    .expression (.assignment 3 name (.reference 2 name))]]
  have read : (Request.tokens block).reading w.nextId = some (.ok [.block [.declaration name none,
      .expression (.assignment 6 name (.reference 5 name))]], 7) := by
    rw [next]
    rfl
  obtain ⟨_, _, counted, _, keeps, elsewhere, _⟩ :=
    numbering machine [(0, .tokens block), (0, .resolve 0)] 1 (.tokens block)
  obtain ⟨_, _, _, _, _, _, again⟩ := numbering machine [(0, .tokens block)] 0 (.resolve 0)
  have other : ((w.step 1 (.tokens block)).table 1)[3]? = (w.table 1)[3]? :=
    elsewhere (fun _ => nofun) tree (List.mem_singleton_self tree)
      (.assignment 3 name (.reference 2 name)) (List.mem_cons_of_mem _ List.mem_cons_self) 1
  have next' : w'.nextId = w.nextId + 2 + 1 := (counted _ _ read).2
  rw [next] at next'
  exact ⟨next, next', entry, keeps 0 3 0 entry, other,
    again [(1, .tokens block)] 0 rfl 0⟩

end Process

end Lox
