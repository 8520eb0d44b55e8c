import Lox.Proofs.Alike.Renumbered
import Lox.Proofs.Grammar.Later
import Lox.Proofs.Joining.Sessions
import Lox.Proofs.Safety.Sessions

/-!
# Texts that are refused

A text that is refused before it is run uses up numbers, and it may leave distances of its uses
behind. The nodes of all later texts have later numbers then, at which nothing was left behind, so
that the session goes on as if the text had not been there.
-/

namespace Lox

/-! ## How a text is run -/

/-- A text is refused before any of it is run. -/
def Failure.isRefusal : Failure → Bool
  | stopped _ => false
  | _ => true

/-- The refusal of a walk as a failure. -/
def Refusal.failure : Refusal → Failure
  | error e => .resolution e
  | misplaced kind => .misplaced kind

section
variable {s : Session} {source : String} (fuel : Nat)

theorem Session.after_run_of_defects {defects : List Defect}
    (scanned : tokenize source.toList = .error defects) :
    s.after (Acting.run fuel source) = (.error (.lexical defects), s) := by
  have failed : Acting.run fuel source s = .error (.lexical defects) s := by
    rw [Acting.run, run_bind_of_error (Acting.parse_of_defects scanned)]
  rw [Session.after, failed]

variable {stream : Stream} (scanned : tokenize source.toList = .ok stream) {n : Nat}
include scanned

theorem Session.after_run_of_error {e : SyntaxError}
    (outcome : stream.program s.nextId = (.error e, n)) :
    ∃ trace, s.after (Acting.run fuel source) =
      (.error (.grammar e), { s.traced trace with nextId := n }) := by
  obtain ⟨trace, parsed⟩ := Acting.parse_of_error scanned outcome
  refine ⟨trace, ?_⟩
  have failed : Acting.run fuel source s =
      .error (.grammar e) { s.traced trace with nextId := n } := by
    rw [Acting.run, run_bind_of_error parsed]
  rw [Session.after, failed]

theorem Session.after_run_of_refusal {p : Program} {r : Refusal}
    (outcome : stream.program s.nextId = (.ok p, n)) (refused : p.resolution.outcome = .error r) :
    ∃ trace, s.after (Acting.run fuel source) = (.error r.failure, s.resolved p n trace) := by
  obtain ⟨trace, parsed⟩ := Acting.parse_of_program scanned outcome
  obtain ⟨trace', installed⟩ := Acting.install_eq p.resolution { s.traced trace with nextId := n }
  have stops : Acting.install p.resolution { s.traced trace with nextId := n } =
      .error r.failure (s.resolved p n trace') := by
    rw [installed, refused]
    cases r <;> rfl
  refine ⟨trace', ?_⟩
  have failed : Acting.run fuel source s = .error r.failure (s.resolved p n trace') := by
    rw [Acting.run, run_bind_of_ok parsed, run_bind_of_error stops]
  rw [Session.after, failed]

end

/-- What ends the run of trees is no refusal. -/
theorem Session.runTrees_not_refused {s : Session} {fuel : Nat} {p : Program} {failure : Failure}
    (failed : (s.after (Acting.runTrees fuel p)).1 = .error failure) :
    failure.isRefusal = false := by
  obtain ⟨machine, table, nextId⟩ := s
  simp only [Session.after, Acting.runTrees, Acting.perform] at failed
  cases ran : interpret (Access.distances table).steps fuel p machine with
  | ok _ _ => simp [ran] at failed
  | error stop _ =>
    simp only [ran, Except.error.injEq] at failed
    rw [← failed]
    rfl

/-! ## Numbers that were used up -/

/-- The numbers of nodes if `d` numbers from a bound on were used up. -/
def skipping (bound d id : Nat) : Nat := if id < bound then id else id + d

theorem skipping_of_le {bound d id : Nat} (above : bound ≤ id) : skipping bound d id = id + d := by
  simp [skipping, Nat.not_lt.2 above]

theorem skipping_injective (bound d : Nat) : Function.Injective (skipping bound d) := by
  intro id id' same
  unfold skipping at same
  split at same <;> split at same <;> omega

/-- Uses with other numbers leave the distances of theirs where the uses leave them. -/
theorem Distances.insertUses_relabel {T T' : Distances} {numbers : Nat → Nat}
    (injective : Function.Injective numbers) (agree : ∀ n, T'[numbers n]? = T[n]?)
    (us : List Use) (n : Nat) :
    (T'.insertUses (us.map (·.relabel id numbers)))[numbers n]? = (T.insertUses us)[n]? := by
  induction us generalizing T T' with
  | nil => exact agree n
  | cons u rest ih =>
    refine ih fun n => ?_
    rw [getElem?_insertUse, getElem?_insertUse, agree]
    simp only [Use.relabel, injective.eq_iff]

/-- The second session is what the first one would be if `d` more numbers had been used up at a
bound: uses of names have later numbers from there on, with the same distances under them. -/
structure Session.Skipped (bound d : Nat) (s s' : Session) : Prop where
  reached : bound ≤ s.nextId
  number : s'.nextId = s.nextId + d
  table : ∀ n, s'.table[skipping bound d n]? = s.table[n]?
  machines : ∃ marks,
    Machine.Alike (.renumbered (skipping bound d)) .plain marks s.machine s'.machine

/-- A failure, a syntax error without the numbers of the statements before it. -/
def Failure.bare : Failure → Failure
  | grammar e => .grammar { e with before := Program.bare e.before }
  | f => f

/-- The sessions have the same console, and the same variables in all frames, with the same values
up to the numbers of nodes. -/
structure Session.SameBare (s s' : Session) : Prop where
  console : s'.machine.console = s.machine.console
  closures : s'.machine.closures = s.machine.closures
  frames : s'.machine.store.frames.size = s.machine.store.frames.size
  values : ∀ (r : Ref) (name : String),
    (s'.machine.store.bindings r)[name]?.map Value.bare =
      (s.machine.store.bindings r)[name]?.map Value.bare

namespace Session.Skipped

variable {bound d : Nat} {s s' : Session}

theorem sameBare (skipped : s.Skipped bound d s') : s.SameBare s' := by
  obtain ⟨marks, states⟩ := skipped.machines
  have sizes := states.store.size'.trans states.store.size.symm
  refine ⟨states.console, states.closures, sizes, fun r name => ?_⟩
  cases mark : marks[r]? with
  | some mark =>
    exact rel_map (states.store.values mark name) Value.Alike.bare_eq
  | none =>
    have outside := List.getElem?_eq_none_iff.1 mark
    have missing : s.machine.store.frames[r]? = none :=
      Array.getElem?_eq_none (by rw [states.store.size]; exact outside)
    have missing' : s'.machine.store.frames[r]? = none :=
      Array.getElem?_eq_none (by rw [states.store.size']; exact outside)
    rw [Store.bindings, Store.bindings, missing, missing']

/-- Numbers that are used up in both sessions keep them alike. -/
theorem advance (skipped : s.Skipped bound d s') (trace trace' : Trace) {n : Nat}
    (further : s.nextId ≤ n) :
    Skipped bound d { s.traced trace with nextId := n }
      { s'.traced trace' with nextId := n + d } := by
  obtain ⟨marks, states⟩ := skipped.machines
  exact ⟨Nat.le_trans skipped.reached further, rfl, skipped.table, marks,
    states.traced trace trace'⟩

/-- A program is resolved with as much later numbers. -/
theorem resolved (skipped : s.Skipped bound d s') (trace trace' : Trace) {p : Program} {n : Nat}
    (apart : Apart p.useIds s.nextId n) (further : s.nextId ≤ n) :
    Skipped bound d (s.resolved p n trace) (s'.resolved (Program.later d p) (n + d) trace') := by
  obtain ⟨reached, _, table, marks, states⟩ := skipped
  refine ⟨Nat.le_trans reached further, rfl, fun m => ?_, marks, states.traced trace trace'⟩
  have uses : (Program.later d p).resolution.uses =
      p.resolution.uses.map (·.relabel id (skipping bound d)) := by
    rw [Program.later, Program.resolution_relabelAll]
    refine List.map_congr_left fun u member => ?_
    have above := apart.low_le _ (Program.id_of_use member)
    rw [Use.relabel, Use.relabel, skipping_of_le (Nat.le_trans reached above)]
  show (s'.table.insertUses (Program.later d p).resolution.uses)[skipping bound d m]? =
    (s.table.insertUses p.resolution.uses)[m]?
  rw [uses]
  exact Distances.insertUses_relabel (skipping_injective bound d) table _ m

/-- A program with as much later numbers does the same. -/
theorem runTrees (skipped : s.Skipped bound d s') {p : Program}
    (above : ∀ id ∈ p.useIds, bound ≤ id) (fuel : Nat) :
    (s'.after (Acting.runTrees fuel (Program.later d p))).1 = (s.after (Acting.runTrees fuel p)).1 ∧
      Skipped bound d (s.after (Acting.runTrees fuel p)).2
        (s'.after (Acting.runTrees fuel (Program.later d p))).2 := by
  obtain ⟨reached, number, table, marks, states⟩ := skipped
  have inside : ∀ site ∈ Program.sites some [none] p, bound ≤ site.1 := by
    intro site member
    apply above
    rw [← Program.ids_sites some [none] p]
    exact List.mem_map_of_mem member
  have admits : (Likeness.renumbered (skipping bound d)).Admits id (· + d) some
      fun site => bound ≤ site.1 :=
    Likeness.renumbered_admits fun _ above => (skipping_of_le above).symm
  have trees := Stmt.allAlike_relabel admits p [none] inside
  obtain ⟨marks', _, statesAfter, endings⟩ :=
    runTrees_alike fuel (Likeness.renumbered_finds table) states trees
  obtain ⟨tableKept, numberKept⟩ := runTrees_table s fuel p
  obtain ⟨tableKept', numberKept'⟩ := runTrees_table s' fuel (Program.later d p)
  refine ⟨?_, ?_, ?_, ?_, marks', statesAfter⟩
  · revert endings
    generalize (s.after (Acting.runTrees fuel p)).1 = ending
    generalize (s'.after (Acting.runTrees fuel _)).1 = ending'
    intro endings
    cases endings with
    | ok => rfl
    | stopped stops => rw [stops.eq_of_renumbered]
  · rw [numberKept]
    exact reached
  · rw [numberKept, numberKept', number]
  · intro n
    rw [tableKept, tableKept', table]

/-- A text does the same in both sessions. -/
theorem run (skipped : s.Skipped bound d s') (fuel : Nat) (source : String) :
    let ran := s.after (Acting.run fuel source)
    let ran' := s'.after (Acting.run fuel source)
    ran'.1.mapError Failure.bare = ran.1.mapError Failure.bare ∧ Skipped bound d ran.2 ran'.2 := by
  intro ran ran'
  cases scanned : tokenize source.toList with
  | error defects =>
    have isRan : ran = _ := after_run_of_defects fuel scanned
    have isRan' : ran' = _ := after_run_of_defects fuel scanned
    rw [isRan, isRan']
    exact ⟨rfl, skipped⟩
  | ok stream =>
    have later := stream.program_later s.nextId d
    rw [← skipped.number] at later
    rcases outcome : stream.program s.nextId with ⟨e | p, n⟩
    · rw [outcome] at later
      have further : s.nextId ≤ n := by simpa [outcome] using stream.nextId_le_program s.nextId
      obtain ⟨trace, isRan⟩ := after_run_of_error fuel scanned outcome
      obtain ⟨trace', isRan'⟩ := after_run_of_error fuel scanned later
      have isRan : ran = _ := isRan
      have isRan' : ran' = _ := isRan'
      rw [isRan, isRan']
      refine ⟨?_, skipped.advance trace trace' further⟩
      show Except.error (Failure.bare (.grammar (e.later d))) = .error (Failure.bare (.grammar e))
      simp only [Failure.bare, SyntaxError.later, Program.bare_relabelAll]
    · rw [outcome] at later
      obtain ⟨apart, further⟩ := Grammar.apart_of_program (tokenize_stop scanned) outcome
      have resolution := Program.resolution_relabelAll id (· + d) p
      cases resolved : p.resolution.outcome with
      | error r =>
        have sameRefusal : r.relabel id = r := by cases r <;> rfl
        have resolved' : (Program.later d p).resolution.outcome = .error r := by
          rw [Program.later, resolution, Resolution.relabel, resolved]
          exact congrArg Except.error sameRefusal
        obtain ⟨trace, isRan⟩ := after_run_of_refusal fuel scanned outcome resolved
        obtain ⟨trace', isRan'⟩ := after_run_of_refusal fuel scanned later resolved'
        have isRan : ran = _ := isRan
        have isRan' : ran' = _ := isRan'
        rw [isRan, isRan']
        exact ⟨rfl, skipped.resolved trace trace' apart further⟩
      | ok u =>
        have resolved' : (Program.later d p).resolution.outcome = .ok u := by
          rw [Program.later, resolution, Resolution.relabel, resolved]
          rfl
        obtain ⟨trace, isRan⟩ := after_run ⟨stream, scanned, outcome, resolved⟩ fuel
        obtain ⟨trace', isRan'⟩ := after_run ⟨stream, scanned, later, resolved'⟩ fuel
        have isRan : ran = _ := isRan
        have isRan' : ran' = _ := isRan'
        have above (id : Nat) (isUse : id ∈ p.useIds) : bound ≤ id :=
          Nat.le_trans skipped.reached (apart.low_le id isUse)
        obtain ⟨sameEnding, skippedAfter⟩ :=
          (skipped.resolved trace trace' apart further).runTrees above fuel
        rw [isRan, isRan', sameEnding, Stmt.length_relabelAll]
        exact ⟨rfl, skippedAfter⟩

/-- Texts do the same in both sessions. -/
theorem afterRuns (skipped : s.Skipped bound d s') (runs : List (Nat × String)) :
    Skipped bound d (s.afterRuns runs) (s'.afterRuns runs) := by
  induction runs generalizing s s' with
  | nil => exact skipped
  | cons next rest ih => exact ih (skipped.run next.1 next.2).2

end Session.Skipped

/-! ## A text that is refused -/

/-- Uses with numbers of its own that are noted in a session make no difference to it later. -/
theorem Session.Settled.skipped_of_uses {s : Session} (settled : s.Settled)
    (below : ∀ {id distance}, s.table[id]? = some distance → id < s.nextId) {us : List Use}
    {n : Nat} (further : s.nextId ≤ n) (inside : ∀ u ∈ us, s.nextId ≤ u.id ∧ u.id < n) (trace : Trace) :
    s.Skipped s.nextId (n - s.nextId)
      ⟨{ s.machine with trace }, s.table.insertUses us, n⟩ := by
  obtain ⟨marks, states⟩ := settled
  refine ⟨Nat.le_refl _, (Nat.add_sub_cancel' further).symm, fun id => ?_, marks, ?_⟩
  · have others : ∀ u ∈ us, u.id ≠ skipping s.nextId (n - s.nextId) id := by
      intro u member
      obtain ⟨above, below⟩ := inside u member
      unfold skipping
      split <;> omega
    show (s.table.insertUses us)[skipping s.nextId (n - s.nextId) id]? = _
    rw [Distances.insertUses_of_ne others]
    by_cases old : id < s.nextId
    · simp only [skipping, old, if_true]
    · have none (m : Nat) (above : ¬ m < s.nextId) : s.table[m]? = none := by
        cases found : s.table[m]? with
        | none => rfl
        | some distance => exact absurd (below found) above
      rw [skipping_of_le (Nat.not_lt.1 old), none id old, none _ (by omega)]
  · have kept (site : Nat × List Origin) (old : site.1 < s.nextId) :
        skipping s.nextId (n - s.nextId) site.1 = site.1 := by
      simp only [skipping, old, if_true]
    exact (states.mono (Likeness.same_below_renumbered kept)).traced s.machine.trace trace

/-- A text that is refused only uses up numbers, and leaves distances under some of them. -/
theorem Session.of_refused {s : Session} {fuel : Nat} {source : String} {failure : Failure}
    (failed : (s.after (Acting.run fuel source)).1 = .error failure) (refused : failure.isRefusal) :
    ∃ trace us n, (s.after (Acting.run fuel source)).2 =
        ⟨{ s.machine with trace }, s.table.insertUses us, n⟩ ∧
      s.nextId ≤ n ∧ ∀ u ∈ us, s.nextId ≤ u.id ∧ u.id < n := by
  have none (n : Nat) : ∀ u ∈ ([] : List Use), s.nextId ≤ u.id ∧ u.id < n :=
    fun _ member => absurd member List.not_mem_nil
  cases scanned : tokenize source.toList with
  | error defects =>
    rw [after_run_of_defects fuel scanned]
    exact ⟨s.machine.trace, [], s.nextId, rfl, Nat.le_refl _, none _⟩
  | ok stream =>
    rcases outcome : stream.program s.nextId with ⟨e | p, n⟩
    · obtain ⟨trace, isRan⟩ := after_run_of_error fuel scanned outcome
      rw [isRan]
      have further : s.nextId ≤ n := by simpa [outcome] using stream.nextId_le_program s.nextId
      exact ⟨trace, [], n, rfl, further, none n⟩
    · obtain ⟨apart, further⟩ := Grammar.apart_of_program (tokenize_stop scanned) outcome
      cases resolved : p.resolution.outcome with
      | error r =>
        obtain ⟨trace, isRan⟩ := after_run_of_refusal fuel scanned outcome resolved
        rw [isRan]
        refine ⟨trace, p.resolution.uses, n, rfl, further, fun u member => ?_⟩
        have isUse := Program.id_of_use member
        exact ⟨apart.low_le _ isUse, apart.lt_high _ isUse⟩
      | ok u =>
        obtain ⟨trace, isRan⟩ := after_run ⟨stream, scanned, outcome, resolved⟩ fuel
        rw [isRan] at failed
        cases ending : ((s.resolved p n trace).after (Acting.runTrees fuel p)).1 with
        | ok u =>
          rw [ending] at failed
          cases failed
        | error e =>
          rw [ending] at failed
          cases failed
          rw [runTrees_not_refused ending] at refused
          cases refused

/-- In a session of any texts, one that is refused for its tokens, its grammar or its scopes leaves
the machine as it was, and makes no difference to any texts after it: each of them ends in the same
way as without it, and leaves the same output, the same lines that are still to be read, and the same
variables in all frames. Only the numbers of nodes differ, in the bodies of functions and in the
statements before a syntax error. -/
theorem Session.refused_unseen (console : Console) (debugLevel : Nat) (runs : List (Nat × String))
    {fuel : Nat} {source : String} {failure : Failure}
    (failed : (((Session.start console debugLevel).afterRuns runs).after
      (Acting.run fuel source)).1 = .error failure) (refused : failure.isRefusal) :
    let s := (Session.start console debugLevel).afterRuns runs
    let t := (s.after (Acting.run fuel source)).2
    (∃ trace, t.machine = { s.machine with trace }) ∧
      ∀ later : List (Nat × String), (s.afterRuns later).SameBare (t.afterRuns later) ∧
        ∀ (fuel' : Nat) (source' : String),
          ((t.afterRuns later).after (Acting.run fuel' source')).1.mapError Failure.bare =
            ((s.afterRuns later).after (Acting.run fuel' source')).1.mapError Failure.bare := by
  intro s t
  obtain ⟨trace, us, n, isLeft, further, inside⟩ := Session.of_refused failed refused
  have isLeft : t = _ := isLeft
  have settled : s.Settled := Session.settled_afterRuns console debugLevel runs
  have fits : s.Fits _ False := Session.fits_afterRuns console debugLevel nofun
  have skipped := settled.skipped_of_uses fits.below further inside trace
  rw [← isLeft] at skipped
  refine ⟨⟨trace, by rw [isLeft]⟩, fun later => ⟨(skipped.afterRuns later).sameBare, ?_⟩⟩
  intro fuel' source'
  exact ((skipped.afterRuns later).run fuel' source').1

/-- A stray `return` is refused after the uses before it were noted. -/
theorem Session.stray_return_unseen :
    let s := (Session.start (.ofInput "" none false fun _ => 0) 0).afterRuns [(5, "var a = 1;")]
    let t := (s.after (Acting.run 5 "\x7b var b = a; b; return b; \x7d")).2
    s.table.toList = [] ∧ t.table.toList = [(3, 0)] ∧ s.nextId = 2 ∧ t.nextId = 5 ∧
      (s.afterRuns [(5, "a = 2;")]).SameBare (t.afterRuns [(5, "a = 2;")]) := by
  intro s t
  refine ⟨by decide +kernel, by decide +kernel, by decide +kernel, by decide +kernel, ?_⟩
  have isRefused : (match (s.after (Acting.run 5 "\x7b var b = a; b; return b; \x7d")).1 with
    | .error failure => failure.isRefusal
    | .ok _ => false) = true := by decide +kernel
  cases ran : (s.after (Acting.run 5 "\x7b var b = a; b; return b; \x7d")).1 with
  | ok count =>
    rw [ran] at isRefused
    cases isRefused
  | error failure =>
    rw [ran] at isRefused
    obtain ⟨_, unseen⟩ := Session.refused_unseen _ 0 [(5, "var a = 1;")] ran isRefused
    exact (unseen [(5, "a = 2;")]).1

end Lox
