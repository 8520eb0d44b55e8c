import Lox.Proofs.Grammar.Exact
import Lox.Proofs.Grammar.Placed
import Lox.Proofs.Scopes.Judged
import Lox.Proofs.Scopes.Walked
import Lox.Proofs.Trees.Nodes

/-!
# What is refused and what is noted

The programs that are refused are those with a mention against the rules, and the error is that of
the first one. Of the others each use of a name is noted at the distance of the first scope around
it in which the name was declared before, if there is one.
-/

namespace Lox

/-! ## Mentions in order -/

theorem Mention.Offends.unique {before : List Mention} {m : Mention} {e e' : ResolutionError}
    (offends : m.Offends before e) (offends' : m.Offends before e') : e = e' := by
  cases offends with
  | jump => cases offends'; rfl
  | returning => cases offends'; rfl
  | @ownInitializer id name inner outer =>
    generalize inner ++ .initializer name.lexeme false :: outer = around at offends'
    cases offends'
    rfl

theorem Mention.Yields.inOrder {before : List Mention} {m : Mention} {found : Findings Unit}
    (yields : m.Yields before found) (accepted : found.refusal = none) (e : ResolutionError) :
    ¬ m.Offends before e := by
  cases yields with
  | offence | misplaced => cases accepted
  | bound inOrder | free inOrder => exact inOrder e
  | declaration => exact fun offends => by cases offends
  | jump inside =>
    intro offends
    cases offends with
    | jump outside => exact outside inside
  | returning inside =>
    intro offends
    cases offends with
    | returning outside => exact outside inside

/-- Of mentions that all pass, what is found of one is among what is found of them. -/
theorem Judged.noted {before ms : List Mention} {found : Findings Unit}
    (judged : Judged before ms found) (accepted : found.refusal = none)
    {passed after : List Mention} {m : Mention} (split : ms = passed ++ m :: after) :
    ∃ first : Findings Unit, m.Yields (before ++ passed) first ∧ first.refusal = none ∧
      ∀ note ∈ first.notes, note ∈ found.notes := by
  induction judged generalizing passed with
  | nil => simp at split
  | refused => cases accepted
  | @goesOn before ms m' first rest yields _ others ih =>
    obtain ⟨accepted, accepted', notes⟩ := Findings.accepted_andThen accepted
    rw [notes]
    cases passed with
    | nil =>
      cases split
      rw [List.append_nil]
      exact ⟨first, yields, accepted, fun note member => List.mem_append_left _ member⟩
    | cons m'' passed =>
      cases split
      obtain ⟨found, yields', accepted, inside⟩ := ih accepted' rfl
      refine ⟨found, by simpa using yields', accepted, fun note member => ?_⟩
      exact List.mem_append_right _ (inside note member)

theorem Judged.inOrder {before ms : List Mention} {found : Findings Unit}
    (judged : Judged before ms found) (accepted : found.refusal = none)
    {passed after : List Mention} {m : Mention} (split : ms = passed ++ m :: after)
    (e : ResolutionError) : ¬ m.Offends (before ++ passed) e := by
  obtain ⟨first, yields, goesOn, _⟩ := judged.noted accepted split
  exact yields.inOrder goesOn e

/-- What ends a walk is found of a mention behind others that pass. -/
theorem Judged.refusal {before ms : List Mention} {found : Findings Unit}
    (judged : Judged before ms found) {r : Refusal} (refused : found.refusal = some r) :
    ∃ passed m after rest, ms = passed ++ m :: after ∧ Judged before passed rest ∧
      rest.refusal = none ∧ m.Yields (before ++ passed) (.refused r) := by
  induction judged with
  | nil => cases refused
  | @refused before ms m r yields =>
    cases refused
    exact ⟨[], m, ms, .nothing, rfl, .nil before, rfl, by rwa [List.append_nil]⟩
  | @goesOn before ms m first _ yields accepted _ ih =>
    rw [Findings.andThen, accepted] at refused
    obtain ⟨passed, m', after, rest, rfl, judged, accepted', yields'⟩ := ih refused
    refine ⟨m :: passed, m', after, first.andThen rest, rfl, .goesOn yields accepted judged, ?_,
      by simpa using yields'⟩
    rw [Findings.andThen, accepted]
    exact accepted'

/-! ## Refused programs -/

/-- The first offence is one alone. -/
theorem FirstOffence.unique {ms : List Mention} {e e' : ResolutionError} (first : FirstOffence ms e)
    (first' : FirstOffence ms e') : e = e' := by
  obtain ⟨before, offence, earliest⟩ := first
  obtain ⟨before', offence', earliest'⟩ := first'
  have notLater : ¬ before'.length < before.length := fun less => earliest before' e' less offence'
  have notEarlier : ¬ before.length < before'.length := fun less => earliest' before e less offence
  obtain ⟨m, after, split, offends⟩ := offence
  obtain ⟨m', after', split', offends'⟩ := offence'
  obtain ⟨rfl, same⟩ := List.append_inj (split.symm.trans split') (by omega)
  cases same
  exact offends.unique offends'

/-- The error of a walk is that of the first mention against the rules. -/
theorem Program.firstOffence {p : Program} {e : ResolutionError}
    (refused : (Program.findings unlabelled p).refusal = some (.error e)) :
    FirstOffence p.mentions e := by
  obtain ⟨passed, m, after, rest, split, judged, accepted, yields⟩ := p.judged.refusal refused
  have offends : m.Offends passed e := by
    cases yields with
    | offence offends => exact offends
  refine ⟨passed, ⟨m, after, split, offends⟩, fun before' e' shorter offence => ?_⟩
  obtain ⟨m', after', split', offends'⟩ := offence
  obtain ⟨more, rfl⟩ : ∃ more, passed = before' ++ more := by
    have first : passed <+: p.mentions := ⟨m :: after, split.symm⟩
    have first' : before' <+: p.mentions := ⟨m' :: after', split'.symm⟩
    obtain ⟨more, same⟩ := List.prefix_of_prefix_length_le first' first (by omega)
    exact ⟨more, same.symm⟩
  rw [split, List.append_assoc] at split'
  have behind := List.append_cancel_left split'
  cases more with
  | nil => simp at shorter
  | cons first more =>
    cases behind
    exact judged.inOrder accepted rfl e' offends'

theorem Program.refused_iff {p : Program} {r : Refusal} :
    p.resolution.outcome = .error r ↔ (Program.findings unlabelled p).refusal = some r := by
  rw [Program.resolution_eq unlabelled p]
  cases (Program.findings unlabelled p).refusal <;> simp

/-- Of what the reader of programs returns, the walk refuses the programs that mention something
against the rules, with the error of the first such mention, and accepts the others. -/
theorem refused_iff_firstOffence {stream : Stream} (isStop : stream.stop.kind = .eof) {p : Program}
    {n m : Nat} (isProgram : stream.program n = (.ok p, m)) :
    ((∃ e, p.resolution.outcome = .error (.error e)) ↔
        ∃ before e, Offence p.mentions before e) ∧
      (∀ e, p.resolution.outcome = .error (.error e) ↔ FirstOffence p.mentions e) ∧
      (p.resolution.outcome = .ok () ∨ ∃ e, p.resolution.outcome = .error (.error e)) := by
  have proper := Program.resolution_proper (Stream.wellPlaced_program isStop isProgram)
  have first (e : ResolutionError) (refused : p.resolution.outcome = .error (.error e)) :
      FirstOffence p.mentions e := Program.firstOffence (Program.refused_iff.1 refused)
  have ends : p.resolution.outcome = .ok () ∨ ∃ e, p.resolution.outcome = .error (.error e) := by
    rcases outcome : p.resolution.outcome with (e | kind) | u
    · exact .inr ⟨e, rfl⟩
    · exact absurd outcome (proper kind)
    · exact .inl rfl
  -- An offence is not passed, so that the walk ends with the error of the first one.
  have refused {before : List Mention} {e : ResolutionError}
      (offence : Offence p.mentions before e) : ∃ e, p.resolution.outcome = .error (.error e) := by
    refine ends.resolve_left fun accepted => ?_
    obtain ⟨m, after, split, offends⟩ := offence
    exact p.judged.inOrder (Program.accepted_iff.1 accepted) split e offends
  refine ⟨⟨fun ⟨e, refused⟩ => ?_, fun ⟨before, e, offence⟩ => refused offence⟩,
    fun e => ⟨first e, fun isFirst => ?_⟩, ends⟩
  · obtain ⟨before, offence, _⟩ := first e refused
    exact ⟨before, e, offence⟩
  · have ⟨before, offence, _⟩ := isFirst
    obtain ⟨e', refused'⟩ := refused offence
    rw [isFirst.unique (first e' refused')]
    exact refused'

/-- A variable that is read in its own initializer, in a block. -/
theorem read_in_initializer_refused :
    let name : Token := ⟨.identifier, "x", .nil, 1⟩
    let tokens : List Token := [⟨.leftBrace, "\x7b", .nil, 1⟩, ⟨.varWord, "var", .nil, 1⟩, name,
      ⟨.equal, "=", .nil, 1⟩, name, ⟨.semicolon, ";", .nil, 1⟩, ⟨.rightBrace, "\x7d", .nil, 1⟩]
    let p : Program := [.block [.declaration name (some (.reference 1 name))]]
    Stream.program ⟨tokens, ⟨.eof, "", .nil, 1⟩⟩ 1 = (.ok p, 2) ∧
      p.resolution.outcome = .error (.error ⟨.ownInitializer "x", 1⟩) := by
  intro name tokens p
  have isProgram : Stream.program ⟨tokens, ⟨.eof, "", .nil, 1⟩⟩ 1 = (.ok p, 2) := rfl
  refine ⟨isProgram, ((refused_iff_firstOffence rfl isProgram).2.1 _).2 ?_⟩
  have offends : Mention.Offends [⟨.declaration name, [.block [0]]⟩]
      ⟨.use 1 .reference name, [] ++ .initializer name.lexeme false :: [.block [0]]⟩
      ⟨.ownInitializer name.lexeme, name.line⟩ :=
    .ownInitializer (List.cons_ne_nil _ _) nofun
  refine ⟨_, ⟨_, [], rfl, offends⟩, fun before e shorter offence => ?_⟩
  obtain ⟨m, after, split, offends⟩ := offence
  cases before with
  | nil =>
    cases split
    cases offends
  | cons first before => simp at shorter

/-! ## Uses among mentions -/

/-- The number, the form and the name of a use. -/
def Mention.use? (m : Mention) : Option (Nat × UseForm × Token) :=
  match m.what with
  | .use id form name => some (id, form, name)
  | _ => none

/-- The numbers of the uses among mentions. -/
def useIdsOf (ms : List Mention) : List Nat := (ms.filterMap Mention.use?).map Prod.fst

theorem useIdsOf_append (ms ms' : List Mention) :
    useIdsOf (ms ++ ms') = useIdsOf ms ++ useIdsOf ms' := by
  unfold useIdsOf
  rw [List.filterMap_append, List.map_append]

/-- What is no use has no number. -/
theorem useIdsOf_cons_other {m : Mention} (isOther : m.use? = none) (ms : List Mention) :
    useIdsOf (m :: ms) = useIdsOf ms := by
  unfold useIdsOf
  rw [List.filterMap_cons_none isOther]

theorem useIdsOf_declarations (names : List Token) (around : List Enclosure) :
    useIdsOf (names.map fun name => ⟨.declaration name, around⟩) = [] := by
  induction names with
  | nil => rfl
  | cons name rest ih =>
    rw [List.map_cons, useIdsOf_cons_other rfl, ih]

mutual

theorem Expr.useIdsOf_mentions (e : Expr) (place : Position) (around : List Enclosure) :
    useIdsOf (e.mentions place around) = e.useIds := by
  cases e with
  | literal | reference | misplaced => rfl
  | grouping _ inner | unary _ _ inner | step _ inner _ =>
    exact Expr.useIdsOf_mentions inner _ around
  | binary _ left _ right | logical _ left _ right =>
    rw [Expr.mentions, useIdsOf_append, Expr.useIdsOf_mentions left, Expr.useIdsOf_mentions right,
      Expr.useIds]
  | assignment id name value =>
    rw [Expr.mentions, useIdsOf_append, Expr.useIdsOf_mentions value]
    rfl
  | call _ callee arguments _ =>
    rw [Expr.mentions, useIdsOf_append, Expr.useIdsOf_mentions callee,
      Expr.useIdsOf_allMentions arguments, Expr.useIds]
  | lambda _ _ params body _ =>
    rw [Expr.mentions, useIdsOf_append, useIdsOf_declarations, Stmt.useIdsOf_allMentions body]
    rfl

theorem Expr.useIdsOf_allMentions (es : List Expr) (place : Position) (around : List Enclosure) :
    useIdsOf (Expr.allMentions place around es) = Expr.allUseIds es := by
  cases es with
  | nil => rfl
  | cons e rest =>
    rw [Expr.allMentions, useIdsOf_append, Expr.useIdsOf_mentions e, Expr.useIdsOf_allMentions rest,
      Expr.allUseIds]

theorem Expr.useIdsOf_optionMentions (e? : Option Expr) (place : Position)
    (around : List Enclosure) :
    useIdsOf (Expr.optionMentions place around e?) = Expr.optionUseIds e? := by
  cases e? with
  | none => rfl
  | some e => exact Expr.useIdsOf_mentions e place around

theorem Stmt.useIdsOf_mentions (s : Stmt) (place : Position) (around : List Enclosure) :
    useIdsOf (s.mentions place around) = s.useIds := by
  cases s with
  | expression e => exact Expr.useIdsOf_mentions e _ around
  | declaration name initializer =>
    cases initializer with
    | none => rfl
    | some e =>
      rw [Stmt.mentions, useIdsOf_cons_other rfl, Expr.useIdsOf_mentions e]
      rfl
  | block ss => exact Stmt.useIdsOf_allMentions ss _ _
  | ifElse condition thenBranch elseBranch =>
    rw [Stmt.mentions, useIdsOf_append, useIdsOf_append, Expr.useIdsOf_mentions condition,
      Stmt.useIdsOf_mentions thenBranch, Stmt.useIdsOf_optionMentions elseBranch, Stmt.useIds]
  | whileLoop condition body increment =>
    rw [Stmt.mentions, useIdsOf_append, useIdsOf_append, Expr.useIdsOf_mentions condition,
      Stmt.useIdsOf_mentions body, Expr.useIdsOf_optionMentions increment, Stmt.useIds]
  | breakLoop | continueLoop | misplaced => rfl
  | returnValue keyword value =>
    rw [Stmt.mentions, useIdsOf_cons_other rfl, Expr.useIdsOf_optionMentions value, Stmt.useIds]

theorem Stmt.useIdsOf_allMentions (ss : List Stmt) (place : Position) (around : List Enclosure) :
    useIdsOf (Stmt.allMentions place around ss) = Stmt.allUseIds ss := by
  cases ss with
  | nil => rfl
  | cons s rest =>
    rw [Stmt.allMentions, useIdsOf_append, Stmt.useIdsOf_mentions s, Stmt.useIdsOf_allMentions rest,
      Stmt.allUseIds]

theorem Stmt.useIdsOf_optionMentions (s? : Option Stmt) (place : Position)
    (around : List Enclosure) :
    useIdsOf (Stmt.optionMentions place around s?) = Stmt.optionUseIds s? := by
  cases s? with
  | none => rfl
  | some s => exact Stmt.useIdsOf_mentions s place around

end

theorem Program.useIdsOf_mentions (p : Program) : useIdsOf p.mentions = p.useIds :=
  Stmt.useIdsOf_allMentions p [] []

/-! ## Uses that are noted -/

/-- What is noted is found of a mention. -/
theorem Judged.of_noted {before ms : List Mention} {found : Findings Unit}
    (judged : Judged before ms found) {note : Note Unit} (noted : note ∈ found.notes) :
    ∃ passed around after,
      ms = passed ++ ⟨.use note.use.id note.use.form note.use.name, around⟩ :: after ∧
        Nearest (before ++ passed) around note.use.name.lexeme note.use.distance := by
  induction judged with
  | nil => cases noted
  | refused => cases noted
  | @goesOn before ms m first rest yields accepted others ih =>
    rw [Findings.andThen, accepted] at noted
    rcases List.mem_append.1 noted with here | later
    · cases yields with
      | offence | misplaced | free | declaration | jump | returning => cases here
      | @bound id form name around distance _ nearest =>
        rw [List.mem_singleton.1 here]
        exact ⟨[], around, ms, rfl, by rwa [List.append_nil]⟩
    · obtain ⟨passed, around, after, rfl, nearest⟩ := ih later
      exact ⟨m :: passed, around, after, rfl, by simpa using nearest⟩

/-- What is noted is noted in the order of the mentions. -/
theorem Judged.sublist {before ms : List Mention} {found : Findings Unit}
    (judged : Judged before ms found) :
    (found.notes.map fun note => (note.use.id, note.use.form, note.use.name)).Sublist
      (ms.filterMap Mention.use?) := by
  induction judged with
  | nil => exact .slnil
  | refused => exact List.nil_sublist _
  | @goesOn before ms m first rest yields accepted others ih =>
    rw [Findings.andThen, accepted, List.map_append]
    have own : (first.notes.map fun note => (note.use.id, note.use.form, note.use.name)).Sublist
        ([m].filterMap Mention.use?) := by
      cases yields with
      | offence | misplaced | free | declaration | jump | returning => exact List.nil_sublist _
      | bound => exact List.Sublist.refl _
    exact (own.append ih).trans (by rw [← List.filterMap_append]; exact List.Sublist.refl _)

theorem Nearest.unique {before : List Mention} {around : List Enclosure} {name : String}
    {d d' : Nat} (nearest : Nearest before around name d)
    (nearest' : Nearest before around name d') : d = d' := by
  obtain ⟨nearer, scope, farther, split, rfl, declared, notNearer⟩ := nearest
  obtain ⟨nearer', scope', farther', split', rfl, declared', notNearer'⟩ := nearest'
  rw [(first_unique (split.symm.trans split') notNearer declared notNearer' declared').1]

theorem mem_useIdsOf {ms : List Mention} {id : Nat} :
    id ∈ useIdsOf ms ↔ ∃ m ∈ ms, ∃ form name, m.use? = some (id, form, name) := by
  constructor
  · intro member
    obtain ⟨⟨_, form, name⟩, isAmong, rfl⟩ := List.mem_map.1 member
    obtain ⟨m, mentioned, isUse⟩ := List.mem_filterMap.1 isAmong
    exact ⟨m, mentioned, form, name, isUse⟩
  · rintro ⟨m, member, form, name, isUse⟩
    exact List.mem_map.2 ⟨_, List.mem_filterMap.2 ⟨m, member, isUse⟩, rfl⟩

/-- A use is mentioned once, if all uses have numbers of their own. -/
theorem mention_unique {ms passed passed' after after' : List Mention} {id : Nat}
    {form form' : UseForm} {name name' : Token} {around around' : List Enclosure}
    (nodup : (useIdsOf ms).Nodup) (split : ms = passed ++ ⟨.use id form name, around⟩ :: after)
    (split' : ms = passed' ++ ⟨.use id form' name', around'⟩ :: after') :
    passed = passed' ∧ Mention.mk (.use id form name) around = ⟨.use id form' name', around'⟩ := by
  have notBefore {passed after : List Mention} {form : UseForm} {name : Token}
      {around : List Enclosure} (split : ms = passed ++ ⟨.use id form name, around⟩ :: after) :
      ∀ m ∈ passed, ¬ ∃ form name, m.use? = some (id, form, name) := by
    intro m member isUse
    rw [split, useIdsOf_append] at nodup
    have own : id ∈ useIdsOf (⟨.use id form name, around⟩ :: after) :=
      mem_useIdsOf.2 ⟨_, List.mem_cons_self, form, name, rfl⟩
    exact (List.nodup_append.1 nodup).2.2 id (mem_useIdsOf.2 ⟨m, member, isUse⟩) id own rfl
  exact first_unique (split.symm.trans split') (notBefore split) ⟨form, name, rfl⟩
    (notBefore split') ⟨form', name', rfl⟩

/-! ## Accepted programs -/

section
variable {p : Program} {before after : List Mention} {id d : Nat} {form : UseForm} {name : Token}
  {around : List Enclosure} (nodup : p.useIds.Nodup)
  (split : p.mentions = before ++ ⟨.use id form name, around⟩ :: after)
include nodup split

/-- What is noted of a use is the distance of the first scope around it in which its name was
declared before. -/
theorem Program.nearest_of_use {u : Use} (noted : u ∈ p.resolution.uses) (isUse : u.id = id) :
    Nearest before around name.lexeme u.distance ∧ u.form = form ∧ u.name = name := by
  rw [Program.uses_eq] at noted
  obtain ⟨note, isNote, rfl⟩ := List.mem_map.1 noted
  obtain ⟨passed, around', after', split', nearest⟩ := p.judged.of_noted isNote
  rw [← p.useIdsOf_mentions] at nodup
  subst isUse
  obtain ⟨rfl, same⟩ := mention_unique nodup split split'
  cases same
  exact ⟨nearest, rfl, rfl⟩

variable (accepted : p.resolution.outcome = .ok ())
include accepted

/-- Of an accepted program a use is noted, unless its name was declared in no scope around it. -/
theorem Program.use_iff_nearest :
    ⟨id, form, name, d⟩ ∈ p.resolution.uses ↔ Nearest before around name.lexeme d := by
  refine ⟨fun noted => (Program.nearest_of_use nodup split noted rfl).1, fun nearest => ?_⟩
  obtain ⟨first, yields, goesOn, inside⟩ := p.judged.noted (Program.accepted_iff.1 accepted) split
  rw [Program.uses_eq, List.mem_map]
  cases yields with
  | offence => cases goesOn
  | bound _ nearest' =>
    rw [nearest.unique nearest']
    exact ⟨_, inside _ List.mem_cons_self, rfl⟩
  | free _ unbound => exact absurd nearest (unbound d)

theorem Program.distance_iff_nearest :
    p.distances[id]? = some d ↔ Nearest before around name.lexeme d := by
  constructor
  · intro found
    rcases Distances.of_insertUses found with ⟨u, noted, isUse, rfl⟩ | isEmpty
    · exact (Program.nearest_of_use nodup split noted isUse).1
    · simp at isEmpty
  · intro nearest
    have noted := (Program.use_iff_nearest nodup split accepted).2 nearest
    rw [Program.uses_eq] at noted
    obtain ⟨note, isNote, isUse⟩ := List.mem_map.1 noted
    have entry := (Program.walked accepted nodup).noted note isNote
    rwa [isUse] at entry

end

/-- Of an accepted program that the reader returns all references and assignments are mentioned, in
the order of the walk. Each has the distance of the first scope around it in which its name was
declared before, as a parameter or otherwise, and it has none if there is no such scope; the
distances are noted in the same order. -/
theorem distances_iff_nearest {stream : Stream} (isStop : stream.stop.kind = .eof) {p : Program}
    {n m : Nat} (isProgram : stream.program n = (.ok p, m))
    (accepted : p.resolution.outcome = .ok ()) :
    useIdsOf p.mentions = usesAmong p.nodes ∧
      (∀ before after id form name around,
        p.mentions = before ++ ⟨.use id form name, around⟩ :: after →
        (∀ d, p.distances[id]? = some d ↔ Nearest before around name.lexeme d) ∧
        (p.distances[id]? = none ↔ ∀ d, ¬ Nearest before around name.lexeme d) ∧
        ∀ d, ⟨id, form, name, d⟩ ∈ p.resolution.uses ↔ Nearest before around name.lexeme d) ∧
      (p.resolution.uses.map fun u => (u.id, u.form, u.name)).Sublist
        (p.mentions.filterMap Mention.use?) := by
  have nodup := (Grammar.apart_of_program isStop isProgram).1.nodup
  refine ⟨p.useIdsOf_mentions.trans p.usesAmong_nodes.symm, ?_, ?_⟩
  · intro before after id form name around split
    have distances (d : Nat) := Program.distance_iff_nearest (d := d) nodup split accepted
    refine ⟨distances, ?_, fun d => Program.use_iff_nearest nodup split accepted⟩
    simp only [← distances, Option.eq_none_iff_forall_ne_some, ne_eq]
  · rw [Program.uses_eq, List.map_map]
    exact p.judged.sublist

/-- A variable of a block that is read in another block inside of it. -/
theorem read_in_inner_block :
    let name : Token := ⟨.identifier, "x", .nil, 1⟩
    let opening : Token := ⟨.leftBrace, "\x7b", .nil, 1⟩
    let closing : Token := ⟨.rightBrace, "\x7d", .nil, 1⟩
    let semicolon : Token := ⟨.semicolon, ";", .nil, 1⟩
    let tokens : List Token := [opening, ⟨.varWord, "var", .nil, 1⟩, name, semicolon, opening, name,
      semicolon, closing, closing]
    let p : Program := [.block [.declaration name none, .block [.expression (.reference 1 name)]]]
    Stream.program ⟨tokens, ⟨.eof, "", .nil, 1⟩⟩ 1 = (.ok p, 2) ∧
      p.resolution.outcome = .ok () ∧ p.distances[1]? = some 1 := by
  intro name opening closing semicolon tokens p
  have isProgram : Stream.program ⟨tokens, ⟨.eof, "", .nil, 1⟩⟩ 1 = (.ok p, 2) := rfl
  have accepted : p.resolution.outcome = .ok () := by
    have isOk : p.resolution.outcome.isOk = true := by decide +kernel
    revert isOk
    cases p.resolution.outcome with
    | error r => exact nofun
    | ok u => exact fun _ => rfl
  refine ⟨isProgram, accepted, ?_⟩
  have split : p.mentions = [⟨.declaration name, [.block [0]]⟩] ++
      ⟨.use 1 .reference name, [.block [0, 1, 0, 0], .block [0]]⟩ :: [] := rfl
  have nearest := ((distances_iff_nearest rfl isProgram accepted).2.1 _ _ _ _ _ _ split).1 1
  refine nearest.2 ⟨[[0, 1, 0, 0]], [0], [], rfl, rfl, ?_, ?_⟩
  · exact ⟨_, List.mem_cons_self, name, rfl, rfl, rfl⟩
  · rintro other member ⟨m, isBefore, token, _, _, isScope⟩
    rw [List.mem_singleton.1 member, List.mem_singleton.1 isBefore] at isScope
    cases isScope

end Lox
