import Lox.Proofs.Grammar.Rules
import Lox.Tree.OfTokens

/-!
# What readers read

A reader that succeeds has taken tokens off the front of the stream, and what it returns stands in a
relation to them. The readers of single tokens and of lists come first.
-/

namespace Lox.Reading

variable {α β : Type} {stop : Token}

/-! ## Runs of combined readers -/

theorem bind_eq_ok {x : Reading α} {f : α → Reading β} {c c' : Cursor} {b : β} :
    (x >>= f) c = .ok b c' ↔ ∃ a middle, x c = .ok a middle ∧ f a middle = .ok b c' := by
  show EStateM.bind x f c = _ ↔ _
  unfold EStateM.bind
  cases x c with
  | ok a middle =>
    constructor
    · intro h; exact ⟨a, middle, rfl, h⟩
    · rintro ⟨_, _, same, h⟩; cases same; exact h
  | error e middle => simp

theorem bind_of_ok {x : Reading α} {f : α → Reading β} {c c' : Cursor} {a : α}
    (first : x c = .ok a c') : (x >>= f) c = f a c' := by
  show EStateM.bind x f c = _
  unfold EStateM.bind
  rw [first]

theorem pure_eq_ok {a b : α} {c c' : Cursor} :
    (pure a : Reading α) c = .ok b c' ↔ a = b ∧ c = c' :=
  ⟨fun h => by cases h; exact ⟨rfl, rfl⟩, fun ⟨same, place⟩ => by cases same; cases place; rfl⟩

theorem fail_ne_ok {cause : SyntaxError.Cause} {found : Token} {c c' : Cursor} {a : α} :
    (fail cause found : Reading α) c ≠ .ok a c' := by
  intro h; cases h

/-! ## Readers and the tokens they take -/

/-- What a reader returns is related to the tokens it takes, to the numbers of the next node before
and after it, and to the tokens it leaves. -/
def Reads (stop : Token) (P : List Token → α → Nat → Nat → List Token → Prop) (x : Reading α) :
    Prop :=
  ∀ ⦃ahead : List Token⦄ ⦃i : Nat⦄ ⦃a : α⦄ ⦃c' : Cursor⦄, x ⟨ahead, stop, i⟩ = .ok a c' →
    ∃ ts rest j, ahead = ts ++ rest ∧ c' = ⟨rest, stop, j⟩ ∧ P ts a i j rest

theorem peek_eq (stop : Token) (ts : List Token) (i : Nat) :
    peek ⟨ts, stop, i⟩ = .ok (ts.headD stop) ⟨ts, stop, i⟩ := rfl

theorem advance_eq (stop : Token) (ts : List Token) (i : Nat) :
    advance ⟨ts, stop, i⟩ = .ok (ts.headD stop) ⟨ts.tail, stop, i⟩ := rfl

theorem check_eq (kind : Kind) (stop : Token) (ts : List Token) (i : Nat) :
    check kind ⟨ts, stop, i⟩ = .ok (decide ((ts.headD stop).kind = kind)) ⟨ts, stop, i⟩ := rfl

theorem accept_eq (kind : Kind) (stop : Token) (ts : List Token) (i : Nat) :
    accept kind ⟨ts, stop, i⟩ =
      if (ts.headD stop).kind = kind then .ok true ⟨ts.tail, stop, i⟩
      else .ok false ⟨ts, stop, i⟩ := by
  unfold accept
  rw [bind_of_ok (check_eq kind stop ts i)]
  by_cases same : (ts.headD stop).kind = kind
  · simp only [same, decide_true, if_true]
    rfl
  · simp only [same, decide_false, if_false]
    rfl

theorem want_eq (wanted : Wanted) (stop : Token) (ts : List Token) (i : Nat) :
    want wanted ⟨ts, stop, i⟩ =
      if (ts.headD stop).kind = wanted.kind then .ok (ts.headD stop) ⟨ts.tail, stop, i⟩
      else .error ⟨.missing wanted, ts.headD stop, []⟩ ⟨ts, stop, i⟩ := by
  unfold want
  rw [bind_of_ok (peek_eq stop ts i)]
  split <;> rfl

theorem Wanted.kind_ne_eof (wanted : Wanted) : wanted.kind ≠ .eof := by
  cases wanted <;> decide

theorem headD_kind {kind : Kind} (isStop : stop.kind = .eof) (inside : kind ≠ .eof)
    {ts : List Token} (next : (ts.headD stop).kind = kind) :
    ∃ t rest, ts = t :: rest ∧ t.kind = kind := by
  cases ts with
  | nil => exact absurd (isStop.symm.trans next) (Ne.symm inside)
  | cons t rest => exact ⟨t, rest, rfl, next⟩

theorem want_reads (isStop : stop.kind = .eof) (wanted : Wanted) :
    Reads stop (fun ts t i j _ => ts = [t] ∧ t.kind = wanted.kind ∧ i = j) (want wanted) := by
  intro ahead i a c' h
  rw [want_eq] at h
  split at h
  · next next =>
    obtain ⟨t, rest, rfl, isKind⟩ := headD_kind isStop (Wanted.kind_ne_eof wanted) next
    cases h
    exact ⟨[t], rest, i, rfl, rfl, rfl, isKind, rfl⟩
  · cases h

theorem accept_reads (isStop : stop.kind = .eof) {kind : Kind} (inside : kind ≠ .eof) :
    Reads stop (fun ts found i j rest => i = j ∧
      if found then ∃ t, ts = [t] ∧ t.kind = kind
      else ts = [] ∧ (rest.headD stop).kind ≠ kind) (accept kind) := by
  intro ahead i a c' h
  rw [accept_eq] at h
  split at h
  · next next =>
    obtain ⟨t, rest, rfl, isKind⟩ := headD_kind isStop inside next
    cases h
    exact ⟨[t], rest, i, rfl, rfl, rfl, t, rfl, isKind⟩
  · next other =>
    cases h
    exact ⟨[], ahead, i, rfl, rfl, rfl, by simpa using other⟩

/-! ## Lists -/

/-- Items between commas are related to their tokens if each item is. -/
theorem commaSeparated_reads (isStop : stop.kind = .eof)
    {P : List Token → α → Nat → Nat → Prop} {Q : List Token → List α → Nat → Nat → Prop}
    (one : ∀ {ts a i j}, P ts a i j → Q ts [a] i j)
    (more : ∀ {ts a i j comma us as k}, P ts a i j → comma.kind = Kind.comma → Q us as j k →
      Q (ts ++ comma :: us) (a :: as) i k)
    {item : Reading α} (each : Reads stop (fun ts a i j _ => P ts a i j) item)
    (tooMany : SyntaxError.Cause) (count : Nat) :
    Reads stop (fun ts as i j _ => Q ts as i j ∧ as.length ≤ count)
      (commaSeparated tooMany item count) := by
  induction count with
  | zero =>
    intro ahead i as c' h
    cases h
  | succ count ih =>
    intro ahead i as c' h
    simp only [commaSeparated, bind_eq_ok] at h
    obtain ⟨a, _, first, found, _, comma, h⟩ := h
    obtain ⟨ts, rest, j, rfl, rfl, related⟩ := each first
    obtain ⟨us, rest, k, rfl, rfl, rfl, isComma⟩ := accept_reads isStop (by decide) comma
    cases found with
    | true =>
      obtain ⟨t, rfl, isComma⟩ := isComma
      simp only [if_true, bind_eq_ok, pure_eq_ok] at h
      obtain ⟨as, _, others, rfl, rfl⟩ := h
      obtain ⟨vs, rest, k, rfl, rfl, restRelated, few⟩ := ih others
      exact ⟨ts ++ t :: vs, rest, k, by simp, rfl, more related isComma restRelated, by simpa⟩
    | false =>
      obtain ⟨rfl, _⟩ := isComma
      obtain ⟨rfl, rfl⟩ := pure_eq_ok.1 h
      exact ⟨ts, rest, _, by simp, rfl, one related, by simp⟩

/-- A list is empty, or its items are related to the tokens before its end. -/
theorem listed_reads (isStop : stop.kind = .eof) {Q : List Token → List α → Nat → Nat → Prop}
    {item : Reading α} {tooMany : SyntaxError.Cause} (closing : Wanted)
    (each : Reads stop (fun ts as i j _ => Q ts as i j ∧ as.length ≤ maxArguments)
      (commaSeparated tooMany item maxArguments)) :
    Reads stop (fun ts found i j _ => ∃ us, ts = us ++ [found.2] ∧ found.2.kind = closing.kind ∧
      (us = [] ∧ found.1 = [] ∧ i = j ∨ Q us found.1 i j ∧ found.1.length ≤ maxArguments))
      (listed tooMany closing item) := by
  intro ahead i found c' h
  simp only [listed, bind_of_ok (check_eq _ _ _ _)] at h
  by_cases empty : (ahead.headD stop).kind = closing.kind
  · simp only [empty, decide_true, if_true, bind_eq_ok, pure_eq_ok] at h
    obtain ⟨as, _, ⟨rfl, rfl⟩, t, _, close, rfl, rfl⟩ := h
    obtain ⟨ts, rest, j, rfl, rfl, rfl, isKind, rfl⟩ := want_reads isStop closing close
    exact ⟨[t], rest, _, rfl, rfl, [], rfl, isKind, .inl ⟨rfl, rfl, rfl⟩⟩
  · simp only [empty, decide_false, Bool.false_eq_true, if_false, bind_eq_ok, pure_eq_ok] at h
    obtain ⟨as, _, items, t, _, close, rfl, rfl⟩ := h
    obtain ⟨ts, rest, j, rfl, rfl, related⟩ := each items
    obtain ⟨us, rest, j, rfl, rfl, rfl, isKind, rfl⟩ := want_reads isStop closing close
    exact ⟨ts ++ [t], rest, _, by simp, rfl, ts, rfl, isKind, .inr related⟩

end Lox.Reading
