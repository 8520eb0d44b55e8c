import Lox.Scope.Distance

/-!
# Tables of names and of distances

A table holds what belongs to names, or the distances of uses by their numbers. Different names and
uses of different numbers do not disturb each other.
-/

namespace Lox

theorem getElem?_insert_string {α : Type} (b : Std.TreeMap String α) (name name' : String)
    (a : α) : (b.insert name a)[name']? = if name = name' then some a else b[name']? := by
  rw [Std.TreeMap.getElem?_insert]
  simp only [Std.LawfulEqCmp.compare_eq_iff_eq]

namespace Distances

theorem insertUses_append (T : Distances) (us us' : List Use) :
    T.insertUses (us ++ us') = (T.insertUses us).insertUses us' :=
  List.foldl_append

theorem getElem?_insertUse (T : Distances) (u : Use) (id : Nat) :
    (T.insertUse u)[id]? = if u.id = id then some u.distance else T[id]? := by
  rw [insertUse, Std.TreeMap.getElem?_insert]
  simp only [Std.LawfulEqCmp.compare_eq_iff_eq]

/-- Uses with other numbers leave the distance of a number as it is. -/
theorem insertUses_of_ne {T : Distances} {us : List Use} {id : Nat}
    (others : ∀ u ∈ us, u.id ≠ id) : (T.insertUses us)[id]? = T[id]? := by
  induction us generalizing T with
  | nil => rfl
  | cons u rest ih =>
    obtain ⟨other, others⟩ := List.forall_mem_cons.1 others
    refine (ih others).trans ?_
    rw [getElem?_insertUse]
    simp only [other, if_false]

/-- The same uses leave a number with the distance that it has in both of two tables. -/
theorem insertUses_agree {T T' : Distances} {id : Nat} (agree : T'[id]? = T[id]?)
    (us : List Use) : (T'.insertUses us)[id]? = (T.insertUses us)[id]? := by
  induction us generalizing T T' with
  | nil => exact agree
  | cons u rest ih =>
    refine ih ?_
    rw [getElem?_insertUse, getElem?_insertUse, agree]

/-- What is in a table stays there in one way or another. -/
theorem exists_insertUses {T : Distances} {id distance : Nat} (found : T[id]? = some distance)
    (us : List Use) : ∃ distance', (T.insertUses us)[id]? = some distance' := by
  induction us generalizing T distance with
  | nil => exact ⟨distance, found⟩
  | cons u rest ih =>
    by_cases here : u.id = id
    · exact ih (by rw [getElem?_insertUse, if_pos here])
    · exact ih (by rw [getElem?_insertUse, if_neg here, found])

/-- A distance is that of a use, or was there before. -/
theorem of_insertUses {T : Distances} {us : List Use} {id distance : Nat}
    (found : (T.insertUses us)[id]? = some distance) :
    (∃ u ∈ us, u.id = id ∧ u.distance = distance) ∨ T[id]? = some distance := by
  induction us generalizing T with
  | nil => exact .inr found
  | cons u rest ih =>
    rcases ih found with ⟨u', member, same⟩ | before
    · exact .inl ⟨u', List.mem_cons_of_mem _ member, same⟩
    · rw [getElem?_insertUse] at before
      by_cases here : u.id = id
      · simp only [here, if_true, Option.some.injEq] at before
        exact .inl ⟨u, List.mem_cons_self, here, before⟩
      · simp only [here, if_false] at before
        exact .inr before

/-- Of uses with different numbers each has its distance in the table. -/
theorem insertUses_of_mem {T : Distances} {us : List Use} (nodup : (us.map (·.id)).Nodup)
    {u : Use} (member : u ∈ us) : (T.insertUses us)[u.id]? = some u.distance := by
  induction us generalizing T with
  | nil => cases member
  | cons u' rest ih =>
    obtain ⟨notLater, nodup⟩ := List.nodup_cons.1 nodup
    rcases List.mem_cons.1 member with rfl | later
    · have others : ∀ u' ∈ rest, u'.id ≠ u.id := fun u' member same =>
        notLater (List.mem_map.2 ⟨u', member, same⟩)
      refine (insertUses_of_ne others).trans ?_
      rw [getElem?_insertUse]
      simp only [if_true]
    · exact ih nodup later

/-- Of uses with different numbers, the table has the distance of each and no others. -/
theorem insertUses_iff {us : List Use} (nodup : (us.map (·.id)).Nodup) {id distance : Nat} :
    ((∅ : Distances).insertUses us)[id]? = some distance ↔
      ∃ u ∈ us, u.id = id ∧ u.distance = distance := by
  constructor
  · intro found
    rcases of_insertUses found with use | before
    · exact use
    · rw [Std.TreeMap.getElem?_emptyc] at before
      cases before
  · rintro ⟨u, member, rfl, rfl⟩
    exact insertUses_of_mem nodup member

/-- Uses with the distances that they have in a table leave the table as it is. -/
theorem insertUses_of_noted {T : Distances} {us : List Use}
    (noted : ∀ u ∈ us, T[u.id]? = some u.distance) (id : Nat) :
    (T.insertUses us)[id]? = T[id]? := by
  induction us generalizing T with
  | nil => rfl
  | cons u rest ih =>
    obtain ⟨first, others⟩ := List.forall_mem_cons.1 noted
    have same (id : Nat) : (T.insertUse u)[id]? = T[id]? := by
      rw [getElem?_insertUse]
      by_cases here : u.id = id
      · rw [if_pos here, ← here, first]
      · rw [if_neg here]
    refine (ih fun u' member => ?_).trans (same id)
    rw [same, others u' member]

end Distances

/-- The distances that a resolution notes of a program. -/
def Program.distances (p : Program) : Distances := Distances.insertUses ∅ p.resolution.uses

/-- What is told of a use besides its name. -/
def Use.outline (u : Use) : Nat × UseForm × Nat := (u.id, u.form, u.distance)

/-- The names of uses make no difference to a table. -/
theorem Distances.insertUses_congr {T : Distances} {us us' : List Use}
    (same : us'.map Use.outline = us.map Use.outline) : T.insertUses us' = T.insertUses us := by
  have byOutline (us : List Use) (T : Distances) : T.insertUses us =
      (us.map Use.outline).foldl (fun T o => T.insert o.1 o.2.2) T := by
    rw [List.foldl_map]
    rfl
  rw [byOutline us', byOutline us, same]

end Lox
