import Lox.Proofs.Alike.Values

/-!
# Frames inside of frames

Every frame stands in at most one other frame, which is settled when it is made. The frames of an
environment follow these links outwards, up to a frame that stands in none.
-/

namespace Lox

/-- The frame that each frame stands in, if it stands in one. -/
abbrev Links := List (Option Ref)

namespace Links

/-- The frame so many links outwards from a frame. -/
def outward (links : Links) : Nat → Ref → Option Ref
  | 0, r => some r
  | distance + 1, r =>
    match links[r]? with
    | some (some around) => links.outward distance around
    | _ => none

/-- Each frame of a list stands in the next one, and the last one in none. -/
inductive Lead (links : Links) : List Ref → Prop
  | outermost {r : Ref} (link : links[r]? = some none) : Lead links [r]
  | inside {r around : Ref} {outer : List Ref} (link : links[r]? = some (some around))
    (onward : Lead links (around :: outer)) : Lead links (r :: around :: outer)

section
variable {links links' : Links}

namespace Lead

theorem mono {chain : List Ref} (lead : links.Lead chain) (further : links <+: links') :
    links'.Lead chain := by
  induction lead with
  | outermost link => exact .outermost (getElem?_further further link)
  | inside link _ ih => exact .inside (getElem?_further further link) ih

/-- The links lead to the frames of the list in order, and end where the list ends. -/
theorem getElem? {r : Ref} {outer : List Ref} (lead : links.Lead (r :: outer)) (distance : Nat) :
    (r :: outer)[distance]? = links.outward distance r := by
  induction distance generalizing r outer with
  | zero => rfl
  | succ distance ih =>
    rw [outward, List.getElem?_cons_succ]
    cases lead with
    | outermost link => rw [link]; rfl
    | inside link onward => rw [link]; exact ih onward

theorem lt_length {chain : List Ref} (lead : links.Lead chain) {r : Ref} (member : r ∈ chain) :
    r < links.length := by
  have linked {r : Ref} {link : Option Ref} (found : links[r]? = some link) : r < links.length :=
    (List.getElem?_eq_some_iff.1 found).1
  induction lead with
  | outermost link =>
    cases List.mem_singleton.1 member
    exact linked link
  | inside link _ ih =>
    rcases List.mem_cons.1 member with rfl | outer
    · exact linked link
    · exact ih outer

/-- A new frame inside of an environment. -/
theorem enter {env : Env} (lead : links.Lead env.chain) :
    Lead (links ++ [some env.frame]) (links.length :: env.chain) :=
  .inside List.getElem?_concat_length (lead.mono (List.prefix_append _ _))

end Lead

end

end Links

end Lox
