import Lox.CommandLine.Directory
import Mathlib.Data.List.Infix

/-!
# A file put into a directory

A file that is put where one can be written makes no folder and hides none, and all other files stay
as they were. So a name leads where it led before, unless the file is met on the way.
-/

namespace Lox.CommandLine.Directory

variable {d : Directory} {path : Path} {bytes : List UInt8}

/-! ## Files -/

theorem file?_insert (path : Path) (bytes : List UInt8) :
    (d.insert path bytes).file? path = some bytes := by
  simp [file?, insert]

theorem file?_insert_of_ne (bytes : List UInt8) {other : Path} (different : other ≠ path) :
    (d.insert path bytes).file? other = d.file? other := by
  have kept (files : List (Path × List UInt8)) :
      (files.filter (·.1 != path)).lookup other = files.lookup other := by
    induction files with
    | nil => rfl
    | cons entry rest ih =>
      obtain ⟨place, content⟩ := entry
      by_cases same : place = path
      · subst same
        have noMatch : (other == place) = false := beq_eq_false_iff_ne.2 different
        rw [List.filter_cons_of_neg (by simp), List.lookup_cons, noMatch]
        exact ih
      · rw [List.filter_cons_of_pos (by simpa using same), List.lookup_cons, List.lookup_cons, ih]
  have noMatch : (other == path) = false := beq_eq_false_iff_ne.2 different
  simp only [file?, insert, List.lookup_cons, noMatch, kept]

/-! ## Folders -/

theorem hasFolder_iff (d : Directory) (place : Path) :
    d.hasFolder place = true ↔ place = [] ∨ (∃ folder ∈ d.folders, place <+: folder) ∨
      ∃ file ∈ d.files, place <+: file.1 ∧ file.1 ≠ place := by
  simp [hasFolder, or_assoc]

/-- A folder is in folders only. -/
theorem hasFolder_of_isPrefix {inner outer : Path} (isFolder : d.hasFolder inner = true)
    (above : outer <+: inner) : d.hasFolder outer = true := by
  rw [hasFolder_iff] at isFolder ⊢
  obtain rfl | ⟨folder, member, inside⟩ | ⟨file, member, inside, different⟩ := isFolder
  · exact .inl (List.prefix_nil.1 above)
  · exact .inr (.inl ⟨folder, member, above.trans inside⟩)
  · refine .inr (.inr ⟨file, member, above.trans inside, ?_⟩)
    rintro rfl
    exact different (above.eq_of_length_le inside.length_le)

/-- A file can be written at the path: the places on the way to it are folders, and if no file is
there, no folder is. -/
structure Takes (d : Directory) (path : Path) : Prop where
  inner : ∀ place, place <+: path → place ≠ path → d.hasFolder place = true
  free : d.file? path = none → d.hasFolder path = false

/-- A file makes no folder and hides none. -/
theorem Takes.hasFolder_insert (takes : d.Takes path) (bytes : List UInt8) (place : Path) :
    (d.insert path bytes).hasFolder place = d.hasFolder place := by
  rw [Bool.eq_iff_iff]
  constructor
  · intro isFolder
    rw [hasFolder_iff] at isFolder
    obtain atTop | inFolder | ⟨file, member, inside, different⟩ := isFolder
    · exact (hasFolder_iff d place).2 (.inl atTop)
    · exact (hasFolder_iff d place).2 (.inr (.inl inFolder))
    · rcases List.mem_cons.1 member with rfl | kept
      · exact takes.inner place inside (Ne.symm different)
      · exact (hasFolder_iff d place).2
          (.inr (.inr ⟨file, (List.mem_filter.1 kept).1, inside, different⟩))
  · intro isFolder
    rw [hasFolder_iff] at isFolder ⊢
    obtain atTop | inFolder | ⟨file, member, inside, different⟩ := isFolder
    · exact .inl atTop
    · exact .inr (.inl inFolder)
    · by_cases replaced : file.1 = path
      · exact .inr (.inr ⟨(path, bytes), List.mem_cons_self, replaced ▸ inside, replaced ▸ different⟩)
      · have kept : file ∈ d.files.filter (·.1 != path) :=
          List.mem_filter.2 ⟨member, by simpa using replaced⟩
        exact .inr (.inr ⟨file, List.mem_cons_of_mem _ kept, inside, different⟩)

/-! ## Following names -/

section
variable {name : String} (notEmpty : name = "" → False) (notHere : name = "." → False)
  (notUp : name = ".." → False)
include notEmpty notHere notUp

theorem follow_of_file {folder : Path} {content : List UInt8} {rest : List String}
    (found : d.file? (folder ++ [name]) = some content) :
    d.follow folder (name :: rest) =
      if rest.isEmpty then .ok (.file (folder ++ [name]) content) else .error .notFolder := by
  unfold follow
  split <;> simp_all

theorem follow_of_folder {folder : Path} {rest : List String}
    (missing : d.file? (folder ++ [name]) = none) (isFolder : d.hasFolder (folder ++ [name]) = true) :
    d.follow folder (name :: rest) = d.follow (folder ++ [name]) rest := by
  rw [follow.eq_def]
  split <;> simp_all

theorem follow_of_nothing {folder : Path} {rest : List String}
    (missing : d.file? (folder ++ [name]) = none) (isFree : ¬d.hasFolder (folder ++ [name]) = true) :
    d.follow folder (name :: rest) =
      if rest = [] ∨ rest = [""] then .ok (.vacant (folder ++ [name])) else .error .notFound := by
  rw [follow.eq_def]
  split <;> simp_all
  split <;> simp_all

end

/-- The path of a file, or of one that can be made. -/
def Place.target? : Place → Option Path
  | .file path _ => some path
  | .folder _ => none
  | .vacant path => some path

theorem inner_of_folder {folder : Path} (isFolder : d.hasFolder folder = true) (name : String)
    (place : Path) (above : place <+: folder ++ [name]) (different : place ≠ folder ++ [name]) :
    d.hasFolder place = true := by
  rcases List.prefix_concat_iff.1 above with same | inside
  · exact absurd same different
  · exact hasFolder_of_isPrefix isFolder inside

/-- From a folder, names lead to files in folders, and to places for them. -/
theorem takes_of_follow {folder : Path} {names : List String} {place : Place}
    (isFolder : d.hasFolder folder = true) (leads : d.follow folder names = .ok place)
    (isTarget : place.target? = some path) : d.Takes path := by
  fun_induction d.follow folder names with
  | case1 folder =>
    cases leads
    cases isTarget
  | case2 folder rest ih => exact ih isFolder leads
  | case3 folder rest ih => exact ih isFolder leads
  | case4 => cases leads
  | case5 folder rest _ ih =>
    exact ih (hasFolder_of_isPrefix isFolder (List.dropLast_prefix folder)) leads
  | case6 folder name rest _ _ _ inside bytes found =>
    cases leads
    obtain rfl := Option.some.inj isTarget
    refine ⟨inner_of_folder isFolder name, fun missing => ?_⟩
    cases found.symm.trans missing
  | case7 => cases leads
  | case8 folder name rest _ _ _ inside missing isInner ih => exact ih isInner leads
  | case9 folder name _ _ _ inside missing isFree | case10 folder name _ _ _ inside missing isFree =>
    cases leads
    obtain rfl := Option.some.inj isTarget
    exact ⟨inner_of_folder isFolder name, fun _ => Bool.eq_false_iff.2 isFree⟩
  | case11 => cases leads

/-- A file can be written where a name that can be opened for writing leads. -/
theorem takes_of_writable {text : String} (isWritable : d.writable text = .ok path) :
    d.Takes path := by
  have followed {place : Place} (leads : d.place text = .ok place)
      (isTarget : place.target? = some path) : d.Takes path := by
    unfold Directory.place at leads
    split at leads
    · cases leads
    · exact takes_of_follow rfl leads isTarget
  unfold writable at isWritable
  split at isWritable
  · next leads =>
    cases isWritable
    exact followed leads rfl
  · cases isWritable
  · next leads =>
    split at isWritable
    · cases isWritable
    · cases isWritable
      exact followed leads rfl
  · cases isWritable

/-- From a folder, names lead where they led before the file was put, if they did not lead to it and
did not pass by where it is now. -/
theorem follow_insert (takes : d.Takes path) {folder : Path} {names : List String}
    (other : ∀ content, d.follow folder names ≠ .ok (.file path content))
    (past : ∀ front, front <+: names → d.follow folder front ≠ .ok (.vacant path)) :
    (d.insert path bytes).follow folder names = d.follow folder names := by
  have onward {name : String} {front rest : List String} (isFront : front <+: rest) :
      name :: front <+: name :: rest := List.cons_prefix_cons.2 ⟨rfl, isFront⟩
  induction folder, names using follow.induct d with
  | case1 folder => rfl
  | case2 folder rest ih =>
    rw [follow, follow]
    exact ih other fun front isFront => past ("" :: front) (onward isFront)
  | case3 folder rest ih =>
    rw [follow, follow]
    exact ih other fun front isFront => past ("." :: front) (onward isFront)
  | case4 folder rest atTop => rw [follow, follow, if_pos atTop, if_pos atTop]
  | case5 folder rest inside ih =>
    rw [follow, if_neg inside] at other
    rw [follow, follow, if_neg inside, if_neg inside]
    refine ih other fun front isFront => ?_
    have passed := past (".." :: front) (onward isFront)
    rwa [follow, if_neg inside] at passed
  | case6 folder name rest notEmpty notHere notUp place content found isLast =>
    rw [follow_of_file notEmpty notHere notUp found, if_pos isLast] at other ⊢
    have different : place ≠ path := by
      rintro rfl
      exact other content rfl
    have found' := (file?_insert_of_ne bytes different).trans found
    rw [follow_of_file notEmpty notHere notUp found', if_pos isLast]
  | case7 folder name rest notEmpty notHere notUp place content found more =>
    -- A file stays a file, be it the one that is put.
    obtain ⟨content', found'⟩ : ∃ content', (d.insert path bytes).file? place = some content' := by
      by_cases same : place = path
      · exact ⟨bytes, same ▸ file?_insert place bytes⟩
      · exact ⟨content, (file?_insert_of_ne bytes same).trans found⟩
    rw [follow_of_file notEmpty notHere notUp found, follow_of_file notEmpty notHere notUp found',
      if_neg more, if_neg more]
  | case8 folder name rest notEmpty notHere notUp place missing isFolder ih =>
    have different : place ≠ path := by
      intro same
      rw [same] at missing isFolder
      rw [takes.free missing] at isFolder
      cases isFolder
    have missing' := (file?_insert_of_ne bytes different).trans missing
    have isFolder' := (takes.hasFolder_insert bytes place).trans isFolder
    rw [follow_of_folder notEmpty notHere notUp missing isFolder] at other ⊢
    rw [follow_of_folder notEmpty notHere notUp missing' isFolder']
    refine ih other fun front isFront => ?_
    have passed := past (name :: front) (onward isFront)
    rwa [follow_of_folder notEmpty notHere notUp missing isFolder] at passed
  | case9 folder name notEmpty notHere notUp place missing isFree
  | case10 folder name notEmpty notHere notUp place missing isFree
  | case11 folder name rest notEmpty notHere notUp place missing isFree _ _ =>
    have passed := past [name] (List.prefix_append [name] _)
    rw [follow_of_nothing notEmpty notHere notUp missing isFree, if_pos (.inl rfl)] at passed
    have different : place ≠ path := by
      rintro rfl
      exact passed rfl
    have missing' := (file?_insert_of_ne bytes different).trans missing
    have isFree' : ¬(d.insert path bytes).hasFolder place = true := by
      rwa [takes.hasFolder_insert]
    rw [follow_of_nothing notEmpty notHere notUp missing isFree,
      follow_of_nothing notEmpty notHere notUp missing' isFree']

/-! ## Reading and writing -/

/-- The name does not lead to the file, and names no place in it where there is no file yet. -/
structure Avoids (d : Directory) (text : String) (path : Path) : Prop where
  other : ∀ content, d.place text ≠ .ok (.file path content)
  past : text.startsWith "/" = false → ∀ front, front <+: names text →
    d.follow [] front ≠ .ok (.vacant path)

theorem Avoids.read_insert {text : String} (avoids : d.Avoids text path) (takes : d.Takes path) :
    (d.insert path bytes).read text = d.read text := by
  have same : (d.insert path bytes).place text = d.place text := by
    have other := avoids.other
    unfold place at other ⊢
    by_cases outside : (text.startsWith "/" || text.isEmpty) = true
    · rw [if_pos outside, if_pos outside]
    · rw [if_neg outside] at other ⊢
      rw [if_neg outside]
      have inside : text.startsWith "/" = false := by
        cases starts : text.startsWith "/" with
        | false => rfl
        | true => simp [starts] at outside
      exact follow_insert takes other (avoids.past inside)
  unfold read
  rw [same]

end Lox.CommandLine.Directory
