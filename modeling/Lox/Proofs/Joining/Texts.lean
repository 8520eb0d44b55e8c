import Lox.Proofs.Trees.Relabel
import Lox.Token.Scan

/-!
# Texts under one another

A newline ends every piece of a text but an open string. So the pieces of two texts with a newline
between them are those of the one and those of the other, and the tokens of the second text go down
by the lines above them.
-/

namespace Lox

open Lox.Text (isDigit newlines)

/-! ## A newline ends a piece -/

theorem takeWhile_append_newline {p : Char → Bool} (ends : p '\n' = false) (xs ys : List Char) :
    (xs ++ '\n' :: ys).takeWhile p = xs.takeWhile p := by
  induction xs with
  | nil => simp [ends]
  | cons x xs ih =>
    rw [List.cons_append, List.takeWhile_cons, List.takeWhile_cons]
    rw [ih]

theorem dropWhile_append_newline {p : Char → Bool} (ends : p '\n' = false) (xs ys : List Char) :
    (xs ++ '\n' :: ys).dropWhile p = xs.dropWhile p ++ '\n' :: ys := by
  induction xs with
  | nil => simp [ends]
  | cons x xs ih =>
    rw [List.cons_append, List.dropWhile_cons, List.dropWhile_cons]
    by_cases passes : p x = true
    · simp only [passes, if_true]
      exact ih
    · simp only [passes]
      rfl

theorem wordPiece_append_newline (c : Char) (rest more : List Char) :
    wordPiece c (rest ++ '\n' :: more) = wordPiece c rest := by
  have ends : continuesWord '\n' = false := by decide +kernel
  simp only [wordPiece, takeWhile_append_newline ends]

theorem fraction_append_newline (rest more : List Char) :
    fraction (rest ++ '\n' :: more) = fraction rest := by
  have ends : isDigit '\n' = false := by decide +kernel
  cases rest with
  | nil => rfl
  | cons c rest =>
    by_cases isPoint : c = '.'
    · subst isPoint
      exact takeWhile_append_newline ends rest more
    · rw [List.cons_append]
      unfold fraction
      split
      · next isCons => exact absurd (List.cons.inj isCons).1 isPoint
      · split
        · next isCons => exact absurd (List.cons.inj isCons).1 isPoint
        · rfl

theorem numberPiece_append_newline (c : Char) (rest more : List Char) :
    numberPiece c (rest ++ '\n' :: more) = numberPiece c rest := by
  have ends : isDigit '\n' = false := by decide +kernel
  simp only [numberPiece, takeWhile_append_newline ends, dropWhile_append_newline ends,
    fraction_append_newline]

theorem slashPiece_append_newline (rest more : List Char) :
    slashPiece (rest ++ '\n' :: more) = slashPiece rest := by
  cases rest with
  | nil => rfl
  | cons c rest =>
    by_cases isSlash : c = '/'
    · subst isSlash
      have text := takeWhile_append_newline (p := (· != '\n')) rfl ('/' :: rest) more
      rw [List.cons_append] at text ⊢
      rw [slashPiece, slashPiece, text]
    · rw [List.cons_append]
      unfold slashPiece
      split
      · next isCons => exact absurd (List.cons.inj isCons).1 isSlash
      · split
        · next isCons => exact absurd (List.cons.inj isCons).1 isSlash
        · rfl

/-- A string that is closed is closed whatever follows it. -/
theorem stringPiece_append {rest : List Char} (closed : (stringPiece rest).shape ≠ .openString)
    (more : List Char) : stringPiece (rest ++ more) = stringPiece rest := by
  unfold stringPiece at closed ⊢
  cases found : rest.dropWhile (· != '"') with
  | nil =>
    rw [found] at closed
    exact absurd rfl closed
  | cons quote tail =>
    have split := List.takeWhile_append_dropWhile (p := (· != '"')) (l := rest)
    have shorter : (rest.takeWhile (· != '"')).length ≠ rest.length := by
      intro same
      have lengths := congrArg List.length split
      rw [found, List.length_append, List.length_cons] at lengths
      omega
    simp only [List.dropWhile_append, List.takeWhile_append, found, shorter, if_false,
      List.isEmpty_cons, Bool.false_eq_true, List.cons_append]

/-- The first piece of a text is the same if a newline and more text follow, unless it is an open
string. -/
theorem firstPiece_append_newline {c : Char} {rest : List Char}
    (closed : (firstPiece c rest).shape ≠ .openString) (more : List Char) :
    firstPiece c (rest ++ '\n' :: more) = firstPiece c rest := by
  unfold firstPiece at closed ⊢
  cases isSingle : single? c with
  | some kind => rfl
  | none =>
    cases isExtensible : extensible? c with
    | some e =>
      have next : e.next ≠ '\n' := by
        unfold extensible? at isExtensible
        split at isExtensible <;> cases isExtensible <;> decide
      cases rest with
      | nil => simp [Ne.symm next]
      | cons d rest => rfl
    | none =>
      simp only [isSingle, isExtensible] at closed
      simp only [slashPiece_append_newline, numberPiece_append_newline, wordPiece_append_newline]
      -- Only a string goes on past a newline, and it has been closed before.
      by_cases isQuote : c = '"'
      · subst isQuote
        have isString : (stringPiece rest).shape ≠ .openString := closed
        have same := stringPiece_append isString ('\n' :: more)
        simp only [same]
      · simp only [isQuote, if_false]

/-! ## Pieces of two texts -/

/-- A newline between two texts. -/
def Piece.newline : Piece := ⟨.blank, ['\n']⟩

theorem pieces_newline (more : List Char) : pieces ('\n' :: more) = .newline :: pieces more := by
  have first : firstPiece '\n' more = .newline := by
    have isBlank : isBlank '\n' = true := rfl
    simp [firstPiece, single?, extensible?, isBlank, Piece.newline]
  rw [pieces, first]
  rfl

/-- The pieces of two texts with a newline between them are those of the one and of the other. -/
theorem pieces_append_newline {text : List Char}
    (closed : ∀ p ∈ pieces text, p.shape ≠ .openString) (more : List Char) :
    pieces (text ++ '\n' :: more) = pieces text ++ .newline :: pieces more := by
  induction text using pieces.induct with
  | case1 =>
    rw [List.nil_append, pieces_newline, pieces]
    rfl
  | case2 c rest piece ih =>
    rw [pieces] at closed
    obtain ⟨first, others⟩ := List.forall_mem_cons.1 closed
    have inside : piece.text.length ≤ (c :: rest).length := (firstPiece_isPrefix c rest).length_le
    have onward : (c :: rest ++ '\n' :: more).drop piece.text.length =
        (c :: rest).drop piece.text.length ++ '\n' :: more := List.drop_append_of_le_length inside
    rw [List.cons_append, pieces, pieces, firstPiece_append_newline first, List.cons_append]
    rw [← List.cons_append, onward, ih others]

/-! ## Tokens of two texts -/

/-- A piece that is no defect. -/
def Piece.Fine (p : Piece) : Prop := ∀ line, p.defect? line = none

theorem Piece.Fine.closed {p : Piece} (fine : p.Fine) : p.shape ≠ .openString := by
  intro isOpen
  have defect := fine 0
  rw [Piece.defect?, isOpen] at defect
  cases defect

theorem defectsOf_eq_nil_iff (line : Nat) (ps : List Piece) :
    defectsOf line ps = [] ↔ ∀ p ∈ ps, p.Fine := by
  induction ps generalizing line with
  | nil => simp [defectsOf]
  | cons p rest ih =>
    have here : p.defect? line = none ↔ p.Fine := by
      constructor
      · intro missing line'
        unfold Piece.defect? at missing ⊢
        split at missing <;> simp_all
      · intro fine
        exact fine line
    rw [defectsOf, List.append_eq_nil_iff, ih, List.forall_mem_cons, ← here]
    cases p.defect? line <;> simp

/-- Tokens of pieces that start further down stand as much further down. -/
theorem tokensOf_add (line d : Nat) (ps : List Piece) :
    tokensOf (line + d) ps = (tokensOf line ps).map (·.relabel (· + d)) := by
  induction ps generalizing line with
  | nil => rfl
  | cons p rest ih =>
    have ends : p.lineAfter (line + d) = p.lineAfter line + d := by
      simp only [Piece.lineAfter_eq]
      omega
    have token : (p.token? (line + d)).toList = (p.token? line).toList.map (·.relabel (· + d)) := by
      unfold Piece.token?
      split
      · rw [ends]
        simp [Token.relabel]
      · rfl
    rw [tokensOf, tokensOf, ends, ih, token, List.map_append]

theorem tokenize_eq_ok_iff {text : List Char} {stream : Stream} :
    tokenize text = .ok stream ↔
      (∀ p ∈ pieces text, p.Fine) ∧ stream = ⟨tokensOf 1 (pieces text), endMark (lineAfterAll 1 (pieces text))⟩ := by
  have fine := defectsOf_eq_nil_iff 1 (pieces text)
  rw [← fine, tokenize, scan]
  dsimp only
  by_cases none : defectsOf 1 (pieces text) = []
  · simp only [none, List.isEmpty_nil, if_true, Except.ok.injEq, true_and]
    exact eq_comm
  · simp [none]

/-- The tokens of two texts with a newline between them are those of the one, and those of the other
further down. -/
theorem tokenize_append_newline {text more : List Char} {first second : Stream}
    (isFirst : tokenize text = .ok first) (isSecond : tokenize more = .ok second) :
    ∃ stop, tokenize (text ++ '\n' :: more) = .ok
      ⟨first.tokens ++ second.tokens.map (·.relabel (· + (1 + newlines text : Nat))), stop⟩ := by
  obtain ⟨fine, rfl⟩ := tokenize_eq_ok_iff.1 isFirst
  obtain ⟨fine', rfl⟩ := tokenize_eq_ok_iff.1 isSecond
  have together := pieces_append_newline (fun p member => (fine p member).closed) more
  refine ⟨endMark (lineAfterAll 1 (pieces (text ++ '\n' :: more))), tokenize_eq_ok_iff.2 ⟨?_, ?_⟩⟩
  · intro p member
    rw [together] at member
    rcases List.mem_append.1 member with inFirst | later
    · exact fine p inFirst
    · rcases List.mem_cons.1 later with rfl | inSecond
      · exact fun line => rfl
      · exact fine' p inSecond
  · have reached : lineAfterAll 1 (pieces text) + 1 = 1 + (1 + newlines text) := by
      rw [lineAfterAll_pieces]
      omega
    have below : tokensOf (lineAfterAll 1 (pieces text)) (.newline :: pieces more) =
        tokensOf (lineAfterAll 1 (pieces text) + 1) (pieces more) := rfl
    rw [together, tokensOf_append, below, reached, tokensOf_add]

/-- The tokens of a text go down by the newlines that are put before it. -/
theorem tokenize_newlines_append {text : List Char} {stream : Stream}
    (scanned : tokenize text = .ok stream) (d : Nat) :
    ∃ stop, tokenize (List.replicate d '\n' ++ text) =
      .ok ⟨stream.tokens.map (·.relabel (· + d)), stop⟩ := by
  induction d with
  | zero =>
    have same : stream.tokens.map (·.relabel (· + (0 : Nat))) = stream.tokens := by
      simp [Token.relabel]
    exact ⟨stream.stop, by rw [same]; exact scanned⟩
  | succ d ih =>
    obtain ⟨stop, lower⟩ := ih
    have nothing : tokenize [] = .ok ⟨[], endMark 1⟩ := by
      rw [tokenize_eq_ok_iff, pieces]
      exact ⟨fun _ member => absurd member List.not_mem_nil, rfl⟩
    obtain ⟨stop', further⟩ := tokenize_append_newline nothing lower
    refine ⟨stop', further.trans ?_⟩
    have sums (line : Int) : line + d + (1 + newlines [] : Nat) = line + (d + 1 : Nat) := by
      simp only [newlines, List.count_nil]
      omega
    simp only [List.nil_append, List.map_map, Function.comp_def, Token.relabel, sums]

/-! ## No token of a text marks its end -/

theorem ofWord_ne_eof (word : String) : Kind.ofWord word ≠ .eof := by
  intro isEof
  rw [Kind.ofWord] at isEof
  cases found : Kind.words.lookup word with
  | none => simp [found] at isEof
  | some kind =>
    obtain ⟨before, later, isWords, _⟩ := List.lookup_eq_some_iff.1 found
    have member : (word, kind) ∈ Kind.words := by
      rw [isWords]
      exact List.mem_append_right before List.mem_cons_self
    have kinds : ∀ entry ∈ Kind.words, entry.2 ≠ .eof := by decide
    rw [found, Option.getD_some] at isEof
    exact kinds _ member isEof

theorem slashPiece_ne_eof {rest : List Char} {kind : Kind} {literal : Literal}
    (isToken : (slashPiece rest).shape = .token kind literal) : kind ≠ .eof := by
  unfold slashPiece at isToken
  split at isToken <;> cases isToken
  decide

theorem stringPiece_ne_eof {rest : List Char} {kind : Kind} {literal : Literal}
    (isToken : (stringPiece rest).shape = .token kind literal) : kind ≠ .eof := by
  unfold stringPiece at isToken
  dsimp only at isToken
  split at isToken <;> cases isToken
  decide

theorem firstPiece_ne_eof {c : Char} {rest : List Char} {kind : Kind} {literal : Literal}
    (isToken : (firstPiece c rest).shape = .token kind literal) : kind ≠ .eof := by
  unfold firstPiece at isToken
  split at isToken
  · next single isSingle =>
    cases isToken
    unfold single? at isSingle
    split at isSingle <;> cases isSingle <;> decide
  · split at isToken
    · next e isExtensible =>
      unfold extensible? at isExtensible
      split at isExtensible <;> cases isExtensible <;> split at isToken <;> cases isToken <;> decide
    · split at isToken
      · exact slashPiece_ne_eof isToken
      · split at isToken
        · cases isToken
        · split at isToken
          · exact stringPiece_ne_eof isToken
          · split at isToken
            · cases isToken
              decide
            · split at isToken
              · cases isToken
                exact ofWord_ne_eof _
              · cases isToken

theorem pieces_ne_eof (text : List Char) {kind : Kind} {literal : Literal} :
    ∀ p ∈ pieces text, p.shape = .token kind literal → kind ≠ .eof := by
  induction text using pieces.induct with
  | case1 =>
    rw [pieces]
    intro p member
    cases member
  | case2 c rest piece ih =>
    rw [pieces, List.forall_mem_cons]
    exact ⟨firstPiece_ne_eof, ih⟩

theorem tokensOf_ne_eof {ps : List Piece}
    (noneEnds : ∀ p ∈ ps, ∀ kind literal, p.shape = .token kind literal → kind ≠ .eof) (line : Nat) :
    ∀ t ∈ tokensOf line ps, t.kind ≠ .eof := by
  induction ps generalizing line with
  | nil =>
    intro t member
    cases member
  | cons p rest ih =>
    obtain ⟨first, others⟩ := List.forall_mem_cons.1 noneEnds
    intro t member
    rcases List.mem_append.1 member with here | later
    · have isToken := Option.mem_toList.1 here
      unfold Piece.token? at isToken
      split at isToken
      · next kind literal isShape =>
        cases isToken
        exact first kind literal isShape
      · cases isToken
    · exact ih others _ t later

/-- Only the mark of the end of a text marks its end. -/
theorem tokenize_ne_eof {text : List Char} {stream : Stream} (scanned : tokenize text = .ok stream) :
    ∀ t ∈ stream.tokens, t.kind ≠ .eof := by
  obtain ⟨_, rfl⟩ := tokenize_eq_ok_iff.1 scanned
  exact tokensOf_ne_eof (fun p member _ _ => pieces_ne_eof text p member) 1

end Lox
