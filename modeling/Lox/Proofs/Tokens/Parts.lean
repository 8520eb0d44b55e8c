import Lox.Proofs.Joining.Texts

/-!
# The parts of a text

A scan accounts for every character of a text exactly once, as part of a token, of a comment or of
a defect, or as white space, and every part is as long as its kind allows. Main statements: a scan
gives a text such parts, with its tokens and defects among them in order, and a text has only one
list of such parts.
-/

namespace Lox

open Lox.Text (isDigit newlines)

/-! ## Parts -/

/-- A part of a text. -/
inductive Part
  | token (t : Token)
  | white (c : Char)
  | comment (body : List Char)
  /-- A character that starts nothing else. -/
  | stray (c : Char) (line : Int)
  /-- A string without its closing quote. -/
  | openString (body : List Char) (line : Int)

namespace Part

/-- The characters of a part. -/
def text : Part → List Char
  | token t => t.lexeme.toList
  | white c => [c]
  | comment body => '/' :: '/' :: body
  | stray c _ => [c]
  | openString body _ => '"' :: body

/-- The token that a part is. -/
def token? : Part → Option Token
  | token t => some t
  | _ => none

/-- The defect that a part is. -/
def defect? : Part → Option Defect
  | stray c line => some ⟨.strayCharacter c, line⟩
  | openString _ line => some ⟨.unterminatedString, line⟩
  | _ => none

end Part

/-! ## Parts that are as long as their kinds allow -/

/-- The lexemes of operators and of punctuation, with their kinds. -/
def Kind.symbols : List (List Char × Kind) := [
  (['('], .leftParen), ([')'], .rightParen), (['{'], .leftBrace), (['}'], .rightBrace),
  ([','], .comma), (['.'], .dot), ([';'], .semicolon), (['*'], .star), (['/'], .slash),
  (['!'], .bang), (['!', '='], .bangEqual), (['='], .equal), (['=', '='], .equalEqual),
  (['<'], .less), (['<', '='], .lessEqual), (['>'], .greater), (['>', '='], .greaterEqual),
  (['+'], .plus), (['+', '+'], .plusPlus), (['-'], .minus), (['-', '-'], .minusMinus)]

/-- The characters of a token of the given kind and literal, when nothing of the text after it
belongs to it. -/
inductive Token.Complete (after : List Char) : Kind → Literal → List Char → Prop
  | symbol {kind : Kind} {text : List Char} (listed : (text, kind) ∈ Kind.symbols)
      (longest : ∀ c ∈ after.head?, ∀ longer, (text ++ [c], longer) ∉ Kind.symbols)
      (noComment : text = ['/'] → after.head? ≠ some '/') :
      Complete after kind .nil text
  | word {c : Char} {rest : List Char} (starts : startsWord c)
      (inside : ∀ d ∈ rest, continuesWord d) (ends : ∀ d ∈ after.head?, continuesWord d = false) :
      Complete after (.ofWord (String.ofList (c :: rest))) .nil (c :: rest)
  | whole {digits : List Char} (nonempty : digits ≠ []) (inside : ∀ d ∈ digits, isDigit d)
      (ends : ∀ d ∈ after.head?, isDigit d = false)
      (noFraction : ∀ d more, after = '.' :: d :: more → isDigit d = false) :
      Complete after .number (.num (Number.numeral digits [])) digits
  | fraction {whole part : List Char} (nonempty : whole ≠ []) (inside : ∀ d ∈ whole, isDigit d)
      (nonempty' : part ≠ []) (inside' : ∀ d ∈ part, isDigit d)
      (ends : ∀ d ∈ after.head?, isDigit d = false) :
      Complete after .number (.num (Number.numeral whole part)) (whole ++ '.' :: part)
  | string {body : List Char} (inside : '"' ∉ body) :
      Complete after .string (.str (String.ofList body)) ('"' :: body ++ ['"'])

/-- A character that starts an operator or punctuation. -/
def startsSymbol (c : Char) : Bool := Kind.symbols.any (·.1.head? == some c)

/-- A character that starts no token, no comment and no string, and is not white space. -/
structure Unexpected (c : Char) : Prop where
  notBlank : isBlank c = false
  notQuote : c ≠ '"'
  notDigit : isDigit c = false
  notWord : startsWord c = false
  notSymbol : startsSymbol c = false

/-- A part between the given texts is as its kind has it. A token has the line of its end, a defect
that of its start. -/
def Part.Proper (before after : List Char) : Part → Prop
  | token t => Token.Complete after t.kind t.literal t.lexeme.toList ∧
      t.line = (1 + newlines (before ++ t.lexeme.toList) : Nat)
  | white c => c ∈ [' ', '\t', '\r', '\n']
  | comment body => '\n' ∉ body ∧ ∀ c ∈ after.head?, c = '\n'
  | stray c line => Unexpected c ∧ line = (1 + newlines before : Nat)
  | openString body line => '"' ∉ body ∧ after = [] ∧ line = (1 + newlines before : Nat)

/-- Parts that follow the given text and one another are proper. -/
def Part.AllProper (before : List Char) : List Part → Prop
  | [] => True
  | part :: rest =>
    part.Proper before (rest.flatMap text) ∧ AllProper (before ++ part.text) rest

/-! ## Operators and punctuation -/

theorem Kind.mem_symbols_iff {text : List Char} {kind : Kind} :
    (text, kind) ∈ symbols ↔
      (∃ c, text = [c] ∧ single? c = some kind) ∨
      (∃ c, text = [c] ∧ (extensible? c).map (·.alone) = some kind) ∨
      (∃ c d, text = [c, d] ∧
        (extensible? c).map (fun e => (e.next, e.extended)) = some (d, kind)) ∨
      text = ['/'] ∧ kind = .slash := by
  constructor
  · intro listed
    simp only [symbols, List.mem_cons, List.not_mem_nil, or_false, Prod.mk.injEq] at listed
    rcases listed with ⟨rfl, rfl⟩ | ⟨rfl, rfl⟩ | ⟨rfl, rfl⟩ | ⟨rfl, rfl⟩ | ⟨rfl, rfl⟩ | ⟨rfl, rfl⟩ |
      ⟨rfl, rfl⟩ | ⟨rfl, rfl⟩ | ⟨rfl, rfl⟩ | ⟨rfl, rfl⟩ | ⟨rfl, rfl⟩ | ⟨rfl, rfl⟩ | ⟨rfl, rfl⟩ |
      ⟨rfl, rfl⟩ | ⟨rfl, rfl⟩ | ⟨rfl, rfl⟩ | ⟨rfl, rfl⟩ | ⟨rfl, rfl⟩ | ⟨rfl, rfl⟩ | ⟨rfl, rfl⟩ |
      ⟨rfl, rfl⟩ <;>
    first
    | exact .inl ⟨_, rfl, rfl⟩
    | exact .inr (.inl ⟨_, rfl, rfl⟩)
    | exact .inr (.inr (.inl ⟨_, _, rfl, rfl⟩))
    | exact .inr (.inr (.inr ⟨rfl, rfl⟩))
  · rintro (⟨c, rfl, isSingle⟩ | ⟨c, rfl, alone⟩ | ⟨c, d, rfl, extended⟩ | ⟨rfl, rfl⟩)
    · unfold single? at isSingle
      split at isSingle <;> cases isSingle <;> decide
    · unfold extensible? at alone
      split at alone <;> cases alone <;> decide
    · unfold extensible? at extended
      split at extended <;> cases extended <;> decide
    · decide

/-- A symbol of two characters is the extension of its first. -/
theorem Kind.extensible?_of_mem_symbols {c d : Char} {kind : Kind}
    (listed : ([c, d], kind) ∈ symbols) :
    ∃ e, extensible? c = some e ∧ e.next = d ∧ e.extended = kind := by
  rcases Kind.mem_symbols_iff.1 listed with ⟨_, short, _⟩ | ⟨_, short, _⟩ | ⟨_, _, both, extended⟩ |
    ⟨short, _⟩
  · cases short
  · cases short
  · cases both
    obtain ⟨e, isExtensible, same⟩ := Option.map_eq_some_iff.1 extended
    exact ⟨e, isExtensible, congrArg Prod.fst same, congrArg Prod.snd same⟩
  · cases short

theorem extensible?_of_single? {c : Char} {kind : Kind} (isSingle : single? c = some kind) :
    extensible? c = none := by
  unfold single? at isSingle
  split at isSingle <;> cases isSingle <;> rfl

theorem single?_of_extensible? {c : Char} {e : Extensible} (isExtensible : extensible? c = some e) :
    single? c = none := by
  refine Option.eq_none_iff_forall_ne_some.2 fun kind isSingle => ?_
  rw [extensible?_of_single? isSingle] at isExtensible
  cases isExtensible

/-- No symbol has more than two characters. -/
theorem Kind.length_le_of_mem_symbols {text : List Char} {kind : Kind}
    (listed : (text, kind) ∈ symbols) : text.length ≤ 2 := by
  have lengths : ∀ symbol ∈ symbols, symbol.1.length ≤ 2 := by decide
  exact lengths _ listed

theorem startsSymbol_iff {c : Char} :
    startsSymbol c ↔ ∃ text kind, (c :: text, kind) ∈ Kind.symbols := by
  rw [startsSymbol, List.any_eq_true]
  constructor
  · rintro ⟨⟨text, kind⟩, listed, isHead⟩
    obtain ⟨rest, rfl⟩ := List.head?_eq_some_iff.1 (beq_iff_eq.1 isHead)
    exact ⟨rest, kind, listed⟩
  · rintro ⟨text, kind, listed⟩
    exact ⟨_, listed, beq_self_eq_true _⟩

theorem startsSymbol_eq_false_iff {c : Char} :
    startsSymbol c = false ↔ single? c = none ∧ extensible? c = none ∧ c ≠ '/' := by
  rw [← Bool.not_eq_true, startsSymbol_iff]
  constructor
  · intro notSymbol
    refine ⟨Option.eq_none_iff_forall_ne_some.2 ?_, Option.eq_none_iff_forall_ne_some.2 ?_, ?_⟩
    · intro kind isSingle
      exact notSymbol ⟨[], kind, Kind.mem_symbols_iff.2 (.inl ⟨c, rfl, isSingle⟩)⟩
    · intro e isExtensible
      have alone := congrArg (Option.map fun e => e.alone) isExtensible
      exact notSymbol ⟨[], e.alone, Kind.mem_symbols_iff.2 (.inr (.inl ⟨c, rfl, alone⟩))⟩
    · rintro rfl
      exact notSymbol ⟨[], .slash, by decide⟩
  · rintro ⟨notSingle, notExtensible, notSlash⟩ ⟨text, kind, listed⟩
    rcases Kind.mem_symbols_iff.1 listed with ⟨_, same, isSingle⟩ | ⟨_, same, alone⟩ |
      ⟨_, _, same, extended⟩ | ⟨same, _⟩
    · cases same
      rw [notSingle] at isSingle
      cases isSingle
    · cases same
      rw [notExtensible] at alone
      cases alone
    · cases same
      rw [notExtensible] at extended
      cases extended
    · cases same
      exact notSlash rfl

/-- The first piece of a text that starts with no symbol. -/
theorem firstPiece_of_notSymbol {c : Char} (notSymbol : startsSymbol c = false)
    (rest : List Char) :
    firstPiece c rest =
      if isBlank c then ⟨.blank, [c]⟩
      else if c = '"' then stringPiece rest
      else if isDigit c then numberPiece c rest
      else if startsWord c then wordPiece c rest
      else ⟨.stray c, [c]⟩ := by
  obtain ⟨notSingle, notExtensible, notSlash⟩ := startsSymbol_eq_false_iff.1 notSymbol
  simp only [firstPiece, notSingle, notExtensible, notSlash, if_false]

/-! ## Runs of characters of one class -/

theorem takeWhile_eq_of_ends {p : Char → Bool} {inner after : List Char} (inside : ∀ d ∈ inner, p d)
    (ends : ∀ d ∈ after.head?, p d = false) : (inner ++ after).takeWhile p = inner := by
  have nothing : after.takeWhile p = [] := by
    cases after with
    | nil => rfl
    | cons d more => simp [ends d rfl]
  rw [List.takeWhile_append_of_pos inside, nothing, List.append_nil]

theorem dropWhile_eq_of_ends {p : Char → Bool} {inner after : List Char} (inside : ∀ d ∈ inner, p d)
    (ends : ∀ d ∈ after.head?, p d = false) : (inner ++ after).dropWhile p = after := by
  have nothing : after.dropWhile p = after := by
    cases after with
    | nil => rfl
    | cons d more => simp [ends d rfl]
  rw [List.dropWhile_append_of_pos inside, nothing]

theorem passes_of_notMem {c : Char} {body : List Char} (absent : c ∉ body) :
    ∀ d ∈ body, (d != c) = true := by
  intro d member
  rw [bne_iff_ne]
  rintro rfl
  exact absent member

theorem ends_dropWhile (p : Char → Bool) (text : List Char) :
    ∀ d ∈ (text.dropWhile p).head?, p d = false := by
  intro d isHead
  have ends := List.head?_dropWhile_not p text
  rw [Option.mem_def.1 isHead] at ends
  exact ends

theorem inside_takeWhile (p : Char → Bool) (text : List Char) : ∀ d ∈ text.takeWhile p, p d :=
  List.all_eq_true.1 List.all_takeWhile

/-! ## The piece of a part -/

namespace Part

/-- The piece that a part is cut out as. -/
def piece : Part → Piece
  | token t => ⟨.token t.kind t.literal, t.lexeme.toList⟩
  | white c => ⟨.blank, [c]⟩
  | comment body => ⟨.comment, '/' :: '/' :: body⟩
  | stray c _ => ⟨.stray c, [c]⟩
  | openString body _ => ⟨.openString, '"' :: body⟩

variable {before after : List Char} {part part' : Part}

@[simp] theorem text_piece (part : Part) : part.piece.text = part.text := by
  cases part <;> rfl

theorem lineAfter_piece (before : List Char) (part : Part) :
    part.piece.lineAfter (1 + newlines before) = 1 + newlines (before ++ part.text) := by
  rw [Piece.lineAfter_eq, text_piece, Text.newlines_append, Nat.add_assoc]

theorem token?_piece (proper : part.Proper before after) :
    part.piece.token? (1 + newlines before) = part.token? := by
  cases part with
  | token t =>
    have line : (piece (token t)).lineAfter (1 + newlines before) = t.line := by
      rw [lineAfter_piece, proper.2]
      rfl
    simp only [Piece.token?, piece, token?, String.ofList_toList] at line ⊢
    rw [line]
  | white c => rfl
  | comment body => rfl
  | stray c line => rfl
  | openString body line => rfl

theorem defect?_piece (proper : part.Proper before after) :
    part.piece.defect? (1 + newlines before) = part.defect? := by
  cases part with
  | token t => rfl
  | white c => rfl
  | comment body => rfl
  | stray c line => simp only [piece, Piece.defect?, defect?, proper.2]
  | openString body line => simp only [piece, Piece.defect?, defect?, proper.2.2]

/-- The part that is cut out as the given piece, which starts on the given line. -/
def ofPiece (line : Nat) (p : Piece) : Part :=
  match p.shape with
  | .token kind literal => token ⟨kind, String.ofList p.text, literal, (p.lineAfter line : Nat)⟩
  | .blank => white (p.text.headD ' ')
  | .comment => comment (p.text.drop 2)
  | .stray c => stray c line
  | .openString => openString (p.text.drop 1) line

theorem ofPiece_piece (proper : part.Proper before after) :
    ofPiece (1 + newlines before) part.piece = part := by
  cases part with
  | token t => exact congrArg token (Option.some.inj (token?_piece proper))
  | white c => rfl
  | comment body => rfl
  | stray c line => simp only [piece, ofPiece, proper.2]
  | openString body line => simp only [piece, ofPiece, proper.2.2, List.drop_one, List.tail_cons]

/-- Parts that are cut out as the same piece at the same place are the same. -/
theorem eq_of_piece_eq {after' : List Char} (proper : part.Proper before after)
    (proper' : part'.Proper before after') (same : part.piece = part'.piece) : part = part' := by
  rw [← ofPiece_piece proper, ← ofPiece_piece proper', same]

end Part

/-- A piece is cut out as a part that is proper before the given text. -/
def Piece.IsPart (after : List Char) (p : Piece) : Prop :=
  ∀ before, ∃ part : Part, part.piece = p ∧ part.Proper before after

theorem Piece.isPart_token {after text : List Char} {kind : Kind} {literal : Literal}
    (complete : Token.Complete after kind literal text) :
    Piece.IsPart after ⟨.token kind literal, text⟩ := by
  intro before
  refine ⟨.token ⟨kind, String.ofList text, literal, (1 + newlines (before ++ text) : Nat)⟩, ?_, ?_⟩
  · simp only [Part.piece, String.toList_ofList]
  · simp only [Part.Proper, String.toList_ofList, and_true]
    exact complete

/-! ## The pieces of a text are proper parts -/

theorem wordPiece_isPart {c : Char} (starts : startsWord c) (rest : List Char) :
    Piece.IsPart (rest.dropWhile continuesWord) (wordPiece c rest) :=
  Piece.isPart_token
    (.word starts (inside_takeWhile continuesWord rest) (ends_dropWhile continuesWord rest))

theorem wordPiece_append (c : Char) (rest : List Char) :
    (wordPiece c rest).text ++ rest.dropWhile continuesWord = c :: rest :=
  congrArg (c :: ·) List.takeWhile_append_dropWhile

theorem stringPiece_isPart (rest : List Char) :
    ∃ after, (stringPiece rest).text ++ after = '"' :: rest ∧
      (stringPiece rest).IsPart after := by
  have split := List.takeWhile_append_dropWhile (p := (· != '"')) (l := rest)
  have inside : '"' ∉ rest.takeWhile (· != '"') := by
    intro member
    have passes := inside_takeWhile _ rest '"' member
    simp at passes
  unfold stringPiece
  cases found : rest.dropWhile (· != '"') with
  | nil =>
    rw [found, List.append_nil] at split
    refine ⟨[], by rw [List.append_nil, split], fun before => ?_⟩
    exact ⟨.openString _ (1 + newlines before : Nat), rfl, inside, rfl, rfl⟩
  | cons quote more =>
    have isQuote : quote = '"' := by
      have ends := ends_dropWhile (· != '"') rest quote (by rw [found]; rfl)
      simpa using ends
    subst isQuote
    rw [found] at split
    refine ⟨more, ?_, Piece.isPart_token (.string inside)⟩
    rw [List.append_assoc]
    exact congrArg ('"' :: ·) split

/-- A slash that no other follows. -/
theorem slashPiece_of_head {rest : List Char} (noComment : rest.head? ≠ some '/') :
    slashPiece rest = ⟨.token .slash .nil, ['/']⟩ := by
  unfold slashPiece
  split
  · exact absurd rfl noComment
  · rfl

theorem slashPiece_isPart (rest : List Char) :
    ∃ after, (slashPiece rest).text ++ after = '/' :: rest ∧ (slashPiece rest).IsPart after := by
  by_cases isComment : rest.head? = some '/'
  · obtain ⟨more, rfl⟩ : ∃ more, rest = '/' :: more := List.head?_eq_some_iff.1 isComment
    refine ⟨more.dropWhile (· != '\n'), ?_, fun before => ?_⟩
    · exact congrArg ('/' :: '/' :: ·) List.takeWhile_append_dropWhile
    · refine ⟨.comment (more.takeWhile (· != '\n')), rfl, ?_, ?_⟩
      · intro member
        have passes := inside_takeWhile _ more '\n' member
        simp at passes
      · intro c isHead
        simpa using ends_dropWhile (· != '\n') more c isHead
  · rw [slashPiece_of_head isComment]
    refine ⟨rest, rfl, Piece.isPart_token (.symbol (by decide) ?_ fun _ => isComment)⟩
    intro c _ longer listed
    obtain ⟨e, isExtensible, _⟩ := Kind.extensible?_of_mem_symbols listed
    cases isExtensible

theorem numberPiece_isPart {c : Char} (starts : isDigit c) (rest : List Char) :
    ∃ after, (numberPiece c rest).text ++ after = c :: rest ∧
      (numberPiece c rest).IsPart after := by
  have split : c :: rest.takeWhile isDigit ++ rest.dropWhile isDigit = c :: rest :=
    congrArg (c :: ·) List.takeWhile_append_dropWhile
  have inside : ∀ d ∈ c :: rest.takeWhile isDigit, isDigit d :=
    List.forall_mem_cons.2 ⟨starts, inside_takeWhile isDigit rest⟩
  have ends := ends_dropWhile isDigit rest
  unfold numberPiece
  dsimp only
  by_cases noPart : fraction (rest.dropWhile isDigit) = []
  · rw [noPart, if_pos rfl, List.append_nil]
    refine ⟨rest.dropWhile isDigit, split, Piece.isPart_token ?_⟩
    refine .whole (List.cons_ne_nil _ _) inside ends fun d more isFraction => ?_
    rw [isFraction, fraction, List.takeWhile_cons] at noPart
    cases isMore : isDigit d with
    | false => rfl
    | true =>
      rw [isMore, if_pos rfl] at noPart
      cases noPart
  · obtain ⟨more, isFraction⟩ : ∃ more, rest.dropWhile isDigit = '.' :: more := by
      unfold fraction at noPart
      split at noPart
      · next more isFraction => exact ⟨more, isFraction⟩
      · exact absurd rfl noPart
    rw [if_neg noPart]
    rw [isFraction] at noPart split ⊢
    refine ⟨more.dropWhile isDigit, ?_, Piece.isPart_token ?_⟩
    · rw [← split, List.append_assoc]
      exact congrArg (c :: rest.takeWhile isDigit ++ '.' :: ·) List.takeWhile_append_dropWhile
    · exact .fraction (List.cons_ne_nil _ _) inside noPart (inside_takeWhile isDigit more)
        (ends_dropWhile isDigit more)

theorem firstPiece_isPart_of_single {c : Char} {kind : Kind} (isSingle : single? c = some kind)
    (rest : List Char) : (firstPiece c rest).IsPart rest := by
  simp only [firstPiece, isSingle]
  refine Piece.isPart_token (.symbol ?_ ?_ ?_)
  · exact Kind.mem_symbols_iff.2 (.inl ⟨c, rfl, isSingle⟩)
  · intro d _ longer listed
    obtain ⟨e, isExtensible, _⟩ := Kind.extensible?_of_mem_symbols listed
    rw [extensible?_of_single? isSingle] at isExtensible
    cases isExtensible
  · intro isSlash
    cases isSlash
    cases isSingle

theorem firstPiece_isPart_of_extensible {c : Char} {e : Extensible}
    (isExtensible : extensible? c = some e) (rest : List Char) :
    ∃ after, (firstPiece c rest).text ++ after = c :: rest ∧ (firstPiece c rest).IsPart after := by
  simp only [firstPiece, single?_of_extensible? isExtensible, isExtensible]
  by_cases isNext : rest.head? = some e.next
  · obtain ⟨more, rfl⟩ : ∃ more, rest = e.next :: more := List.head?_eq_some_iff.1 isNext
    rw [if_pos isNext]
    refine ⟨more, rfl, Piece.isPart_token (.symbol ?_ ?_ ?_)⟩
    · have extended := congrArg (Option.map fun e => (e.next, e.extended)) isExtensible
      exact Kind.mem_symbols_iff.2 (.inr (.inr (.inl ⟨c, e.next, rfl, extended⟩)))
    · intro d _ longer listed
      have short := Kind.length_le_of_mem_symbols listed
      simp at short
    · intro isSlash
      cases isSlash
  · rw [if_neg isNext]
    refine ⟨rest, rfl, Piece.isPart_token (.symbol ?_ ?_ ?_)⟩
    · have alone := congrArg (Option.map fun e => e.alone) isExtensible
      exact Kind.mem_symbols_iff.2 (.inr (.inl ⟨c, rfl, alone⟩))
    · intro d isHead longer listed
      obtain ⟨e', isExtensible', rfl, _⟩ := Kind.extensible?_of_mem_symbols listed
      rw [isExtensible] at isExtensible'
      cases isExtensible'
      exact isNext isHead
    · intro isSlash
      cases isSlash
      cases isExtensible

theorem isBlank_iff {c : Char} : isBlank c ↔ c ∈ [' ', '\t', '\r', '\n'] := by
  simp [isBlank, or_assoc]

theorem firstPiece_isPart_of_notSymbol {c : Char} (notSymbol : startsSymbol c = false)
    (rest : List Char) :
    ∃ after, (firstPiece c rest).text ++ after = c :: rest ∧ (firstPiece c rest).IsPart after := by
  rw [firstPiece_of_notSymbol notSymbol]
  by_cases blank : isBlank c
  · rw [if_pos blank]
    exact ⟨rest, rfl, fun before => ⟨.white c, rfl, isBlank_iff.1 blank⟩⟩
  by_cases quote : c = '"'
  · subst quote
    rw [if_neg blank, if_pos rfl]
    exact stringPiece_isPart rest
  by_cases digit : isDigit c
  · rw [if_neg blank, if_neg quote, if_pos digit]
    exact numberPiece_isPart digit rest
  by_cases word : startsWord c
  · rw [if_neg blank, if_neg quote, if_neg digit, if_pos word]
    exact ⟨_, wordPiece_append c rest, wordPiece_isPart word rest⟩
  · rw [if_neg blank, if_neg quote, if_neg digit, if_neg word]
    simp only [Bool.not_eq_true] at blank digit word
    refine ⟨rest, rfl, fun before => ?_⟩
    exact ⟨.stray c (1 + newlines before : Nat), rfl, ⟨blank, quote, digit, word, notSymbol⟩, rfl⟩

/-- The first piece of a text is a proper part before the rest of it. -/
theorem firstPiece_isPart (c : Char) (rest : List Char) :
    ∃ after, (firstPiece c rest).text ++ after = c :: rest ∧ (firstPiece c rest).IsPart after := by
  cases isSingle : single? c with
  | some kind =>
    refine ⟨rest, ?_, firstPiece_isPart_of_single isSingle rest⟩
    simp only [firstPiece, isSingle, List.singleton_append]
  | none =>
    cases isExtensible : extensible? c with
    | some e => exact firstPiece_isPart_of_extensible isExtensible rest
    | none =>
      by_cases isSlash : c = '/'
      · subst isSlash
        exact slashPiece_isPart rest
      · exact firstPiece_isPart_of_notSymbol
          (startsSymbol_eq_false_iff.2 ⟨isSingle, isExtensible, isSlash⟩) rest

theorem pieces_cons {c : Char} {rest after : List Char} {p : Piece} (first : firstPiece c rest = p)
    (split : p.text ++ after = c :: rest) : pieces (c :: rest) = p :: pieces after := by
  have others : (c :: rest).drop p.text.length = after := by
    rw [← split, List.drop_left]
  rw [pieces, first, others]

theorem Part.flatMap_text (parts : List Part) :
    parts.flatMap text = ((parts.map piece).map (·.text)).flatten := by
  rw [List.flatMap_def, List.map_map]
  exact congrArg List.flatten (List.map_congr_left fun part _ => (text_piece part).symm)

/-- The pieces of a text are those of proper parts. -/
theorem exists_parts (text before : List Char) :
    ∃ parts : List Part, parts.map Part.piece = pieces text ∧ Part.AllProper before parts := by
  induction text using pieces.induct generalizing before with
  | case1 => exact ⟨[], by rw [pieces, List.map_nil], trivial⟩
  | case2 c rest piece ih =>
    obtain ⟨after, split, isPart⟩ := firstPiece_isPart c rest
    obtain ⟨part, isPiece, proper⟩ := isPart before
    obtain ⟨parts, isPieces, allProper⟩ := ih (before ++ part.text)
    have others : (c :: rest).drop piece.text.length = after := by
      rw [← split, List.drop_left]
    rw [others] at isPieces
    refine ⟨part :: parts, ?_, ?_, allProper⟩
    · rw [List.map_cons, isPiece, isPieces, pieces_cons rfl split]
    · rw [Part.flatMap_text, isPieces, flatten_pieces]
      exact proper

theorem tokensOf_parts {before : List Char} {parts : List Part}
    (proper : Part.AllProper before parts) :
    tokensOf (1 + newlines before) (parts.map Part.piece) = parts.filterMap Part.token? := by
  induction parts generalizing before with
  | nil => rfl
  | cons part rest ih =>
    obtain ⟨first, others⟩ := proper
    rw [List.map_cons, tokensOf, Part.lineAfter_piece, ih others, Part.token?_piece first,
      List.filterMap_cons]
    cases part.token? <;> rfl

theorem defectsOf_parts {before : List Char} {parts : List Part}
    (proper : Part.AllProper before parts) :
    defectsOf (1 + newlines before) (parts.map Part.piece) = parts.filterMap Part.defect? := by
  induction parts generalizing before with
  | nil => rfl
  | cons part rest ih =>
    obtain ⟨first, others⟩ := proper
    rw [List.map_cons, defectsOf, Part.lineAfter_piece, ih others, Part.defect?_piece first,
      List.filterMap_cons]
    cases part.defect? <;> rfl

/-- A scan accounts for every character of a text, in order: it gives the tokens and the defects
among proper parts of the text, and marks the end once, after them. -/
theorem scan_parts (text : List Char) : ∃ parts : List Part,
    parts.flatMap Part.text = text ∧ Part.AllProper [] parts ∧
    (scan text).defects = parts.filterMap Part.defect? ∧
    (scan text).stream.toList = parts.filterMap Part.token? ++
      [⟨.eof, "", .nil, (1 + newlines text : Nat)⟩] ∧
    ∀ t, .token t ∈ parts → t.kind ≠ .eof := by
  obtain ⟨parts, isPieces, proper⟩ := exists_parts text []
  have tokens := tokensOf_parts proper
  have defects := defectsOf_parts proper
  rw [isPieces] at tokens defects
  refine ⟨parts, ?_, proper, defects, ?_, ?_⟩
  · rw [Part.flatMap_text, isPieces, flatten_pieces]
  · rw [← tokens, Stream.toList, scan_stop]
    rfl
  · intro t member
    have isPiece : (Part.token t).piece ∈ pieces text := by
      rw [← isPieces]
      exact List.mem_map_of_mem member
    exact pieces_ne_eof text _ isPiece rfl

/-! ## A text has only one list of proper parts -/

theorem firstPiece_of_symbol {after text : List Char} {kind : Kind}
    (listed : (text, kind) ∈ Kind.symbols)
    (longest : ∀ c ∈ after.head?, ∀ longer, (text ++ [c], longer) ∉ Kind.symbols)
    (noComment : text = ['/'] → after.head? ≠ some '/') :
    ∃ c rest, text ++ after = c :: rest ∧ firstPiece c rest = ⟨.token kind .nil, text⟩ := by
  rcases Kind.mem_symbols_iff.1 listed with ⟨c, rfl, isSingle⟩ | ⟨c, rfl, alone⟩ |
    ⟨c, d, rfl, extended⟩ | ⟨rfl, rfl⟩
  · refine ⟨c, after, rfl, ?_⟩
    simp only [firstPiece, isSingle]
  · obtain ⟨e, isExtensible, rfl⟩ := Option.map_eq_some_iff.1 alone
    have isLast : after.head? ≠ some e.next := by
      intro isHead
      have extended := congrArg (Option.map fun e => (e.next, e.extended)) isExtensible
      exact longest e.next isHead e.extended
        (Kind.mem_symbols_iff.2 (.inr (.inr (.inl ⟨c, e.next, rfl, extended⟩))))
    refine ⟨c, after, rfl, ?_⟩
    simp only [firstPiece, single?_of_extensible? isExtensible, isExtensible, isLast, if_false]
  · obtain ⟨e, isExtensible, same⟩ := Option.map_eq_some_iff.1 extended
    cases same
    refine ⟨c, e.next :: after, rfl, ?_⟩
    simp only [firstPiece, single?_of_extensible? isExtensible, isExtensible, List.head?_cons,
      if_true]
  · refine ⟨'/', after, rfl, ?_⟩
    exact slashPiece_of_head (noComment rfl)

theorem startsSymbol_eq_false {c : Char}
    (other : isBlank c ∨ c = '"' ∨ isDigit c ∨ startsWord c) : startsSymbol c = false := by
  have heads : (Kind.symbols.all fun symbol => symbol.1.head?.all fun d =>
      !isBlank d && d != '"' && !isDigit d && !startsWord d) = true := by decide +kernel
  rw [← Bool.not_eq_true, startsSymbol_iff]
  rintro ⟨text, kind, listed⟩
  have head := List.all_eq_true.1 heads _ listed
  simp only [List.head?_cons, Option.all_some, Bool.and_eq_true, bne_iff_ne, Bool.not_eq_true']
    at head
  obtain ⟨⟨⟨notBlank, notQuote⟩, notDigit⟩, notWord⟩ := head
  simp [notBlank, notQuote, notDigit, notWord] at other

theorem startsWord_of_isDigit {c : Char} (digit : isDigit c) : startsWord c = false := by
  have noLetters : ∀ n < 58, 48 ≤ n → Text.letters.contains n = false := by decide +kernel
  simp only [isDigit, Bool.and_eq_true, decide_eq_true_eq, Char.le_def, UInt32.le_iff_toNat_le]
    at digit
  have notLetter : Text.isLetter c = false := noLetters c.toNat (Nat.lt_succ_of_le digit.2) digit.1
  have notLine : c ≠ '_' := by
    rintro rfl
    exact absurd digit.2 (by decide)
  simp [startsWord, notLetter, notLine]

theorem not_isBlank {c : Char} (other : c = '"' ∨ isDigit c ∨ startsWord c) :
    isBlank c = false := by
  have blanks : ([' ', '\t', '\r', '\n'].all fun d =>
      d != '"' && !isDigit d && !startsWord d) = true := by decide +kernel
  rw [← Bool.not_eq_true, isBlank_iff]
  intro blank
  have isOther := List.all_eq_true.1 blanks c blank
  simp only [Bool.and_eq_true, bne_iff_ne, Bool.not_eq_true'] at isOther
  obtain ⟨⟨notQuote, notDigit⟩, notWord⟩ := isOther
  simp [notQuote, notDigit, notWord] at other

theorem firstPiece_of_word {c : Char} (starts : startsWord c) (rest : List Char) :
    firstPiece c rest = wordPiece c rest := by
  have notQuote : c ≠ '"' := by
    rintro rfl
    exact absurd starts (by decide +kernel)
  have notDigit : isDigit c = false := by
    rw [← Bool.not_eq_true]
    intro digit
    rw [startsWord_of_isDigit digit] at starts
    cases starts
  rw [firstPiece_of_notSymbol (startsSymbol_eq_false (.inr (.inr (.inr starts))))]
  simp [not_isBlank (.inr (.inr starts)), notQuote, notDigit, starts]

theorem firstPiece_of_digit {c : Char} (digit : isDigit c) (rest : List Char) :
    firstPiece c rest = numberPiece c rest := by
  have notQuote : c ≠ '"' := by
    rintro rfl
    exact absurd digit (by decide)
  rw [firstPiece_of_notSymbol (startsSymbol_eq_false (.inr (.inr (.inl digit))))]
  simp [not_isBlank (.inr (.inl digit)), notQuote, digit]

theorem firstPiece_of_quote (rest : List Char) : firstPiece '"' rest = stringPiece rest := by
  rw [firstPiece_of_notSymbol (by decide)]
  rfl

/-- A token is cut out of a text with what it is whole before. -/
theorem firstPiece_of_complete {after text : List Char} {kind : Kind} {literal : Literal}
    (complete : Token.Complete after kind literal text) :
    ∃ c rest, text ++ after = c :: rest ∧ firstPiece c rest = ⟨.token kind literal, text⟩ := by
  cases complete with
  | symbol listed longest noComment => exact firstPiece_of_symbol listed longest noComment
  | @word c rest starts inside ends =>
    refine ⟨c, rest ++ after, rfl, ?_⟩
    rw [firstPiece_of_word starts, wordPiece, takeWhile_eq_of_ends inside ends]
  | whole nonempty inside ends noFraction =>
    obtain ⟨c, digits, rfl⟩ := List.exists_cons_of_ne_nil nonempty
    obtain ⟨digit, inside⟩ := List.forall_mem_cons.1 inside
    have noPart : fraction after = [] := by
      unfold fraction
      split
      · next more =>
        cases more with
        | nil => rfl
        | cons d more => simp [noFraction d more rfl]
      · rfl
    refine ⟨c, digits ++ after, rfl, ?_⟩
    rw [firstPiece_of_digit digit, numberPiece, takeWhile_eq_of_ends inside ends,
      dropWhile_eq_of_ends inside ends, noPart]
    simp
  | @fraction whole part nonempty inside nonempty' inside' ends =>
    obtain ⟨c, digits, rfl⟩ := List.exists_cons_of_ne_nil nonempty
    obtain ⟨digit, inside⟩ := List.forall_mem_cons.1 inside
    have point : ∀ d ∈ ('.' :: part ++ after).head?, isDigit d = false := by
      rintro d ⟨⟩
      decide
    have isPart : fraction ('.' :: part ++ after) = part := takeWhile_eq_of_ends inside' ends
    refine ⟨c, digits ++ ('.' :: part ++ after), by simp, ?_⟩
    rw [firstPiece_of_digit digit, numberPiece, takeWhile_eq_of_ends inside point,
      dropWhile_eq_of_ends inside point, isPart]
    simp [nonempty']
  | @string body inside =>
    have passes := passes_of_notMem inside
    have ends : ∀ d ∈ ('"' :: after).head?, (d != '"') = false := by
      rintro d ⟨⟩
      rfl
    refine ⟨'"', body ++ '"' :: after, by simp, ?_⟩
    rw [firstPiece_of_quote, stringPiece, takeWhile_eq_of_ends passes ends,
      dropWhile_eq_of_ends passes ends]

/-- A proper part is cut out of a text with what it is proper before. -/
theorem firstPiece_of_proper {before after : List Char} {part : Part}
    (proper : part.Proper before after) :
    ∃ c rest, part.text ++ after = c :: rest ∧ firstPiece c rest = part.piece := by
  cases part with
  | token t => exact firstPiece_of_complete proper.1
  | white c =>
    have blank : isBlank c := isBlank_iff.2 proper
    refine ⟨c, after, rfl, ?_⟩
    rw [firstPiece_of_notSymbol (startsSymbol_eq_false (.inl blank)), if_pos blank]
    rfl
  | comment body =>
    have passes : ∀ d ∈ '/' :: body, (d != '\n') = true :=
      List.forall_mem_cons.2 ⟨rfl, passes_of_notMem proper.1⟩
    have ends : ∀ d ∈ after.head?, (d != '\n') = false := by
      intro d isHead
      simp [proper.2 d isHead]
    refine ⟨'/', '/' :: body ++ after, rfl, ?_⟩
    have text : slashPiece ('/' :: body ++ after) =
        ⟨.comment, '/' :: ('/' :: body ++ after).takeWhile (· != '\n')⟩ := rfl
    rw [takeWhile_eq_of_ends passes ends] at text
    exact text
  | stray c line =>
    obtain ⟨notBlank, notQuote, notDigit, notWord, notSymbol⟩ := proper.1
    refine ⟨c, after, rfl, ?_⟩
    rw [firstPiece_of_notSymbol notSymbol]
    simp [notBlank, notQuote, notDigit, notWord, Part.piece]
  | openString body line =>
    obtain ⟨inside, rfl, _⟩ := proper
    have passes := passes_of_notMem inside
    have ends : ∀ d ∈ ([] : List Char).head?, (d != '"') = false := by
      rintro d ⟨⟩
    refine ⟨'"', body ++ [], rfl, ?_⟩
    rw [firstPiece_of_quote, stringPiece, takeWhile_eq_of_ends passes ends,
      dropWhile_eq_of_ends passes ends]
    rfl

theorem pieces_of_parts {before : List Char} {parts : List Part}
    (proper : Part.AllProper before parts) :
    pieces (parts.flatMap Part.text) = parts.map Part.piece := by
  induction parts generalizing before with
  | nil => rw [List.flatMap_nil, pieces, List.map_nil]
  | cons part rest ih =>
    obtain ⟨first, others⟩ := proper
    obtain ⟨c, more, split, isPiece⟩ := firstPiece_of_proper first
    rw [← Part.text_piece] at split
    rw [List.flatMap_cons, ← Part.text_piece, split, pieces_cons isPiece split, ih others]
    rfl

theorem Part.AllProper.eq_of_pieces {before : List Char} {parts parts' : List Part}
    (proper : AllProper before parts) (proper' : AllProper before parts')
    (same : parts.map piece = parts'.map piece) : parts = parts' := by
  induction parts generalizing before parts' with
  | nil => exact (List.map_eq_nil_iff.1 same.symm).symm
  | cons part rest ih =>
    cases parts' with
    | nil => cases same
    | cons part' rest' =>
      obtain ⟨first, others⟩ := proper
      obtain ⟨first', others'⟩ := proper'
      obtain ⟨samePart, sameRest⟩ := List.cons.inj same
      obtain rfl := Part.eq_of_piece_eq first first' samePart
      rw [ih others others' sameRest]

/-- No two lists of proper parts make up the same text. -/
theorem parts_unique {parts parts' : List Part} (proper : Part.AllProper [] parts)
    (proper' : Part.AllProper [] parts')
    (same : parts.flatMap Part.text = parts'.flatMap Part.text) : parts = parts' := by
  refine proper.eq_of_pieces proper' ?_
  rw [← pieces_of_parts proper, ← pieces_of_parts proper', same]

end Lox
