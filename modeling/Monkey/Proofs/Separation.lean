import Mathlib.Data.List.Chain
import Monkey.Proofs.Segmentation
import Monkey.Unicode.Alphabet

set_option autoImplicit false

namespace Monkey

/-- The kinds of token that are written with letters and digits. -/
def TokenKind.isAlphanumeric (kind : TokenKind) : Bool :=
  kind == identifier || kind == number || (keywords.map Prod.snd).contains kind

/-- The signs that an equals sign behind them makes longer. -/
def TokenKind.isOpenEnded (kind : TokenKind) : Bool := kind == assignment || kind == not

/-- The signs that begin with an equals sign. -/
def TokenKind.isEqualsLike (kind : TokenKind) : Bool := kind == assignment || kind == equals

structure Piece where
  token : Token
  gap : List Char

def written : List Piece → List Char
  | [] => []
  | piece :: pieces => piece.token.literal.toList ++ (piece.gap ++ written pieces)

theorem kind_of_mem_keywords {word : String} {kind : TokenKind} (h : (word, kind) ∈ keywords) :
    kind.isAlphanumeric = true ∧ kind.isTerminal = false ∧ kind.isOpenEnded = false ∧
      kind.isEqualsLike = false := by
  have table : ∀ entry ∈ keywords, entry.2.isAlphanumeric = true ∧ entry.2.isTerminal = false ∧
      entry.2.isOpenEnded = false ∧ entry.2.isEqualsLike = false := by decide
  exact table _ h

theorem kind_of_mem_punctuation {c : Char} {kind : TokenKind} (h : (c, kind) ∈ punctuation) :
    kind.isAlphanumeric = false ∧ kind.isTerminal = false ∧
      (kind.isOpenEnded = true ↔ c = '=' ∨ c = '!') ∧ (kind.isEqualsLike = true ↔ c = '=') := by
  have table : ∀ entry ∈ punctuation, entry.2.isAlphanumeric = false ∧
      entry.2.isTerminal = false ∧ (entry.2.isOpenEnded = true ↔ entry.1 = '=' ∨ entry.1 = '!') ∧
      (entry.2.isEqualsLike = true ↔ entry.1 = '=') := by decide
  exact table _ h

/-- Two tokens that are read as others if the second stands directly behind the first. -/
def Token.Clashes (left right : Token) : Prop :=
  left.kind.isAlphanumeric = true ∧ right.kind.isAlphanumeric = true ∨
    left.kind.isOpenEnded = true ∧ right.kind.isEqualsLike = true

instance (left right : Token) : Decidable (left.Clashes right) :=
  inferInstanceAs (Decidable (_ ∨ _))

section

variable [Alphabet]

/-- A token as a lexer may produce it for a text that is not illegal. -/
inductive Token.Valid : Token → Prop where
  | identifier {name : String} (h : isName name = true) : Valid ⟨.identifier, name⟩
  | number {digits : List Char} (nonempty : digits ≠ []) (all : digits.all isDigit = true) :
      Valid ⟨.number, String.ofList digits⟩
  | keyword {word : String} {kind : TokenKind} (h : (word, kind) ∈ keywords) : Valid ⟨kind, word⟩
  | punctuation {c : Char} {kind : TokenKind} (h : (c, kind) ∈ Monkey.punctuation) :
      Valid ⟨kind, String.ofList [c]⟩
  | equals : Valid ⟨.equals, "=="⟩
  | notEquals : Valid ⟨.notEquals, "!="⟩

/-- The characters that make a token of a kind longer, or make it a word of its own. -/
def TokenKind.GoesOnWith (kind : TokenKind) (c : Char) : Prop :=
  kind.isAlphanumeric = true ∧ isWordPart c = true ∨ kind.isOpenEnded = true ∧ c = '='

section Cuts

variable {kind : TokenKind} {literal rest : List Char}

theorem Segment.run_of_start (h : Segment kind literal rest)
    (start : literal.head?.any isWordStart = true) : Run isWordPart literal rest := by
  obtain ⟨shape, first, -, -⟩ := h.first
  obtain ⟨c, cs, rfl, starts⟩ := exists_cons_of_start start
  rw [List.cons_append, Lexeme.first, if_neg (by simp [isDigit_of_isWordStart starts]),
    if_pos starts, Lexeme.ofWord, Lexeme.mk.injEq] at first
  have run := Run.of_text isWordPart (c :: (cs ++ rest))
  rwa [first.2.1, first.2.2] at run

theorem segment_word_iff {word : String} (start : word.toList.head?.any isWordStart = true) :
    Segment (wordKind word) word.toList rest ↔ Run isWordPart word.toList rest := by
  refine ⟨fun h => h.run_of_start start, fun run => ?_⟩
  have segment := segment_word start run
  rwa [String.ofList_toList] at segment

theorem segment_number_iff {digits : List Char} (nonempty : digits ≠ [])
    (all : digits.all isDigit = true) : Segment .number digits rest ↔
      ∀ c, rest.head? = some c → isDigit c = false ∧ isWordStart c = false := by
  constructor
  · intro h
    obtain ⟨shape, first, kindOf, -⟩ := h.first
    obtain ⟨c, cs, rfl⟩ := List.exists_cons_of_ne_nil nonempty
    have digit := List.all_eq_true.1 all c List.mem_cons_self
    have run := Run.of_text isDigit (c :: (cs ++ rest))
    rw [List.cons_append, Lexeme.first, if_pos digit, Lexeme.ofDigits, Lexeme.ofRun] at first
    split at first
    · rw [Lexeme.mk.injEq] at first
      rw [← first.1] at kindOf
      cases kindOf
    · rename_i clear
      rw [Lexeme.mk.injEq] at first
      rw [first.2.2] at clear run
      intro d hd
      exact ⟨run.ends d hd, by simpa [hd] using clear⟩
  · intro h
    exact .number nonempty ⟨List.all_eq_true.1 all, fun c hc => (h c hc).1⟩ fun c hc => (h c hc).2

theorem segment_punctuation_iff {c : Char} (known : (c, kind) ∈ punctuation) :
    Segment kind [c] rest ↔ (c = '=' ∨ c = '!' → rest.head? ≠ some '=') := by
  refine ⟨fun h first longer => ?_, Segment.punctuation known⟩
  obtain ⟨shape, whole, -, -⟩ := h.first
  obtain ⟨rest, rfl⟩ := List.head?_eq_some_iff.1 longer
  rcases first with rfl | rfl
  · cases (Lexeme.first_equals rest).symm.trans whole
  · cases (Lexeme.first_notEquals rest).symm.trans whole

end Cuts

/-- What the first character of a token tells about its kind. A word part that begins a token is
no number of another script. -/
structure TokenKind.Begins (kind : TokenKind) (c : Char) : Prop where
  visible : isBlank c = false
  decisive : isWordPart c = true → isDigit c = true ∨ isWordStart c = true
  isAlphanumeric : kind.isAlphanumeric = true ↔ isWordPart c = true
  isEqualsLike : kind.isEqualsLike = true ↔ c = '='

theorem begins_of_mem_punctuation {c : Char} {kind sign : TokenKind} (h : (c, kind) ∈ punctuation)
    (other : sign.isAlphanumeric = false) (equalsLike : sign.isEqualsLike = true ↔ c = '=') :
    sign.Begins c := by
  obtain ⟨blank, -, part⟩ := of_mem_punctuation h
  exact ⟨blank, by simp [part], by simp [other, part], equalsLike⟩

section Words

variable {kind : TokenKind} {word : String} {rest : List Char}
  (start : word.toList.head?.any isWordStart = true) (alphanumeric : kind.isAlphanumeric = true)

include start alphanumeric

theorem begins_of_word (other : kind.isEqualsLike = false) :
    ∃ c cs, word.toList = c :: cs ∧ kind.Begins c := by
  obtain ⟨c, cs, list, starts⟩ := exists_cons_of_start start
  have part := isWordPart_of_isWordStart starts
  have sign : c ≠ '=' := by
    rintro rfl
    rw [isWordStart_of_ascii (by decide)] at starts
    exact absurd starts (by decide)
  exact ⟨c, cs, list, isBlank_of_isWordPart part, fun _ => .inr starts,
    iff_of_true alphanumeric part, by simp [other, sign]⟩

theorem segment_iff_of_word (parts : word.toList.all isWordPart = true)
    (same : wordKind word = kind) (closed : kind.isOpenEnded = false) :
    Segment kind word.toList rest ↔ ∀ c, rest.head? = some c → ¬ kind.GoesOnWith c := by
  rw [← same, segment_word_iff start, same]
  simp only [TokenKind.GoesOnWith, alphanumeric, closed, true_and, Bool.false_eq_true, false_and,
    or_false, Bool.not_eq_true]
  exact ⟨fun run => run.ends, fun ends => ⟨List.all_eq_true.1 parts, ends⟩⟩

end Words

namespace Token.Valid

variable {token : Token}

theorem isTerminal (h : token.Valid) : token.kind.isTerminal = false := by
  cases h with
  | keyword h => exact (kind_of_mem_keywords h).2.1
  | punctuation h => exact (kind_of_mem_punctuation h).2.1
  | _ => rfl

theorem begins (h : token.Valid) :
    ∃ c cs, token.literal.toList = c :: cs ∧ token.kind.Begins c := by
  cases h with
  | identifier h =>
    simp only [isName, Bool.and_eq_true] at h
    exact begins_of_word h.1.1 rfl rfl
  | @number digits nonempty all =>
    obtain ⟨c, cs, rfl⟩ := List.exists_cons_of_ne_nil nonempty
    have digit := List.all_eq_true.1 all c List.mem_cons_self
    have part := isWordPart_of_isDigit digit
    have sign : c ≠ '=' := by
      rintro rfl
      exact absurd digit (by decide)
    exact ⟨c, cs, String.toList_ofList, isBlank_of_isWordPart part, fun _ => .inl digit,
      iff_of_true rfl part, iff_of_false Bool.false_ne_true sign⟩
  | keyword h =>
    obtain ⟨alphanumeric, -, -, other⟩ := kind_of_mem_keywords h
    exact begins_of_word (word_of_mem_keywords h).1 alphanumeric other
  | @punctuation c kind h =>
    obtain ⟨other, -, -, equalsLike⟩ := kind_of_mem_punctuation h
    exact ⟨c, [], String.toList_ofList, begins_of_mem_punctuation h other equalsLike⟩
  | equals =>
    exact ⟨'=', ['='], rfl, begins_of_mem_punctuation
      (by decide : ('=', TokenKind.assignment) ∈ Monkey.punctuation) rfl (by decide)⟩
  | notEquals =>
    exact ⟨'!', ['='], rfl, begins_of_mem_punctuation
      (by decide : ('!', TokenKind.not) ∈ Monkey.punctuation) rfl (by decide)⟩

/-- A token is a segment of a text exactly if it does not go on with the character behind it. -/
theorem segment_iff (h : token.Valid) {rest : List Char} (decisive : ∀ c, rest.head? = some c →
      isWordPart c = true → isDigit c = true ∨ isWordStart c = true) :
    Segment token.kind token.literal.toList rest ↔
      ∀ c, rest.head? = some c → ¬ token.kind.GoesOnWith c := by
  cases h with
  | identifier h =>
    simp only [isName, Bool.and_eq_true, beq_iff_eq] at h
    exact segment_iff_of_word h.1.1 rfl h.1.2 h.2 rfl
  | number nonempty all =>
    rw [String.toList_ofList, segment_number_iff nonempty all]
    refine forall₂_congr fun c hc => ⟨?_, fun ends => ?_⟩
    · rintro ⟨digit, starts⟩ (⟨-, part⟩ | ⟨openEnded, -⟩)
      · rcases decisive c hc part with isDigit | isStart
        · rw [digit] at isDigit
          cases isDigit
        · rw [starts] at isStart
          cases isStart
      · cases openEnded
    · have part : isWordPart c = false :=
        Bool.eq_false_iff.2 fun part => ends (.inl ⟨rfl, part⟩)
      refine ⟨Bool.eq_false_iff.2 fun digit => ?_, isWordStart_of_not_isWordPart part⟩
      rw [isWordPart_of_isDigit digit] at part
      cases part
  | keyword h =>
    obtain ⟨start, parts⟩ := word_of_mem_keywords h
    obtain ⟨alphanumeric, -, closed, -⟩ := kind_of_mem_keywords h
    exact segment_iff_of_word start alphanumeric parts (wordKind_of_mem h) closed
  | @punctuation c kind h =>
    obtain ⟨other, -, openEnded, -⟩ := kind_of_mem_punctuation h
    rw [String.toList_ofList, segment_punctuation_iff h]
    simp only [TokenKind.GoesOnWith, other, openEnded, Bool.false_eq_true, false_and, false_or,
      not_and]
    constructor
    · rintro ends d hd first rfl
      exact ends first hd
    · intro ends first longer
      exact ends '=' longer first rfl
  | equals =>
    refine iff_of_true (.equals rest) fun _ _ => not_or.2 ⟨?_, ?_⟩ <;>
      exact fun goesOn => Bool.false_ne_true goesOn.1
  | notEquals =>
    refine iff_of_true (.notEquals rest) fun _ _ => not_or.2 ⟨?_, ?_⟩ <;>
      exact fun goesOn => Bool.false_ne_true goesOn.1

end Token.Valid

variable {token left right : Token}

theorem Token.clashes_iff {c : Char} (h : right.kind.Begins c) :
    left.Clashes right ↔ left.kind.GoesOnWith c := by
  rw [Token.Clashes, TokenKind.GoesOnWith, h.isAlphanumeric, h.isEqualsLike]

theorem Segmentation.cons_iff {blanks rest : List Char} {tokens : List Token}
    (valid : token.Valid) (blank : blanks.all isBlank = true) :
    Segmentation (blanks ++ (token.literal.toList ++ rest)) (token :: tokens) ↔
      Segment token.kind token.literal.toList rest ∧ Segmentation rest tokens := by
  obtain ⟨c, cs, list, begins⟩ := valid.begins
  have run : Run isBlank blanks (token.literal.toList ++ rest) := by
    refine ⟨List.all_eq_true.1 blank, fun d hd => ?_⟩
    rw [list] at hd
    cases hd
    exact begins.visible
  have sound := valid.isTerminal
  constructor
  · intro h
    generalize hText : blanks ++ (token.literal.toList ++ rest) = text at h
    cases h with
    | ends => cases sound
    | illegal => cases sound
    | @token kind others literal remainder _ run' here _ later =>
      have same := congrArg (List.dropWhile isBlank) hText
      rw [run.dropWhile, run'.dropWhile, String.toList_ofList] at same
      obtain rfl := List.append_cancel_left same
      rw [String.toList_ofList]
      exact ⟨here, later⟩
  · rintro ⟨here, later⟩
    have legal : token.kind ≠ .illegal := fun illegal => by
      rw [illegal] at sound
      cases sound
    have whole := Segmentation.token run here legal later
    rwa [String.ofList_toList] at whole

theorem segment_written_iff {gap : List Char} {pieces : List Piece} (valid : token.Valid)
    (blank : gap.all isBlank = true) (others : ∀ piece ∈ pieces, piece.token.Valid) :
    Segment token.kind token.literal.toList (gap ++ written pieces) ↔
      ∀ next ∈ pieces.head?, token.Clashes next.token → gap ≠ [] := by
  cases gap with
  | nil =>
    cases pieces with
    | nil =>
      have none (c : Char) (hc : ([] ++ written []).head? = some c) : False := by cases hc
      rw [valid.segment_iff fun c hc => (none c hc).elim]
      exact iff_of_true (fun c hc => (none c hc).elim) nofun
    | cons next pieces =>
      obtain ⟨c, cs, list, begins⟩ := (others next List.mem_cons_self).begins
      have head : ([] ++ written (next :: pieces)).head? = some c := by simp [written, list]
      rw [valid.segment_iff (by rw [head]; rintro d ⟨⟩; exact begins.decisive), head]
      simp [Token.clashes_iff begins]
  | cons space gap =>
    have blank := List.all_eq_true.1 blank space List.mem_cons_self
    have part := isWordPart_of_isBlank blank
    have sign : space ≠ '=' := by
      rintro rfl
      exact absurd blank (by decide)
    rw [valid.segment_iff (by simp [part])]
    exact iff_of_true (by simp [TokenKind.GoesOnWith, part, sign]) (by simp)

theorem segmentation_written_iff {lead : List Char} {pieces : List Piece}
    (blank : lead.all isBlank = true)
    (valid : ∀ piece ∈ pieces, piece.token.Valid ∧ piece.gap.all isBlank = true) :
    Segmentation (lead ++ written pieces) (pieces.map Piece.token ++ [Token.eof]) ↔
      pieces.IsChain fun left right => left.token.Clashes right.token → left.gap ≠ [] := by
  induction pieces generalizing lead with
  | nil =>
    rw [written, List.append_nil]
    exact iff_of_true (.ends ⟨List.all_eq_true.1 blank, nofun⟩) .nil
  | cons piece pieces ih =>
    obtain ⟨here, later⟩ := List.forall_mem_cons.1 valid
    have next := segment_written_iff here.1 here.2 fun other member => (later other member).1
    rw [written, List.map_cons, List.cons_append, Segmentation.cons_iff here.1 blank, next,
      ih here.2 later, List.isChain_cons]

/-- Written tokens are read back exactly if no two of them clash without a gap between them. -/
theorem tokenize_written_iff (lead : List Char) (pieces : List Piece)
    (blank : lead.all isBlank = true)
    (valid : ∀ piece ∈ pieces, piece.token.Valid ∧ piece.gap.all isBlank = true) :
    tokenize (String.ofList (lead ++ written pieces)) =
        pieces.map Piece.token ++ [Token.eof] ↔
      pieces.IsChain fun left right => left.token.Clashes right.token → left.gap ≠ [] := by
  rw [tokenize_eq_scan, String.toList_ofList, scan_eq_iff]
  exact segmentation_written_iff blank valid

end

theorem tokenize_written_iff_signs :
    tokenize "let x=! ==1" = [⟨.letKeyword, "let"⟩, ⟨.identifier, "x"⟩, ⟨.assignment, "="⟩,
        ⟨.not, "!"⟩, ⟨.equals, "=="⟩, ⟨.number, "1"⟩, Token.eof] ∧
      tokenize "let x=!==1" ≠ [⟨.letKeyword, "let"⟩, ⟨.identifier, "x"⟩, ⟨.assignment, "="⟩,
        ⟨.not, "!"⟩, ⟨.equals, "=="⟩, ⟨.number, "1"⟩, Token.eof] := by
  have valid (gap : List Char) (blank : gap.all isBlank = true) :
      ∀ piece ∈ [Piece.mk ⟨.letKeyword, "let"⟩ [' '], ⟨⟨.identifier, "x"⟩, []⟩,
        ⟨⟨.assignment, "="⟩, []⟩, ⟨⟨.not, "!"⟩, gap⟩, ⟨⟨.equals, "=="⟩, []⟩,
        ⟨⟨.number, "1"⟩, []⟩], piece.token.Valid ∧ piece.gap.all isBlank = true := by
    simp only [List.forall_mem_cons, List.not_mem_nil, false_imp_iff, implies_true, and_true]
    exact ⟨⟨.keyword (by decide), rfl⟩, ⟨.identifier (by decide), rfl⟩,
      ⟨.punctuation (c := '=') (by decide), rfl⟩, ⟨.punctuation (c := '!') (by decide), blank⟩,
      ⟨.equals, rfl⟩, .number (List.cons_ne_nil '1' []) rfl, rfl⟩
  constructor
  · exact (tokenize_written_iff [] _ rfl (valid [' '] rfl)).2 (by decide)
  · exact mt (tokenize_written_iff [] _ rfl (valid [] rfl)).1 (by decide)

end Monkey
