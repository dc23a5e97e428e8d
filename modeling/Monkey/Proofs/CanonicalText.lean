import Mathlib.Data.List.Forall2
import Monkey.Proofs.Canonical

set_option autoImplicit false

namespace Monkey

theorem Integer.writeChars_of_nonneg {value : Int64} (h : 0 ≤ value.toInt) :
    Integer.writeChars value = Nat.toDigits 10 value.toInt.natAbs := by
  rw [Integer.writeChars, if_neg (by omega)]

theorem head?_of_integer {value : Int64} (h : 0 ≤ value.toInt) :
    Integer.writeChars value ≠ [] ∧ (Integer.writeChars value).head? ≠ some '=' := by
  rw [Integer.writeChars_of_nonneg h]
  refine ⟨Nat.toDigits_ne_nil, fun equals => ?_⟩
  have member := List.mem_of_head? equals
  exact absurd (Integer.isDigit_of_mem_toDigits member) (by decide)

variable [Alphabet]

/-- Lexed to certain tokens, whatever stands behind it that does not go on a word. -/
def Spells (text : List Char) (tokens : List Token) : Prop :=
  ∀ rest, Apart rest → scan (text ++ rest) = tokens ++ scan rest

namespace Spells

variable {text more : List Char} {tokens others : List Token}

theorem nil : Spells [] [] := fun _ _ => rfl

def marks : List Char := ['(', ')', '{', '}', ',', ';']

theorem mark {c : Char} (member : c ∈ marks) (h : Spells more others) :
    Spells (c :: more) (Token.symbol c :: others) := by
  intro rest apart
  have known : punctuationKind? c = some (Token.symbol c).kind ∧ c ≠ '=' ∧ c ≠ '!' := by
    simp only [marks, List.mem_cons, List.not_mem_nil, or_false] at member
    rcases member with rfl | rfl | rfl | rfl | rfl | rfl <;> decide
  rw [List.cons_append, scan_punctuation known.1 (.inr known.2), h rest apart]
  rfl

theorem blank (h : Spells more others) : Spells (' ' :: more) others := by
  intro rest apart
  rw [List.cons_append, scan_blank rfl, h rest apart]

theorem append (h : Spells text tokens) (hmore : Spells more others)
    (apart : ∀ rest, Apart rest → Apart (more ++ rest)) :
    Spells (text ++ more) (tokens ++ others) := by
  intro rest hrest
  rw [List.append_assoc, h _ (apart rest hrest), hmore rest hrest, List.append_assoc]

theorem append_mark {c : Char} (member : c ∈ marks) (h : Spells text tokens)
    (hmore : Spells more others) :
    Spells (text ++ c :: more) (tokens ++ Token.symbol c :: others) := by
  apply h.append (mark member hmore)
  intro rest _
  simp only [marks, List.mem_cons, List.not_mem_nil, or_false] at member
  rcases member with rfl | rfl | rfl | rfl | rfl | rfl <;> exact apart_mark (by decide) _

theorem append_blank (h : Spells text tokens) (hmore : Spells more others) :
    Spells (text ++ ' ' :: more) (tokens ++ others) :=
  h.append hmore.blank fun _ _ => apart_mark (by decide) _

end Spells

theorem spells_word (word : String) (start : word.toList.head?.any isWordStart = true)
    (parts : word.toList.all isWordPart = true) : Spells word.toList [Token.word word] := by
  intro rest apart
  rw [scan_word start parts apart, String.ofList_toList]
  rfl

theorem spells_keyword {word : String} {kind : TokenKind} (h : (word, kind) ∈ keywords) :
    Spells word.toList [Token.word word] :=
  spells_word word (word_of_mem_keywords h).1 (word_of_mem_keywords h).2

theorem spells_name {name : String} (h : isName name = true) :
    Spells name.toList [Token.word name] := by
  simp only [isName, Bool.and_eq_true] at h
  exact spells_word name h.1.1 h.1.2

theorem spells_assignment {text : List Char} {tokens : List Token} (h : Spells text tokens) :
    Spells ('=' :: ' ' :: text) (Token.symbol '=' :: tokens) := by
  intro rest apart
  have single : (' ' :: text ++ rest).head? ≠ some '=' := by
    rw [List.cons_append, List.head?_cons]
    decide
  rw [List.cons_append, scan_punctuation rfl (.inl single), h.blank rest apart]
  rfl

theorem spells_integer {value : Int64} (h : 0 ≤ value.toInt) :
    Spells (Integer.writeChars value) [⟨.number, Integer.write value⟩] := by
  intro rest apart
  have digits : (Integer.writeChars value).all isDigit = true := by
    rw [Integer.writeChars_of_nonneg h]
    exact Integer.all_isDigit_toDigits _
  have some : Integer.writeChars value ≠ [] := by
    rw [Integer.writeChars_of_nonneg h]
    exact Nat.toDigits_ne_nil
  exact scan_number some digits apart

theorem spells_binary {operator : String} (h : operator ∈ binaryOperators) :
    Spells operator.toList [Token.operator operator] := by
  intro rest _
  simp only [binaryOperators, List.mem_cons, List.not_mem_nil, or_false] at h
  rcases h with rfl | rfl | rfl | rfl | rfl | rfl | rfl | rfl
  · exact scan_punctuation rfl (.inr (by decide))
  · exact scan_punctuation rfl (.inr (by decide))
  · exact scan_punctuation rfl (.inr (by decide))
  · exact scan_punctuation rfl (.inr (by decide))
  · exact scan_punctuation rfl (.inr (by decide))
  · exact scan_punctuation rfl (.inr (by decide))
  · exact scan_equals rest
  · exact scan_notEquals rest

/-- A prefix operator is glued to its operand, which must not make it a longer operator. -/
theorem Spells.unary {operator : String} (h : operator ∈ unaryOperators) {text : List Char}
    {tokens : List Token} (some : text ≠ []) (free : text.head? ≠ Option.some '=')
    (operand : Spells text tokens) :
    Spells (operator.toList ++ text) (Token.operator operator :: tokens) := by
  intro rest apart
  have head : (text ++ rest).head? ≠ Option.some '=' := by
    cases text with
    | nil => exact absurd rfl some
    | cons c cs => exact free
  simp only [unaryOperators, List.mem_cons, List.not_mem_nil, or_false] at h
  rw [List.append_assoc, List.cons_append, ← operand rest apart]
  rcases h with rfl | rfl
  · exact scan_punctuation rfl (.inl head)
  · exact scan_punctuation rfl (.inr (by decide))

theorem spells_moreItems {texts : List (List Char)} {items : List (List Token)}
    (h : List.Forall₂ Spells texts items) :
    Spells (texts.flatMap fun next => [',', ' '] ++ next)
        (items.flatMap fun next => Token.symbol ',' :: next) ∧
      ∀ rest, Apart rest → Apart ((texts.flatMap fun next => [',', ' '] ++ next) ++ rest) := by
  induction h with
  | nil => exact ⟨Spells.nil, fun _ apart => apart⟩
  | cons next _ ih =>
    refine ⟨?_, fun rest _ => apart_mark (by decide) _⟩
    have item := next.append ih.1 ih.2
    exact Spells.mark (by decide) item.blank

theorem spells_commaSeparated {texts : List (List Char)} {items : List (List Token)}
    (h : List.Forall₂ Spells texts items) : Spells (commaSeparated texts) (commaTokens items) := by
  cases h with
  | nil => exact Spells.nil
  | cons first others =>
    have more := spells_moreItems others
    exact first.append more.1 more.2

theorem head?_of_isName {name : String} (h : isName name = true) :
    name.toList ≠ [] ∧ name.toList.head? ≠ some '=' := by
  simp only [isName, Bool.and_eq_true] at h
  obtain ⟨c, hc, starts⟩ := (Option.any_eq_true _ _).1 h.1.1
  refine ⟨fun none => by simp [none] at hc, fun equals => ?_⟩
  rw [hc] at equals
  cases equals
  rw [isWordStart_of_ascii (by decide)] at starts
  exact absurd starts (by decide)

/-- No canonical text of an expression begins with what would lengthen a prefix operator. -/
theorem Expr.head?_chars (value : Expr) (h : value.wellFormed = true) :
    value.chars ≠ [] ∧ value.chars.head? ≠ some '=' := by
  cases value with
  | identifier _ => exact head?_of_isName h
  | integer _ => exact head?_of_integer (of_decide_eq_true h)
  | boolean value => cases value <;> decide
  | unary _ _ => simp [Expr.chars]
  | binary _ _ _ => simp [Expr.chars]
  | conditional _ _ _ => simp [Expr.chars]
  | function _ _ => simp [Expr.chars]
  | call callee _ =>
    rw [Expr.wellFormed, Bool.and_eq_true] at h
    obtain ⟨some, free⟩ := Expr.head?_chars callee h.1
    cases text : callee.chars with
    | nil => exact absurd text some
    | cons c cs =>
      rw [text] at free
      simpa [Expr.chars, text] using free

theorem spells_braced {body : Block}
    (h : Spells (Program.chars body) (Program.tokens body)) :
    Spells (Block.chars body) (braced (Program.tokens body)) := by
  cases body with
  | nil => exact Spells.mark (by decide) (Spells.mark (by decide) Spells.nil)
  | cons stmt rest =>
    have inside := h.append_blank (Spells.mark (c := '}') (by decide) Spells.nil)
    have whole := Spells.mark (c := '{') (by decide) inside.blank
    rw [Block.chars_cons]
    simpa [braced] using whole

theorem spells_parameters {names : List String} (h : names.all isName = true) :
    Spells (commaSeparated (names.map String.toList))
      (commaTokens (names.map fun name => [Token.word name])) := by
  apply spells_commaSeparated
  rw [List.forall₂_map_left_iff, List.forall₂_map_right_iff, List.forall₂_same]
  exact fun name member => spells_name (List.all_eq_true.1 h name member)

mutual

theorem Expr.spells : ∀ value : Expr, value.wellFormed = true → Spells value.chars value.tokens
  | .identifier _, h => spells_name h
  | .integer _, h => spells_integer (of_decide_eq_true h)
  | .boolean true, _ => spells_keyword (by decide : ("true", TokenKind.trueKeyword) ∈ keywords)
  | .boolean false, _ => spells_keyword (by decide : ("false", TokenKind.falseKeyword) ∈ keywords)
  | .unary operator operand, h => by
    rw [Expr.wellFormed, Bool.and_eq_true, List.contains_iff_mem] at h
    obtain ⟨some, free⟩ := Expr.head?_chars operand h.2
    have inner := Spells.unary h.1 some free (Expr.spells operand h.2)
    have whole := Spells.mark (c := '(') (by decide)
      (inner.append_mark (c := ')') (by decide) Spells.nil)
    simpa [Expr.chars, Expr.tokens] using whole
  | .binary left operator right, h => by
    rw [Expr.wellFormed, Bool.and_eq_true, Bool.and_eq_true, List.contains_iff_mem] at h
    have first := Expr.spells left h.1.1
    have second := Expr.spells right h.2
    have inner := first.append_blank ((spells_binary h.1.2).append_blank second)
    have whole := Spells.mark (c := '(') (by decide)
      (inner.append_mark (c := ')') (by decide) Spells.nil)
    simpa [Expr.chars, Expr.tokens] using whole
  | .conditional condition consequence alternative, h => by
    rw [Expr.wellFormed, Bool.and_eq_true, Bool.and_eq_true] at h
    have keyword := spells_keyword (by decide : ("if", TokenKind.ifKeyword) ∈ keywords)
    have test := Expr.spells condition h.1.1
    have first := spells_braced (Program.spells consequence h.1.2)
    have second := Block.spellsElse alternative h.2
    have blocks := first.append second.1 second.2
    have whole := keyword.append_blank (Spells.mark (c := '(') (by decide)
      (test.append_mark (c := ')') (by decide) blocks.blank))
    simpa [Expr.chars, Expr.tokens] using whole
  | .function parameters body, h => by
    rw [Expr.wellFormed, Bool.and_eq_true] at h
    have keyword := spells_keyword (by decide : ("fn", TokenKind.fnKeyword) ∈ keywords)
    have inner := spells_braced (Program.spells body h.2)
    have whole := keyword.append_mark (c := '(') (by decide)
      ((spells_parameters h.1).append_mark (c := ')') (by decide) inner.blank)
    simpa [Expr.chars, Expr.tokens] using whole
  | .call callee arguments, h => by
    rw [Expr.wellFormed, Bool.and_eq_true] at h
    have first := Expr.spells callee h.1
    have values := spells_commaSeparated (Expr.spellsEach arguments h.2)
    have whole := first.append_mark (c := '(') (by decide)
      (values.append_mark (c := ')') (by decide) Spells.nil)
    simpa [Expr.chars, Expr.tokens] using whole

theorem Expr.spellsEach : ∀ values : List Expr, Expr.wellFormedEach values = true →
    List.Forall₂ Spells (Expr.charsEach values) (Expr.tokensEach values)
  | [], _ => .nil
  | value :: values, h => by
    rw [Expr.wellFormedEach, Bool.and_eq_true] at h
    exact .cons (Expr.spells value h.1) (Expr.spellsEach values h.2)

theorem Stmt.spells : ∀ stmt : Stmt, stmt.wellFormed = true → Spells stmt.chars stmt.tokens
  | .letBinding name value, h => by
    rw [Stmt.wellFormed, Bool.and_eq_true] at h
    have keyword := spells_keyword (by decide : ("let", TokenKind.letKeyword) ∈ keywords)
    have inner := (Expr.spells value h.2).append_mark (c := ';') (by decide) Spells.nil
    have whole := keyword.append_blank ((spells_name h.1).append_blank (spells_assignment inner))
    simpa [Stmt.chars, Stmt.tokens] using whole
  | .returning value, h => by
    have keyword := spells_keyword (by decide : ("return", TokenKind.returnKeyword) ∈ keywords)
    have inner := (Expr.spells value h).append_mark (c := ';') (by decide) Spells.nil
    simpa [Stmt.chars, Stmt.tokens] using keyword.append_blank inner
  | .expression value, h => Expr.spells value h
  | .block _, h => by cases h

theorem Program.spells : ∀ program : List Stmt, Program.wellFormed program = true →
    Spells (Program.chars program) (Program.tokens program)
  | [], _ => Spells.nil
  | [stmt], h => by
    rw [Program.wellFormed, Bool.and_eq_true] at h
    simpa [Program.chars, Program.tokens, Stmt.terminator] using Stmt.spells stmt h.1
  | stmt :: next :: rest, h => by
    rw [Program.wellFormed, Bool.and_eq_true] at h
    have first := Stmt.spells stmt h.1
    have later := Program.spells (next :: rest) h.2
    rw [Program.chars, Program.tokens, Stmt.terminator]
    by_cases terminated : stmt.needsTerminator = true
    · simpa [terminated] using first.append_mark (c := ';') (by decide) later.blank
    · simpa [terminated] using first.append_blank later

theorem Block.spellsElse : ∀ body : Option (List Stmt), Block.wellFormedElse body = true →
    Spells (Block.elseChars body) (Block.elseTokens body) ∧
      ∀ rest, Apart rest → Apart (Block.elseChars body ++ rest)
  | none, _ => ⟨Spells.nil, fun _ apart => apart⟩
  | some body, h => by
    have keyword := spells_keyword (by decide : ("else", TokenKind.elseKeyword) ∈ keywords)
    have inner := spells_braced (Program.spells body h)
    refine ⟨?_, fun rest _ => apart_mark (by decide) _⟩
    simpa [Block.elseChars, Block.elseTokens] using (keyword.append_blank inner).blank

end

/-- The canonical text of a well-formed program is lexed to its canonical tokens. -/
theorem tokenize_text {program : Program} (h : Program.wellFormed program = true) :
    tokenize (Program.text program) = Program.tokens program ++ [Token.eof] := by
  have spelled := Program.spells program h [] apart_nil
  rw [List.append_nil, scan_nil] at spelled
  rw [tokenize_eq_scan, Program.text, String.toList_ofList, spelled]

end Monkey
