import Monkey.Proofs.Canonical

set_option autoImplicit false

namespace Monkey

section Texts

variable (rest : List Char)

def argumentChars (arguments : List Expr) : List Char :=
  ['('] ++ commaSeparated (arguments.map Expr.chars) ++ [')']

theorem Expr.charsEach_eq_map (values : List Expr) :
    Expr.charsEach values = values.map Expr.chars := by
  induction values with
  | nil => rfl
  | cons value values ih => rw [Expr.charsEach, ih, List.map_cons]

theorem Expr.true_chars : (Expr.boolean true).chars = "true".toList := by simp [Expr.chars]

theorem Expr.false_chars : (Expr.boolean false).chars = "false".toList := by simp [Expr.chars]

theorem Expr.unary_chars_append (operator : String) (operand : Expr) :
    (Expr.unary operator operand).chars ++ rest =
      '(' :: (operator.toList ++ (operand.chars ++ ')' :: rest)) := by
  simp [Expr.chars]

theorem Expr.binary_chars_append (left : Expr) (operator : String) (right : Expr) :
    (Expr.binary left operator right).chars ++ rest =
      '(' :: (left.chars ++ ' ' :: (operator.toList ++ ' ' :: (right.chars ++ ')' :: rest))) := by
  simp [Expr.chars]

theorem Expr.conditional_chars_append (condition : Expr) (consequence : Block)
    (alternative : Option Block) :
    (Expr.conditional condition consequence alternative).chars ++ rest =
      "if".toList ++ ' ' :: '(' :: (condition.chars ++ ')' :: ' ' ::
        (Block.chars consequence ++ (Block.elseChars alternative ++ rest))) := by
  simp [Expr.chars]

theorem Expr.function_chars_append (parameters : List String) (body : Block) :
    (Expr.function parameters body).chars ++ rest =
      "fn".toList ++ '(' :: (commaSeparated (parameters.map String.toList) ++ ')' :: ' ' ::
        (Block.chars body ++ rest)) := by
  simp [Expr.chars]

theorem Expr.call_chars_append (callee : Expr) (arguments : List Expr) :
    (Expr.call callee arguments).chars ++ rest =
      callee.chars ++ (argumentChars arguments ++ rest) := by
  simp [Expr.chars, argumentChars, Expr.charsEach_eq_map]

theorem Stmt.let_chars_append (name : String) (value : Expr) :
    (Stmt.letBinding name value).chars ++ rest =
      "let".toList ++ ' ' ::
        (name.toList ++ ' ' :: '=' :: ' ' :: (value.chars ++ ';' :: rest)) := by
  simp [Stmt.chars]

theorem Stmt.return_chars_append (value : Expr) :
    (Stmt.returning value).chars ++ rest =
      "return".toList ++ ' ' :: (value.chars ++ ';' :: rest) := by
  simp [Stmt.chars]

end Texts

/-- An expression with argument lists behind it. -/
def Expr.calledWith (callee : Expr) (lists : List (List Expr)) : Expr := lists.foldl .call callee

def spineChars (lists : List (List Expr)) : List Char := lists.flatMap argumentChars

namespace Expr

variable {callee value : Expr} {arguments : List Expr} {lists : List (List Expr)}

theorem calledWith_append_singleton :
    callee.calledWith (lists ++ [arguments]) = .call (callee.calledWith lists) arguments := by
  simp [calledWith]

theorem chars_calledWith_append (rest : List Char) :
    (callee.calledWith lists).chars ++ rest = callee.chars ++ (spineChars lists ++ rest) := by
  induction lists generalizing callee with
  | nil => rfl
  | cons arguments lists ih =>
    have inner := @ih (.call callee arguments)
    rw [call_chars_append] at inner
    simpa [calledWith, spineChars] using inner

/-- Every expression has a callee that is no call, with argument lists behind it. -/
theorem exists_calledWith : ∀ value : Expr, ∃ (callee : Expr) (lists : List (List Expr)),
    value = callee.calledWith lists ∧ callee.calls = 0
  | .call callee arguments => by
    obtain ⟨inner, lists, rfl, flat⟩ := exists_calledWith callee
    exact ⟨inner, lists ++ [arguments], calledWith_append_singleton.symm, flat⟩
  | .identifier name => ⟨_, [], rfl, rfl⟩
  | .integer value => ⟨_, [], rfl, rfl⟩
  | .boolean value => ⟨_, [], rfl, rfl⟩
  | .unary operator operand => ⟨_, [], rfl, rfl⟩
  | .binary left operator right => ⟨_, [], rfl, rfl⟩
  | .conditional condition consequence alternative => ⟨_, [], rfl, rfl⟩
  | .function parameters body => ⟨_, [], rfl, rfl⟩

end Expr

/-- The kind of lexeme that the text of an expression begins with. -/
def Expr.opening : Expr → TokenKind
  | .identifier _ => .identifier
  | .integer value => if value.toInt < 0 then .dash else .number
  | .boolean value => if value then .trueKeyword else .falseKeyword
  | .unary _ _ => .openParen
  | .binary _ _ _ => .openParen
  | .conditional _ _ _ => .ifKeyword
  | .function _ _ => .fnKeyword
  | .call callee _ => callee.opening

def Stmt.opening : Stmt → TokenKind
  | .letBinding _ _ => .letKeyword
  | .returning _ => .returnKeyword
  | .expression value => value.opening
  | .block _ => .openCurly

def Expr.openingKinds : List TokenKind :=
  [.identifier, .number, .dash, .trueKeyword, .falseKeyword, .openParen, .ifKeyword, .fnKeyword]

def Stmt.openingKinds : List TokenKind :=
  .letKeyword :: .returnKeyword :: .openCurly :: Expr.openingKinds

theorem Expr.opening_mem (value : Expr) : value.opening ∈ openingKinds := by
  cases value with
  | integer value =>
    rw [Expr.opening]
    split <;> decide
  | boolean value => cases value <;> decide
  | call callee _ => exact callee.opening_mem
  | _ => simp [Expr.opening, openingKinds]

theorem Expr.opening_ne (value : Expr) : value.opening ≠ .letKeyword ∧
    value.opening ≠ .returnKeyword ∧ value.opening ≠ .openCurly := by
  have other : ∀ kind ∈ openingKinds, kind ≠ .letKeyword ∧ kind ≠ .returnKeyword ∧
      kind ≠ .openCurly := by decide
  exact other _ value.opening_mem

theorem Stmt.opening_mem (stmt : Stmt) : stmt.opening ∈ openingKinds := by
  cases stmt with
  | expression value => simp [Stmt.opening, openingKinds, value.opening_mem]
  | _ => simp [Stmt.opening, openingKinds]

theorem Block.head?_chars (body : Block) (rest : List Char) :
    ∃ more, Block.chars body ++ rest = '{' :: more := by
  cases body with
  | nil => exact ⟨_, rfl⟩
  | cons stmt stmts => exact ⟨_, rfl⟩

variable [Alphabet]

mutual

/-- The names are names and the operators are operators. -/
def Expr.legible : Expr → Bool
  | .identifier name => isName name
  | .integer _ => true
  | .boolean _ => true
  | .unary operator operand => unaryOperators.contains operator && operand.legible
  | .binary left operator right =>
    left.legible && binaryOperators.contains operator && right.legible
  | .conditional condition consequence alternative =>
    condition.legible && Program.legible consequence && Block.legibleElse alternative
  | .function parameters body => parameters.all isName && Program.legible body
  | .call callee arguments => callee.legible && Expr.legibleEach arguments

def Expr.legibleEach : List Expr → Bool
  | [] => true
  | value :: values => value.legible && Expr.legibleEach values

def Stmt.legible : Stmt → Bool
  | .letBinding name value => isName name && value.legible
  | .returning value => value.legible
  | .expression value => value.legible
  | .block body => Program.legible body

def Program.legible : List Stmt → Bool
  | [] => true
  | stmt :: rest => stmt.legible && Program.legible rest

def Block.legibleElse : Option (List Stmt) → Bool
  | none => true
  | some body => Program.legible body

end

theorem Expr.legibleEach_iff (values : List Expr) :
    Expr.legibleEach values = true ↔ ∀ value ∈ values, value.legible = true := by
  induction values with
  | nil => simp [Expr.legibleEach]
  | cons value values ih => simp [Expr.legibleEach, ih]

theorem Expr.legible_calledWith {callee : Expr} {lists : List (List Expr)} :
    (callee.calledWith lists).legible = true ↔
      callee.legible = true ∧ ∀ arguments ∈ lists, ∀ value ∈ arguments, value.legible = true := by
  induction lists generalizing callee with
  | nil => simp [calledWith]
  | cons arguments lists ih =>
    have inner := @ih (.call callee arguments)
    simp only [legible, Bool.and_eq_true, legibleEach_iff] at inner
    simpa [calledWith, and_assoc] using inner

/-- The kind of the first lexeme of a text. -/
def leadingKind (text : List Char) : TokenKind := (Lexeme.first text).token.kind

theorem leadingKind_word {word : String} {rest : List Char}
    (start : word.toList.head?.any isWordStart = true)
    (parts : word.toList.all isWordPart = true) (apart : Apart rest) :
    leadingKind (word.toList ++ rest) = wordKind word := by
  rw [leadingKind, Lexeme.first_word start (apart.run_word parts)]
  simp [Lexeme.token, Lexer.kindOf]

theorem leadingKind_keyword {word : String} {kind : TokenKind} {rest : List Char}
    (h : (word, kind) ∈ keywords) (apart : Apart rest) :
    leadingKind (word.toList ++ rest) = kind := by
  obtain ⟨start, parts⟩ := word_of_mem_keywords h
  rw [leadingKind_word start parts apart, wordKind_of_mem h]

theorem leadingKind_mark {c : Char} {kind : TokenKind} (known : punctuationKind? c = some kind)
    (single : c ≠ '=' ∧ c ≠ '!') (rest : List Char) : leadingKind (c :: rest) = kind := by
  obtain ⟨-, digit, part⟩ := of_mem_punctuation (mem_punctuation_iff.2 known)
  have first : Lexeme.first (c :: rest) = _ :=
    Lexeme.first_single digit (isWordStart_of_not_isWordPart part) (.inr single)
  rw [known] at first
  rw [leadingKind, first]
  rfl

theorem name_unique {name other : String} {rest beyond : List Char} (h : isName name = true)
    (hother : isName other = true) (apart : Apart rest) (apartBeyond : Apart beyond)
    (same : name.toList ++ rest = other.toList ++ beyond) : name = other ∧ rest = beyond := by
  simp only [isName, Bool.and_eq_true] at h hother
  obtain ⟨texts, later⟩ :=
    (apart.run_word h.1.2).unique (apartBeyond.run_word hother.1.2) same
  exact ⟨String.toList_inj.1 texts, later⟩

theorem toDigits_unique {m n : Nat} {rest beyond : List Char} (apart : Apart rest)
    (apartBeyond : Apart beyond)
    (same : Nat.toDigits 10 m ++ rest = Nat.toDigits 10 n ++ beyond) :
    Nat.toDigits 10 m = Nat.toDigits 10 n ∧ rest = beyond :=
  (apart.run_digits (Integer.all_isDigit_toDigits m)).unique
    (apartBeyond.run_digits (Integer.all_isDigit_toDigits n)) same

theorem leadingKind_nil : leadingKind [] = .eof := rfl

theorem leadingKind_blank (rest : List Char) : leadingKind (' ' :: rest) = .illegal := by
  have first : Lexeme.first (' ' :: rest) = _ :=
    Lexeme.first_single (by decide) (isWordStart_of_ascii (by decide)) (.inr (by decide))
  rw [leadingKind, first]
  rfl

theorem leadingKind_exclamation (rest : List Char) :
    leadingKind ('!' :: rest) = .not ∨ leadingKind ('!' :: rest) = .notEquals := by
  by_cases longer : rest.head? = some '='
  · obtain ⟨more, rfl⟩ := List.head?_eq_some_iff.1 longer
    exact .inr (by rw [leadingKind, Lexeme.first_notEquals]; rfl)
  · have first : Lexeme.first ('!' :: rest) = _ :=
      Lexeme.first_single (by decide) (isWordStart_of_ascii (by decide)) (.inl longer)
    exact .inl (by rw [leadingKind, first]; rfl)

theorem leadingKind_digits (n : Nat) {rest : List Char} (apart : Apart rest) :
    leadingKind (Nat.toDigits 10 n ++ rest) = .number := by
  have run := apart.run_digits (Integer.all_isDigit_toDigits n)
  rw [leadingKind, Lexeme.first_number Nat.toDigits_ne_nil run
    fun c hc => isWordStart_of_not_isWordPart (apart.not_isWordPart hc)]
  rfl

theorem Expr.leadingKind_chars {rest : List Char} (apart : Apart rest) : ∀ value : Expr,
    value.legible = true → leadingKind (value.chars ++ rest) = value.opening
  | .identifier name, h => by
    have kind := kind_of_isName h
    simp only [Expr.legible, isName, Bool.and_eq_true] at h
    exact (leadingKind_word h.1.1 h.1.2 apart).trans kind
  | .integer value, _ => by
    rw [Expr.chars, Expr.opening, Integer.writeChars]
    split
    · exact leadingKind_mark rfl (by decide) _
    · exact leadingKind_digits _ apart
  | .boolean true, _ => by
    rw [Expr.true_chars]
    exact leadingKind_keyword (by decide : ("true", TokenKind.trueKeyword) ∈ keywords) apart
  | .boolean false, _ => by
    rw [Expr.false_chars]
    exact leadingKind_keyword (by decide : ("false", TokenKind.falseKeyword) ∈ keywords) apart
  | .unary operator operand, _ => leadingKind_mark rfl (by decide) _
  | .binary left operator right, _ => leadingKind_mark rfl (by decide) _
  | .conditional condition consequence alternative, _ => by
    rw [Expr.conditional_chars_append]
    exact leadingKind_keyword (by decide : ("if", TokenKind.ifKeyword) ∈ keywords)
      (apart_mark (by decide) _)
  | .function parameters body, _ => by
    rw [Expr.function_chars_append]
    exact leadingKind_keyword (by decide : ("fn", TokenKind.fnKeyword) ∈ keywords)
      (apart_mark (by decide) _)
  | .call callee arguments, h => by
    rw [Expr.legible, Bool.and_eq_true] at h
    rw [Expr.call_chars_append]
    exact Expr.leadingKind_chars (apart_mark (by decide) _) callee h.1

theorem Expr.head?_chars_ne {value : Expr} {rest : List Char} {c : Char}
    (legible : value.legible = true) (apart : Apart rest)
    (other : ∀ more, leadingKind (c :: more) ∉ Expr.openingKinds) :
    (value.chars ++ rest).head? ≠ some c := by
  intro head
  obtain ⟨more, text⟩ := List.head?_eq_some_iff.1 head
  have kind := Expr.leadingKind_chars apart value legible
  rw [text] at kind
  exact other more (kind ▸ value.opening_mem)

theorem Stmt.leadingKind_chars {stmt : Stmt} {rest : List Char} (legible : stmt.legible = true)
    (apart : stmt.needsTerminator = true → Apart rest) :
    leadingKind (stmt.chars ++ rest) = stmt.opening := by
  cases stmt with
  | letBinding name value =>
    rw [Stmt.let_chars_append]
    exact leadingKind_keyword (by decide : ("let", TokenKind.letKeyword) ∈ keywords)
      (apart_mark (by decide) _)
  | returning value =>
    rw [Stmt.return_chars_append]
    exact leadingKind_keyword (by decide : ("return", TokenKind.returnKeyword) ∈ keywords)
      (apart_mark (by decide) _)
  | expression value => exact Expr.leadingKind_chars (apart rfl) value legible
  | block body =>
    obtain ⟨more, text⟩ := Block.head?_chars body rest
    rw [Stmt.chars, text]
    exact leadingKind_mark rfl (by decide) more

end Monkey
