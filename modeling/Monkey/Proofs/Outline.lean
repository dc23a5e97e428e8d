import Mathlib.Data.List.Forall2
import Monkey.Parser

set_option autoImplicit false

/-!
# Outlines

An outline is a program, or an error, with a gap for each text that was taken from a token. The gap
holds the index of that token in the source.
-/
namespace Monkey

/-- The text that a source shows at an index. An end has none. -/
def wordingOf (source : List (Option Token)) (index : Nat) : String :=
  source[index]?.join.elim "" Token.literal

/-- The kind that a source shows at an index. No answer stands for an end. -/
def kindsOf (source : List (Option Token)) (index : Nat) : TokenKind :=
  source[index]?.join.elim .eof Token.kind

/-- An answer in other words: a token of the same kind for a token. A number stays one that can be
read, or one that cannot. -/
inductive Reworded : Option Token → Option Token → Prop where
  | none : Reworded none none
  | some {token other : Token} (kind : other.kind = token.kind)
      (readable : token.kind = .number →
        (Integer.read? other.literal).isSome = (Integer.read? token.literal).isSome) :
      Reworded (some token) (some other)

instance : DecidableRel Reworded
  | none, none => isTrue .none
  | none, some _ => isFalse nofun
  | some _, none => isFalse nofun
  | some token, some other =>
    decidable_of_iff (other.kind = token.kind ∧ (token.kind = .number →
        (Integer.read? other.literal).isSome = (Integer.read? token.literal).isSome))
      ⟨fun ⟨kind, readable⟩ => .some kind readable, fun | .some kind readable => ⟨kind, readable⟩⟩

theorem Reworded.refl (answer : Option Token) : Reworded answer answer := by
  cases answer with
  | none => exact .none
  | some token => exact .some rfl fun _ => rfl

/-- A source that says the same as another one in other words. -/
structure Rewording (source : List (Option Token)) where
  answers : List (Option Token)
  same : List.Forall₂ Reworded source answers

/-- The index of a token in a source, for a token of which something is known. -/
structure Spot (source : List (Option Token)) (good : Token → Prop) where
  index : Nat
  found : ∃ token, source[index]? = some (some token) ∧ good token

def unaryKinds : List TokenKind := [.not, .dash]

def binaryKinds : List TokenKind :=
  [.plus, .dash, .star, .slash, .less, .greater, .equals, .notEquals]

namespace Spot

variable (source : List (Option Token))

abbrev Name : Type := Spot source fun token => token.kind = .identifier

abbrev Number : Type := Spot source fun token =>
  token.kind = .number ∧ (Integer.read? token.literal).isSome = true

abbrev BadNumber : Type := Spot source fun token =>
  token.kind = .number ∧ Integer.read? token.literal = none

abbrev Illegal : Type := Spot source fun token => token.kind = .illegal

abbrev Unary : Type := Spot source fun token => token.kind ∈ unaryKinds

abbrev Binary : Type := Spot source fun token => token.kind ∈ binaryKinds

end Spot

mutual

inductive Expr.Outline (source : List (Option Token)) where
  | identifier (name : Spot.Name source)
  | integer (number : Spot.Number source)
  | boolean (value : Bool)
  | unary (operator : Spot.Unary source) (operand : Expr.Outline source)
  | binary (left : Expr.Outline source) (operator : Spot.Binary source)
      (right : Expr.Outline source)
  | conditional (condition : Expr.Outline source) (consequence : List (Stmt.Outline source))
      (alternative : Option (List (Stmt.Outline source)))
  | function (parameters : List (Spot.Name source)) (body : List (Stmt.Outline source))
  | call (callee : Expr.Outline source) (arguments : List (Expr.Outline source))

inductive Stmt.Outline (source : List (Option Token)) where
  | letBinding (name : Spot.Name source) (value : Expr.Outline source)
  | returning (value : Expr.Outline source)
  | expression (value : Expr.Outline source)
  | block (body : List (Stmt.Outline source))

end

/-- Of an error only the literal of a flawed token is open. -/
inductive ParseError.Outline (source : List (Option Token)) where
  | unexpectedToken (expected found : TokenKind)
  | noOperandForm (kind : TokenKind)
  | unreadableNumber (number : Spot.BadNumber source)
  | illegalToken (token : Spot.Illegal source)
  | nestingTooDeep (limit : Nat)

variable {source : List (Option Token)}

def Spot.ofKind {good : Token → Prop} {index : Nat} {kind : TokenKind}
    (shown : kindsOf source index = kind) (more : kind ≠ .eof)
    (known : ∀ token, token.kind = kind → token.literal = wordingOf source index → good token) :
    Spot source good where
  index := index
  found := by
    rw [kindsOf] at shown
    rw [wordingOf] at known
    rcases answer : source[index]? with _ | _ | token
    · rw [answer] at shown
      exact absurd shown.symm more
    · rw [answer] at shown
      exact absurd shown.symm more
    · rw [answer] at shown known
      exact ⟨token, rfl, known token shown rfl⟩

def Spot.ofKinds {index : Nat} {kinds : List TokenKind} (known : kindsOf source index ∈ kinds)
    (more : .eof ∉ kinds) : Spot source fun token => token.kind ∈ kinds :=
  .ofKind rfl (fun ended => more (ended ▸ known)) fun _ same _ => same ▸ known

namespace Rewording

def refl (source : List (Option Token)) : Rewording source :=
  ⟨source, List.forall₂_same.2 fun answer _ => Reworded.refl answer⟩

variable (rewording : Rewording source)

def wording (index : Nat) : String := wordingOf rewording.answers index

theorem length_eq : rewording.answers.length = source.length := rewording.same.length_eq.symm

theorem reworded (index : Nat) :
    Reworded source[index]?.join rewording.answers[index]?.join := by
  obtain ⟨other, same⟩ := rewording
  change Reworded source[index]?.join other[index]?.join
  induction same generalizing index with
  | nil => exact .none
  | cons here _ ih =>
    cases index with
    | zero => exact here
    | succ index => exact ih index

theorem kindsOf_eq (index : Nat) : kindsOf rewording.answers index = kindsOf source index := by
  have same := rewording.reworded index
  unfold kindsOf
  generalize source[index]?.join = answer at same ⊢
  generalize rewording.answers[index]?.join = other at same ⊢
  cases same with
  | none => rfl
  | some kind _ => exact kind

variable {good : Token → Prop}

/-- At a spot a rewording has a token in the place of the one that the source has. -/
theorem exists_other (spot : Spot source good) : ∃ token other,
    source[spot.index]? = some (some token) ∧ good token ∧
      rewording.answers[spot.index]? = some (some other) ∧
      Reworded (some token) (some other) := by
  obtain ⟨token, found, known⟩ := spot.found
  have same := rewording.reworded spot.index
  rw [found, Option.join_some] at same
  cases answer : rewording.answers[spot.index]? with
  | none =>
    rw [answer] at same
    cases same
  | some answered =>
    rw [answer, Option.join_some] at same
    cases answered with
    | none => cases same
    | some other => exact ⟨token, other, found, known, rfl, same⟩

def text (spot : Spot source good) : String := rewording.wording spot.index

theorem exists_readable_iff (spot : Spot source good) : ∃ token, good token ∧
    (token.kind = .number → (Integer.read? (rewording.text spot)).isSome =
      (Integer.read? token.literal).isSome) := by
  obtain ⟨token, other, -, known, answer, same⟩ := rewording.exists_other spot
  rw [text, wording, wordingOf, answer]
  cases same with
  | some _ readable => exact ⟨token, known, readable⟩

theorem readable_text (number : Spot.Number source) :
    (Integer.read? (rewording.text number)).isSome = true := by
  obtain ⟨token, ⟨kind, readable⟩, same⟩ := rewording.exists_readable_iff number
  rw [same kind, readable]

theorem unreadable_text (number : Spot.BadNumber source) :
    Integer.read? (rewording.text number) = none := by
  obtain ⟨token, ⟨kind, unreadable⟩, same⟩ := rewording.exists_readable_iff number
  rw [← Option.isNone_iff_eq_none, ← Option.not_isSome, same kind, unreadable]
  rfl

def integer (number : Spot.Number source) : Int64 :=
  (Integer.read? (rewording.text number)).get (rewording.readable_text number)

theorem read?_text (number : Spot.Number source) :
    Integer.read? (rewording.text number) = some (rewording.integer number) :=
  (Option.some_get _).symm

end Rewording

mutual

/-- The expression with the texts of a rewording. -/
def Expr.Outline.fill (rewording : Rewording source) : Expr.Outline source → Expr
  | .identifier name => .identifier (rewording.text name)
  | .integer number => .integer (rewording.integer number)
  | .boolean value => .boolean value
  | .unary operator operand =>
    .unary (rewording.text operator) (operand.fill rewording)
  | .binary left operator right =>
    .binary (left.fill rewording) (rewording.text operator) (right.fill rewording)
  | .conditional condition consequence alternative =>
    .conditional (condition.fill rewording) (Stmt.Outline.fillAll rewording consequence)
      (Stmt.Outline.fillElse rewording alternative)
  | .function parameters body =>
    .function (parameters.map rewording.text)
      (Stmt.Outline.fillAll rewording body)
  | .call callee arguments =>
    .call (callee.fill rewording) (Expr.Outline.fillAll rewording arguments)

def Expr.Outline.fillAll (rewording : Rewording source) :
    List (Expr.Outline source) → List Expr
  | [] => []
  | value :: values => value.fill rewording :: Expr.Outline.fillAll rewording values

def Stmt.Outline.fill (rewording : Rewording source) : Stmt.Outline source → Stmt
  | .letBinding name value =>
    .letBinding (rewording.text name) (value.fill rewording)
  | .returning value => .returning (value.fill rewording)
  | .expression value => .expression (value.fill rewording)
  | .block body => .block (Stmt.Outline.fillAll rewording body)

def Stmt.Outline.fillAll (rewording : Rewording source) :
    List (Stmt.Outline source) → List Stmt
  | [] => []
  | stmt :: rest => stmt.fill rewording :: Stmt.Outline.fillAll rewording rest

def Stmt.Outline.fillElse (rewording : Rewording source) :
    Option (List (Stmt.Outline source)) → Option (List Stmt)
  | none => none
  | some body => some (Stmt.Outline.fillAll rewording body)

end

theorem Expr.Outline.fillAll_eq (rewording : Rewording source)
    (values : List (Expr.Outline source)) :
    Expr.Outline.fillAll rewording values = values.map (Expr.Outline.fill rewording) := by
  induction values with
  | nil => rfl
  | cons value values ih => rw [Expr.Outline.fillAll, ih, List.map_cons]

namespace ParseError.Outline

def fill (rewording : Rewording source) : ParseError.Outline source → ParseError
  | unexpectedToken expected found => .unexpectedToken expected found
  | noOperandForm kind => .noOperandForm kind
  | unreadableNumber number => .unreadableNumber (rewording.text number)
  | illegalToken token => .illegalToken (rewording.text token)
  | nestingTooDeep limit => .nestingTooDeep limit

def isFatal : ParseError.Outline source → Bool
  | nestingTooDeep _ => true
  | _ => false

theorem isFatal_fill (rewording : Rewording source) (error : ParseError.Outline source) :
    (error.fill rewording).isFatal = error.isFatal := by
  cases error <;> rfl

end ParseError.Outline

end Monkey
