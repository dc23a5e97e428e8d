import Monkey.Lexeme

set_option autoImplicit false

/-!
# The lexer

Characters that were stepped over by hand since the last lexeme are held, and go in front of the
next one, unless blanks or the end of the text come first.
-/
namespace Monkey

inductive Flaw where
  | badNumber
  | unrecognised
  deriving DecidableEq, Repr

def Flaw.reason : Flaw → String
  | badNumber => "bad number syntax"
  | unrecognised => "unrecognised character"

/-- A token, the byte offset at which it begins, and its flaw if it is illegal. -/
structure Emission where
  token : Token
  offset : Nat
  flaw : Option Flaw
  deriving DecidableEq, Repr

def byteSize : List Char → Nat
  | [] => 0
  | c :: cs => c.utf8Size + byteSize cs

structure Lexer where
  start : Nat
  held : List Char
  rest : List Char
  finished : Bool
  deriving DecidableEq, Repr

namespace Lexer

def ofChars (cs : List Char) : Lexer := ⟨0, [], cs, false⟩

def ofString (source : String) : Lexer := ofChars source.toList

/-- Steps over blanks. Before blanks and before the end of the text, what was held is dropped. -/
def skipBlanks (lexer : Lexer) : Lexer :=
  if lexer.rest.head?.all isBlank then
    { lexer with
      start := lexer.start + byteSize lexer.held + byteSize (lexer.rest.takeWhile isBlank)
      held := []
      rest := lexer.rest.dropWhile isBlank }
  else lexer

def kindOf (shape : Shape) (text : String) : TokenKind :=
  match shape with
  | .endOfText => .eof
  | .word => wordKind text
  | .number => .number
  | .punctuation kind => kind
  | .badNumber => .illegal
  | .unrecognised => .illegal

def flawOf : Shape → Option Flaw
  | .badNumber => some .badNumber
  | .unrecognised => some .unrecognised
  | _ => none

def stopsAfter (shape : Shape) : Bool := shape = .endOfText || (flawOf shape).isSome

/-- The token of a lexeme, with what was held in front, and the lexer behind it. -/
def emit (lexer : Lexer) (lexeme : Lexeme) : Emission × Lexer :=
  let literal := String.ofList (lexer.held ++ lexeme.text)
  (⟨⟨kindOf lexeme.shape literal, literal⟩, lexer.start, flawOf lexeme.shape⟩,
    { start := lexer.start + byteSize lexer.held + byteSize lexeme.text
      held := []
      rest := lexeme.rest
      finished := stopsAfter lexeme.shape })

def remaining (lexer : Lexer) : Nat := if lexer.finished then 0 else lexer.rest.length + 1

theorem skipBlanks_rest_length_le (lexer : Lexer) :
    lexer.skipBlanks.rest.length ≤ lexer.rest.length := by
  unfold skipBlanks
  split
  · exact (List.dropWhile_sublist isBlank).length_le
  · exact Nat.le_refl _

variable [Alphabet]

def next? (lexer : Lexer) : Option (Emission × Lexer) :=
  if lexer.finished then none
  else
    let ready := lexer.skipBlanks
    some (ready.emit (Lexeme.first ready.rest))

theorem next?_remaining_lt {lexer after : Lexer} {emission : Emission}
    (step : lexer.next? = some (emission, after)) : after.remaining < lexer.remaining := by
  unfold next? at step
  split at step
  · cases step
  · rename_i running
    simp only [Option.some.injEq, emit, Prod.mk.injEq] at step
    obtain ⟨_, rfl⟩ := step
    have skipped := skipBlanks_rest_length_le lexer
    cases text : lexer.skipBlanks.rest with
    | nil => simp [remaining, Lexeme.first, stopsAfter, running]
    | cons c cs =>
      have shorter : (Lexeme.first (c :: cs)).rest.length < (c :: cs).length :=
        Lexeme.first_rest_length_lt (by simp)
      rw [text] at skipped
      simp only [remaining, running]
      split <;> simp only [Bool.false_eq_true, if_false] <;> omega

def drain (lexer : Lexer) : List Emission × Lexer :=
  match step : lexer.next? with
  | none => ([], lexer)
  | some (emission, after) =>
    have := next?_remaining_lt step
    let later := after.drain
    (emission :: later.1, later.2)
termination_by lexer.remaining

def emissions (lexer : Lexer) : List Emission := lexer.drain.1

def tokens (lexer : Lexer) : List Token := lexer.emissions.map (·.token)

theorem drain_of_stopped {lexer : Lexer} (stopped : lexer.next? = none) :
    lexer.drain = ([], lexer) := by
  rw [drain]
  split
  · rfl
  · rename_i step
    rw [stopped] at step
    cases step

theorem drain_of_step {lexer after : Lexer} {emission : Emission}
    (step : lexer.next? = some (emission, after)) :
    lexer.drain = (emission :: after.drain.1, after.drain.2) := by
  rw [drain]
  split
  · rename_i stopped
    rw [stopped] at step
    cases step
  · rename_i other
    rw [step] at other
    cases other
    rfl

theorem tokens_of_stopped {lexer : Lexer} (stopped : lexer.next? = none) : lexer.tokens = [] := by
  simp [tokens, emissions, drain_of_stopped stopped]

theorem tokens_of_step {lexer after : Lexer} {emission : Emission}
    (step : lexer.next? = some (emission, after)) :
    lexer.tokens = emission.token :: after.tokens := by
  simp [tokens, emissions, drain_of_step step]

end Lexer

/-- All tokens of a source. The last is the end of the text or the first illegal lexeme. -/
def tokenize [Alphabet] (source : String) : List Token := (Lexer.ofString source).tokens

end Monkey
