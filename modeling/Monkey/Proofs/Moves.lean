import Monkey.Grammar.Level
import Monkey.Proofs.View

set_option autoImplicit false

/-!
# What parsing can do to a cursor

Every action moves its cursor by advances, recorded errors, opened levels and, with the fatal error
only, by giving up the source. What these moves keep is kept by every action.
-/
namespace Monkey

/-- One move of a cursor. -/
inductive Move where
  | advance
  | record (error : ParseError)
  | reach (depth : Nat)
  | abandon
  deriving DecidableEq

namespace Cursor

def move (cursor : Cursor) : Move → Cursor
  | .advance => cursor.advance
  | .record error => cursor.record error
  | .reach depth => cursor.reach depth
  | .abandon => cursor.abandon

def moves (cursor : Cursor) (trail : List Move) : Cursor := trail.foldl move cursor

@[simp] theorem moves_nil (cursor : Cursor) : cursor.moves [] = cursor := rfl

@[simp] theorem moves_cons (cursor : Cursor) (move : Move) (trail : List Move) :
    cursor.moves (move :: trail) = (cursor.move move).moves trail := rfl

theorem moves_append (cursor : Cursor) (first later : List Move) :
    cursor.moves (first ++ later) = (cursor.moves first).moves later :=
  List.foldl_append

theorem Settled.move {cursor : Cursor} (h : cursor.Settled) (move : Move) :
    (cursor.move move).Settled := by
  cases move with
  | advance => exact h.advance
  | record error => exact h.record error
  | reach depth => exact h.reach depth
  | abandon => exact settled_abandon cursor

theorem Settled.moves {cursor : Cursor} (h : cursor.Settled) (trail : List Move) :
    (cursor.moves trail).Settled := by
  induction trail generalizing cursor with
  | nil => exact h
  | cons move trail ih => exact ih (h.move move)

def recordedOn : List Move → List ParseError
  | [] => []
  | .record error :: trail => error :: recordedOn trail
  | _ :: trail => recordedOn trail

theorem errors_moves (cursor : Cursor) (trail : List Move) :
    (cursor.moves trail).errors = cursor.errors ++ recordedOn trail := by
  induction trail generalizing cursor with
  | nil => simp [recordedOn]
  | cons move trail ih =>
    rw [moves_cons, ih]
    cases move with
    | advance => simp [Cursor.move, recordedOn, errors_advance]
    | record error => simp [Cursor.move, recordedOn, errors_record]
    | reach depth => simp [Cursor.move, recordedOn, errors_reach]
    | abandon => simp [Cursor.move, recordedOn, errors_abandon]

theorem deepest_le_moves (cursor : Cursor) (trail : List Move) :
    cursor.deepest ≤ (cursor.moves trail).deepest := by
  induction trail generalizing cursor with
  | nil => exact Nat.le_refl _
  | cons move trail ih =>
    refine Nat.le_trans ?_ (ih (cursor.move move))
    cases move with
    | advance => exact Nat.le_of_eq (deepest_advance cursor).symm
    | record error => exact Nat.le_refl _
    | reach depth => exact Nat.le_max_left _ _
    | abandon => exact Nat.le_refl _

/-- Where a cursor gets while nothing fatal has happened. -/
inductive Calm (cursor : Cursor) : Cursor → Prop where
  | refl : Calm cursor cursor
  | advance {last : Cursor} (walk : Calm cursor last) : Calm cursor last.advance
  | record {last : Cursor} {error : ParseError} (walk : Calm cursor last)
      (mild : error.isFatal = false) : Calm cursor (last.record error)
  | reach {last : Cursor} {depth : Nat} (walk : Calm cursor last) :
      Calm cursor (last.reach depth)

theorem Calm.trans {cursor middle last : Cursor} (h : cursor.Calm middle)
    (later : middle.Calm last) : cursor.Calm last := by
  induction later with
  | refl => exact h
  | advance _ ih => exact ih.advance
  | record _ mild ih => exact ih.record mild
  | reach _ ih => exact ih.reach

theorem Calm.trail {cursor last : Cursor} (h : cursor.Calm last) :
    ∃ trail, Move.abandon ∉ trail ∧ last = cursor.moves trail := by
  have step {middle : Cursor} (move : Move) (kept : move ≠ .abandon)
      (walked : ∃ trail, Move.abandon ∉ trail ∧ middle = cursor.moves trail) :
      ∃ trail, Move.abandon ∉ trail ∧ middle.move move = cursor.moves trail := by
    obtain ⟨trail, onward, rfl⟩ := walked
    refine ⟨trail ++ [move], ?_, by rw [moves_append, moves_cons, moves_nil]⟩
    simp [onward, kept.symm]
  induction h with
  | refl => exact ⟨[], List.not_mem_nil, rfl⟩
  | advance _ ih => exact step .advance (by simp) ih
  | @record _ error _ _ ih => exact step (.record error) (by simp) ih
  | @reach _ depth _ ih => exact step (.reach depth) (by simp) ih

end Cursor

namespace Parse

def leaves {α : Type} : EStateM.Result ParseError Cursor α → Cursor
  | .ok _ cursor => cursor
  | .error _ cursor => cursor

section Sequencing

variable {α β : Type} {first : Parse α} {next : α → Parse β} {cursor middle : Cursor}

theorem bind_of_ok {value : α} (h : first cursor = .ok value middle) :
    (first >>= next) cursor = next value middle := by
  change EStateM.bind first next cursor = _
  simp [EStateM.bind, h]

theorem bind_of_error {error : ParseError} (h : first cursor = .error error middle) :
    (first >>= next) cursor = .error error middle := by
  change EStateM.bind first next cursor = _
  simp [EStateM.bind, h]

/-- What a sequence does depends on its first action only through what that one does here. -/
theorem bind_of_eq {other : Parse α} (same : first cursor = other cursor) :
    (first >>= next) cursor = (other >>= next) cursor := by
  change EStateM.bind first next cursor = EStateM.bind other next cursor
  rw [EStateM.bind, EStateM.bind, same]

theorem ok_of_bind {result : β} {last : Cursor} (h : (first >>= next) cursor = .ok result last) :
    ∃ value middle, first cursor = .ok value middle ∧ next value middle = .ok result last := by
  cases hfirst : first cursor with
  | ok value middle => exact ⟨value, middle, rfl, by rw [← h, bind_of_ok hfirst]⟩
  | error error middle =>
    rw [bind_of_error hfirst] at h
    cases h

theorem error_of_bind {error : ParseError} {last : Cursor}
    (h : (first >>= next) cursor = .error error last) :
    first cursor = .error error last ∨
      ∃ value middle, first cursor = .ok value middle ∧ next value middle = .error error last := by
  cases hfirst : first cursor with
  | ok value middle => exact .inr ⟨value, middle, rfl, by rw [← h, bind_of_ok hfirst]⟩
  | error other middle =>
    rw [bind_of_error hfirst] at h
    cases h
    exact .inl rfl

end Sequencing

/-- What becomes of an action: it stays calm up to a value or an error that is not fatal, or no
level is left and the source is given up. -/
inductive Outcome {α : Type} (cursor : Cursor) : EStateM.Result ParseError Cursor α → Prop where
  | value {value : α} {last : Cursor} (walk : cursor.Calm last) : Outcome cursor (.ok value last)
  | error {error : ParseError} {last : Cursor} (walk : cursor.Calm last)
      (mild : error.isFatal = false) : Outcome cursor (.error error last)
  | tooDeep {last : Cursor} (walk : cursor.Calm last) :
      Outcome cursor (.error (.nestingTooDeep maxNesting) last.abandon)

theorem Outcome.after {α : Type} {cursor middle : Cursor}
    {result : EStateM.Result ParseError Cursor α} (h : Outcome middle result)
    (walk : cursor.Calm middle) : Outcome cursor result := by
  cases h with
  | value later => exact .value (walk.trans later)
  | error later mild => exact .error (walk.trans later) mild
  | tooDeep later => exact .tooDeep (walk.trans later)

/-- Wherever an action starts, it moves its cursor on to such an outcome. -/
class Moves {α : Type} (action : Parse α) : Prop where
  outcome (cursor : Cursor) : Outcome cursor (action cursor)

theorem Moves.trail {α : Type} {action : Parse α} (h : Moves action) (cursor : Cursor) :
    ∃ trail, leaves (action cursor) = cursor.moves trail := by
  have outcome := h.outcome cursor
  generalize action cursor = result at outcome
  cases outcome with
  | value walk => exact walk.trail.imp fun _ => And.right
  | error walk _ => exact walk.trail.imp fun _ => And.right
  | tooDeep walk =>
    obtain ⟨trail, -, rfl⟩ := walk.trail
    refine ⟨trail ++ [.abandon], ?_⟩
    rw [Cursor.moves_append]
    rfl

section

variable {α β : Type}

instance (value : α) : Moves (pure value : Parse α) := ⟨fun _ => .value .refl⟩

theorem moves_throw {error : ParseError} (mild : error.isFatal = false) :
    Moves (throw error : Parse α) := ⟨fun _ => .error .refl mild⟩

instance (expected found : TokenKind) :
    Moves (throw (.unexpectedToken expected found) : Parse α) := moves_throw rfl

instance (kind : TokenKind) : Moves (throw (.noOperandForm kind) : Parse α) := moves_throw rfl

instance (literal : String) : Moves (throw (.unreadableNumber literal) : Parse α) :=
  moves_throw rfl

instance (literal : String) : Moves (throw (.illegalToken literal) : Parse α) := moves_throw rfl

instance : Moves current := ⟨fun _ => .value .refl⟩

instance : Moves currentKind := ⟨fun _ => .value .refl⟩

instance : Moves peekKind := ⟨fun _ => .value .refl⟩

instance : Moves remaining := ⟨fun _ => .value .refl⟩

instance : Moves advance := ⟨fun _ => .value (.advance .refl)⟩

instance (depth : Nat) : Moves (openLevel depth) := ⟨fun _ => .value (.reach .refl)⟩

instance : Moves (tooDeep : Parse α) := ⟨fun _ => .tooDeep .refl⟩

instance (kind : TokenKind) : Moves (expectPeek kind) := by
  refine ⟨fun cursor => ?_⟩
  unfold expectPeek
  split
  · exact .value (.advance .refl)
  · exact .error .refl rfl

instance : Moves skipSemicolon := by
  refine ⟨fun cursor => .value ?_⟩
  split
  · exact .advance .refl
  · exact .refl

instance (first : Parse α) (next : α → Parse β) [hfirst : Moves first]
    [hnext : ∀ value, Moves (next value)] : Moves (first >>= next) := by
  refine ⟨fun cursor => ?_⟩
  have outcome := hfirst.outcome cursor
  cases run : first cursor with
  | ok value middle =>
    rw [run] at outcome
    cases outcome with
    | value walk =>
      rw [bind_of_ok run]
      exact ((hnext value).outcome middle).after walk
  | error error middle =>
    rw [run] at outcome
    rw [bind_of_error run]
    cases outcome with
    | error walk mild => exact .error walk mild
    | tooDeep walk => exact .tooDeep walk

instance (condition : Prop) [Decidable condition] (first second : Parse α) [Moves first]
    [Moves second] : Moves (if condition then first else second) := by
  split <;> infer_instance

instance (action : Parse α) [h : Moves action] : Moves (attempt action) := by
  refine ⟨fun cursor => ?_⟩
  have outcome := h.outcome cursor
  unfold attempt
  generalize action cursor = result at outcome
  cases outcome with
  | value walk => exact .value walk
  | error walk mild =>
    simp only [mild, Bool.false_eq_true, if_false]
    exact .value (walk.record mild)
  | tooDeep walk => exact .tooDeep walk

instance (item : Parse α) [Moves item] (bound : Nat) : Moves (afterCommas item bound) := by
  induction bound with
  | zero => exact inferInstanceAs (Moves (pure []))
  | succ bound ih => unfold afterCommas; infer_instance

instance (item : Parse α) [Moves item] : Moves (bracketed item) := by
  unfold bracketed
  infer_instance

end

end Parse

open Parse

class Level.Moves (level : Level) : Prop where
  expression (power : BindingPower) : Parse.Moves (level.expression power)
  operators (power : BindingPower) (left : Expr) : Parse.Moves (level.operators power left)
  block : Parse.Moves level.block

section Forms

variable (level : Level) [h : level.Moves]

instance (power : BindingPower) : Moves (level.expression power) := h.expression power

instance (power : BindingPower) (left : Expr) : Moves (level.operators power left) :=
  h.operators power left

instance : Moves level.block := h.block

instance : Moves OperandForm.parsePrimary := by
  unfold OperandForm.parsePrimary
  refine @instMovesBind _ _ _ _ _ fun token => ?_
  split
  · infer_instance
  · infer_instance
  · infer_instance
  · split <;> infer_instance
  · infer_instance

instance : Moves (OperandForm.parseAlternative level) := by
  unfold OperandForm.parseAlternative
  infer_instance

instance : Moves OperandForm.parseParameter := by
  unfold OperandForm.parseParameter
  infer_instance

instance : Moves (OperatorForm.parseArgument level) := by
  unfold OperatorForm.parseArgument
  infer_instance

-- The longest form is a sequence of eight actions.
set_option synthInstance.maxSize 256 in
instance (form : OperandForm) : Moves (form.parse level) := by
  cases form with
  | primary => exact inferInstanceAs (Moves OperandForm.parsePrimary)
  | unary => unfold OperandForm.parse OperandForm.parseUnary; infer_instance
  | grouping => unfold OperandForm.parse OperandForm.parseGrouping; infer_instance
  | conditional => unfold OperandForm.parse OperandForm.parseConditional; infer_instance
  | function => unfold OperandForm.parse OperandForm.parseFunction; infer_instance

instance (form : OperatorForm) (left : Expr) (power : BindingPower) :
    Moves (form.parse level left power) := by
  cases form with
  | binary => unfold OperatorForm.parse OperatorForm.parseBinary; infer_instance
  | call => unfold OperatorForm.parse OperatorForm.parseCall; infer_instance

instance (form : StatementForm) : Moves (form.parse level) := by
  cases form with
  | letBinding => unfold StatementForm.parse StatementForm.parseLetBinding; infer_instance
  | returning => unfold StatementForm.parse StatementForm.parseReturning; infer_instance
  | block => unfold StatementForm.parse StatementForm.parseBlock; infer_instance

variable (tables : Tables)

instance : Moves (parseStmt tables level) := by
  unfold parseStmt
  refine @instMovesBind _ _ _ _ _ fun kind => ?_
  split
  · infer_instance
  · unfold parseExpressionStmt
    infer_instance

instance (bound : Nat) : Moves (parseStmts tables level bound) := by
  induction bound with
  | zero => exact inferInstanceAs (Moves (pure []))
  | succ bound ih => unfold parseStmts; infer_instance

instance : Moves (parseBody tables level) := by
  unfold parseBody
  infer_instance

instance : Moves (parseOperand tables level) := by
  unfold parseOperand
  refine @instMovesBind _ _ _ _ _ fun token => ?_
  split <;> infer_instance

instance (power : BindingPower) (left : Expr) (apply : OperatorForm → BindingPower → Parse Expr)
    [∀ form bound, Moves (apply form bound)] : Moves (applyNext tables power left apply) := by
  unfold applyNext
  refine @instMovesBind _ _ _ _ _ fun kind => ?_
  split
  · split <;> infer_instance
  · infer_instance

instance level_moves (left : Nat) : (Monkey.level tables left).Moves := by
  induction left with
  | zero =>
    refine ⟨fun power => ?_, fun power value => ?_, ?_⟩
    · exact inferInstanceAs (Moves tooDeep)
    · exact inferInstanceAs (Moves (applyNext tables power value fun _ _ => tooDeep))
    · exact inferInstanceAs (Moves tooDeep)
  | succ below ih =>
    unfold Monkey.level
    refine ⟨fun power => ?_, fun power value => ?_, ?_⟩ <;>
      simp only [Level.above] <;> infer_instance

end Forms

end Monkey
