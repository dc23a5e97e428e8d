import Monkey.Proofs.Bounds

set_option autoImplicit false

namespace Monkey

namespace Parse

variable {α : Type} {goesOn : Cursor → Prop} {round : Parse (List α)}

/-- Rounds are taken for as long as the cursor calls for one. Only an error ends them earlier. -/
inductive Loop (goesOn : Cursor → Prop) (round : Parse (List α)) :
    Cursor → EStateM.Result ParseError Cursor (List α) → Prop where
  | stop {cursor : Cursor} (done : ¬ goesOn cursor) : Loop goesOn round cursor (.ok [] cursor)
  | again {cursor middle last : Cursor} {values others : List α} (more : goesOn cursor)
      (run : round cursor = .ok values middle)
      (later : Loop goesOn round middle (.ok others last)) :
      Loop goesOn round cursor (.ok (values ++ others) last)
  | fail {cursor last : Cursor} {error : ParseError} (more : goesOn cursor)
      (run : round cursor = .error error last) : Loop goesOn round cursor (.error error last)
  | failLater {cursor middle last : Cursor} {values : List α} {error : ParseError}
      (more : goesOn cursor) (run : round cursor = .ok values middle)
      (later : Loop goesOn round middle (.error error last)) :
      Loop goesOn round cursor (.error error last)

theorem Loop.unique {cursor : Cursor} {result other : EStateM.Result ParseError Cursor (List α)}
    (h : Loop goesOn round cursor result) (h' : Loop goesOn round cursor other) :
    result = other := by
  induction h generalizing other with
  | stop done =>
    cases h' with
    | stop => rfl
    | again more => exact absurd more done
    | fail more => exact absurd more done
    | failLater more => exact absurd more done
  | again more run _ ih =>
    cases h' with
    | stop done => exact absurd more done
    | again _ run' later' =>
      cases run.symm.trans run'
      cases ih later'
      rfl
    | fail _ run' => cases run.symm.trans run'
    | failLater _ run' later' =>
      cases run.symm.trans run'
      cases ih later'
  | fail more run =>
    cases h' with
    | stop done => exact absurd more done
    | again _ run' => cases run.symm.trans run'
    | fail _ run' => cases run.symm.trans run'; rfl
    | failLater _ run' => cases run.symm.trans run'
  | failLater more run _ ih =>
    cases h' with
    | stop done => exact absurd more done
    | again _ run' later' =>
      cases run.symm.trans run'
      cases ih later'
    | fail _ run' => cases run.symm.trans run'
    | failLater _ run' later' =>
      cases run.symm.trans run'
      exact ih later'

/-- The same loop with a bound on its rounds. -/
def repeatedly (goesOn : Cursor → Prop) [DecidablePred goesOn] (round : Parse (List α)) :
    Nat → Parse (List α)
  | 0 => pure []
  | bound + 1 => fun cursor =>
    if goesOn cursor then
      (do
        let values ← round
        let others ← repeatedly goesOn round bound
        return values ++ others) cursor
    else .ok [] cursor

section

variable [DecidablePred goesOn] {cursor : Cursor}

theorem repeatedly_of (more : goesOn cursor) (bound : Nat) :
    repeatedly goesOn round (bound + 1) cursor =
      (round >>= fun values => repeatedly goesOn round bound >>= fun others =>
        pure (values ++ others)) cursor := by
  rw [repeatedly]
  exact if_pos more

theorem repeatedly_of_not (done : ¬ goesOn cursor) (bound : Nat) :
    repeatedly goesOn round (bound + 1) cursor = .ok [] cursor := by
  rw [repeatedly]
  exact if_neg done

end

/-- A round is called for only if something is left, and then leaves less. -/
structure Shrinks (size : Cursor → Nat) (goesOn : Cursor → Prop) (round : Parse (List α)) :
    Prop where
  pos {cursor : Cursor} (more : goesOn cursor) : 0 < size cursor
  less {cursor last : Cursor} {values : List α} (settled : cursor.Settled) (more : goesOn cursor)
    (run : round cursor = .ok values last) : last.Settled ∧ size last < size cursor

theorem loop_repeatedly [DecidablePred goesOn] {size : Cursor → Nat}
    (h : Shrinks size goesOn round) {bound : Nat} {cursor : Cursor} (settled : cursor.Settled)
    (enough : size cursor ≤ bound) :
    Loop goesOn round cursor (repeatedly goesOn round bound cursor) := by
  induction bound generalizing cursor with
  | zero => exact .stop fun more => absurd (h.pos more) (Nat.not_lt_of_le enough)
  | succ bound ih =>
    by_cases more : goesOn cursor
    · rw [repeatedly_of more]
      cases run : round cursor with
      | error error last =>
        rw [bind_of_error run]
        exact .fail more run
      | ok values middle =>
        obtain ⟨settled', shorter⟩ := h.less settled more run
        have later := ih settled' (by omega)
        rw [bind_of_ok run]
        cases rest : repeatedly goesOn round bound middle with
        | error error last =>
          rw [rest] at later
          rw [bind_of_error rest]
          exact .failLater more run later
        | ok others last =>
          rw [rest] at later
          rw [bind_of_ok rest]
          exact .again more run later
    · rw [repeatedly_of_not more]
      exact .stop more

/-- With a large enough bound a loop has the result that it has without one. -/
theorem loop_iff [DecidablePred goesOn] {size : Cursor → Nat} (h : Shrinks size goesOn round)
    {bound : Nat} {cursor : Cursor} (settled : cursor.Settled) (enough : size cursor ≤ bound)
    (result : EStateM.Result ParseError Cursor (List α)) :
    Loop goesOn round cursor result ↔ repeatedly goesOn round bound cursor = result := by
  have ends := loop_repeatedly h settled enough
  refine ⟨ends.unique, fun same => ?_⟩
  rwa [← same]

end Parse

open Parse

section Items

variable {α : Type} (item : Parse α)

def commaNext (cursor : Cursor) : Prop := cursor.peek.kind = .comma

instance : DecidablePred commaNext := fun cursor =>
  inferInstanceAs (Decidable (cursor.peek.kind = .comma))

def behindComma : Parse (List α) := do
  advance
  let value ← item
  return [value]

theorem afterCommas_eq (bound : Nat) :
    afterCommas item bound = repeatedly commaNext (behindComma item) bound := by
  induction bound with
  | zero => rfl
  | succ bound ih =>
    funext cursor
    rw [afterCommas, bind_of_ok (rfl : peekKind cursor = _)]
    by_cases comma : cursor.peek.kind = .comma
    · rw [if_pos comma, repeatedly_of comma, ih, behindComma]
      simp only [bind_assoc, pure_bind, List.singleton_append]
    · rw [if_neg comma, repeatedly_of_not comma]
      rfl

theorem after_length_pos_of_comma {cursor : Cursor} (comma : commaNext cursor) :
    0 < cursor.after.length := by
  refine length_pos_of_headKind ?_
  rw [Cursor.headKind_after, show cursor.peek.kind = .comma from comma]
  decide

theorem shrinks_behindComma [Moves item] :
    Shrinks (fun cursor => cursor.after.length) commaNext (behindComma item) where
  pos comma := after_length_pos_of_comma comma
  less settled comma run := by
    rw [behindComma, bind_of_ok (rfl : advance _ = _)] at run
    obtain ⟨value, middle, early, late⟩ := ok_of_bind run
    cases late
    have some := after_length_pos_of_comma comma
    have later := after_length_of_run item settled.advance early
    rw [Cursor.after_advance settled, List.length_tail] at later
    exact ⟨settled_of_run item settled.advance early, by omega⟩

theorem loop_afterCommas [Moves item] {cursor : Cursor} (settled : cursor.Settled)
    (result : EStateM.Result ParseError Cursor (List α)) :
    Loop commaNext (behindComma item) cursor result ↔
      afterCommas item cursor.remaining cursor = result := by
  rw [afterCommas_eq]
  exact loop_iff (shrinks_behindComma item) settled (Cursor.after_length_le_remaining cursor) result

end Items

section Statements

variable (tables : Tables) (offered : Level)

def inBlock (cursor : Cursor) : Prop :=
  ¬ (cursor.current.kind = .closeCurly ∨ cursor.current.kind = .eof)

instance : DecidablePred inBlock := fun cursor =>
  inferInstanceAs (Decidable (¬ (cursor.current.kind = .closeCurly ∨ cursor.current.kind = .eof)))

def blockRound : Parse (List Stmt) := do
  let stmt? ← attempt (parseStmt tables offered)
  advance
  return stmt?.toList

theorem parseStmts_eq (bound : Nat) : parseStmts tables offered bound =
    repeatedly inBlock (blockRound tables offered) bound := by
  induction bound with
  | zero => rfl
  | succ bound ih =>
    funext cursor
    rw [parseStmts, bind_of_ok (rfl : currentKind cursor = _)]
    by_cases stops : cursor.current.kind = .closeCurly ∨ cursor.current.kind = .eof
    · rw [if_pos stops, repeatedly_of_not (not_not_intro stops)]
      rfl
    · rw [if_neg stops, repeatedly_of stops, ih, blockRound]
      simp only [bind_assoc, pure_bind]

def hasToken (cursor : Cursor) : Prop := cursor.current.kind ≠ .eof

instance : DecidablePred hasToken := fun cursor =>
  inferInstanceAs (Decidable (cursor.current.kind ≠ .eof))

def programRound : Parse (List Stmt) := fun cursor =>
  .ok (given (parseStmt tables offered cursor)).toList
    (ended (parseStmt tables offered cursor)).advance

theorem parseStmtsToEnd_eq (bound : Nat) (cursor : Cursor) :
    repeatedly hasToken (programRound tables offered) bound cursor =
      .ok (parseStmtsToEnd tables offered bound cursor).1
        (parseStmtsToEnd tables offered bound cursor).2 := by
  induction bound generalizing cursor with
  | zero => rfl
  | succ bound ih =>
    by_cases stops : cursor.current.kind = .eof
    · rw [repeatedly_of_not (not_not_intro stops), parseStmtsToEnd_of_end _ _ _ stops]
    · rw [repeatedly_of stops, parseStmtsToEnd_succ stops,
        bind_of_ok (rfl : programRound tables offered cursor = _), bind_of_ok (ih _)]
      rfl

variable [offered.Moves]

theorem shrinks_blockRound :
    Shrinks (fun cursor => cursor.ahead.length) inBlock (blockRound tables offered) where
  pos {cursor} inside := by
    refine length_pos_of_headKind ?_
    rw [Cursor.headKind_ahead]
    exact fun ended => inside (.inr ended)
  less settled inside run := by
    obtain ⟨stmt?, middle, first, late⟩ := ok_of_bind run
    cases late
    exact ⟨(settled_of_run _ settled first).advance,
      advance_length_of_attempt tables offered settled (fun ended => inside (.inr ended)) first⟩

theorem shrinks_programRound :
    Shrinks (fun cursor => cursor.ahead.length) hasToken (programRound tables offered) where
  pos {cursor} some := by
    refine length_pos_of_headKind ?_
    rwa [Cursor.headKind_ahead]
  less settled some run := by
    cases run
    exact ⟨(settled_ended _ settled).advance, advance_length_of_round tables offered settled some⟩

/-- The loops on what a level offers end by themselves wherever they begin, and with the result that
they have with their bounds. -/
structure Level.Halts : Prop where
  parameters {cursor : Cursor} (settled : cursor.Settled)
    (result : EStateM.Result ParseError Cursor (List String)) :
    Loop commaNext (behindComma OperandForm.parseParameter) cursor result ↔
      afterCommas OperandForm.parseParameter cursor.remaining cursor = result
  arguments {cursor : Cursor} (settled : cursor.Settled)
    (result : EStateM.Result ParseError Cursor (List Expr)) :
    Loop commaNext (behindComma (OperatorForm.parseArgument offered)) cursor result ↔
      afterCommas (OperatorForm.parseArgument offered) cursor.remaining cursor = result
  block {cursor : Cursor} (settled : cursor.Settled)
    (result : EStateM.Result ParseError Cursor (List Stmt)) :
    Loop inBlock (blockRound tables offered) cursor result ↔
      parseStmts tables offered cursor.remaining cursor = result
  program {cursor : Cursor} (settled : cursor.Settled)
    (result : EStateM.Result ParseError Cursor (List Stmt)) :
    Loop hasToken (programRound tables offered) cursor result ↔
      .ok (parseStmtsToEnd tables offered cursor.remaining cursor).1
        (parseStmtsToEnd tables offered cursor.remaining cursor).2 = result

theorem level_halts : offered.Halts tables where
  parameters settled result := loop_afterCommas _ settled result
  arguments settled result := loop_afterCommas _ settled result
  block {cursor} settled result := by
    rw [parseStmts_eq]
    exact loop_iff (shrinks_blockRound tables offered) settled
      (Cursor.ahead_length_le_remaining cursor) result
  program {cursor} settled result := by
    rw [← parseStmtsToEnd_eq]
    exact loop_iff (shrinks_programRound tables offered) settled
      (Cursor.ahead_length_le_remaining cursor) result

end Statements

end Monkey
