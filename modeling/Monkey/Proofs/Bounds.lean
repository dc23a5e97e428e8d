import Monkey.Proofs.Recognition

set_option autoImplicit false

namespace Monkey

open Parse

namespace Cursor

theorem after_suffix_move {cursor : Cursor} (h : cursor.Settled) (move : Move) :
    (cursor.move move).after <:+ cursor.after := by
  cases move with
  | advance =>
    change cursor.advance.after <:+ _
    rw [after_advance h]
    exact List.tail_suffix _
  | record error => exact List.suffix_refl _
  | reach depth => exact List.suffix_refl _
  | abandon => exact List.nil_suffix

theorem after_suffix_moves {cursor : Cursor} (h : cursor.Settled) (trail : List Move) :
    (cursor.moves trail).after <:+ cursor.after := by
  induction trail generalizing cursor with
  | nil => exact List.suffix_refl _
  | cons move trail ih => exact (ih (h.move move)).trans (after_suffix_move h move)

theorem ahead_eq_nil_of_after {cursor : Cursor} (h : cursor.ahead = []) (settled : cursor.Settled) :
    cursor.after = [] := by
  have ended : cursor.current.kind = .eof := by
    rw [← headKind_ahead, h]
    rfl
  rw [after, if_pos (settled.peek_of_current ended)]

end Cursor

namespace Parse

variable {α : Type} {cursor last : Cursor}

def given : EStateM.Result ParseError Cursor α → Option α
  | .ok value _ => some value
  | .error _ _ => none

/-- Where an action ends, with its error recorded if it has one. -/
def ended : EStateM.Result ParseError Cursor α → Cursor
  | .ok _ cursor => cursor
  | .error error cursor => cursor.record error

theorem after_length_ended (action : Parse α) [h : Moves action] (settled : cursor.Settled) :
    (ended (action cursor)).after.length ≤ cursor.after.length := by
  obtain ⟨trail, htrail⟩ := h.trail cursor
  have short := (Cursor.after_suffix_moves settled trail).length_le
  rw [← htrail] at short
  cases run : action cursor with
  | ok value last => rwa [run] at short
  | error error last => rwa [run] at short

theorem after_length_of_run (action : Parse α) [Moves action] (settled : cursor.Settled)
    {value : α} (run : action cursor = .ok value last) :
    last.after.length ≤ cursor.after.length := by
  have short := after_length_ended action settled
  rwa [run] at short

theorem settled_ended (action : Parse α) [h : Moves action] (settled : cursor.Settled) :
    (ended (action cursor)).Settled := by
  obtain ⟨trail, htrail⟩ := h.trail cursor
  have last := settled.moves trail
  rw [← htrail] at last
  cases run : action cursor with
  | ok value middle => rwa [run] at last
  | error error middle =>
    rw [run] at last
    exact Cursor.Settled.record last error

theorem errors_ended (action : Parse α) [Moves action] (cursor : Cursor) :
    ∃ new, (ended (action cursor)).errors = cursor.errors ++ new ∧
      ∀ error last, action cursor = .error error last → error ∈ new := by
  obtain ⟨new, hnew⟩ := errors_of_run action cursor
  cases run : action cursor with
  | ok value last =>
    rw [run, leaves] at hnew
    exact ⟨new, hnew, by rintro _ _ ⟨⟩⟩
  | error error last =>
    rw [run, leaves] at hnew
    refine ⟨new ++ [error], ?_, fun other final same => ?_⟩
    · rw [ended, Cursor.errors_record, hnew, List.append_assoc]
    · cases same
      exact List.mem_append_right _ List.mem_cons_self

/-- A loop may be given any bound with which it does the same as with its own. -/
theorem remaining_bind {β : Type} {loop : Nat → Parse α} {next : α → Parse β} {bound : Nat}
    (same : loop bound cursor = loop cursor.remaining cursor) :
    (remaining >>= fun bound => loop bound >>= next) cursor = (loop bound >>= next) cursor := by
  rw [bind_of_ok (rfl : remaining cursor = _)]
  exact bind_of_eq same.symm

variable (item : Parse α)

theorem afterCommas_of_nil (bound : Nat) (h : cursor.after = []) :
    afterCommas item bound cursor = .ok [] cursor := by
  cases bound with
  | zero => rfl
  | succ bound =>
    have peek : cursor.peek.kind ≠ .comma := by
      rw [← Cursor.headKind_after, h]
      decide
    rw [afterCommas, bind_of_ok (rfl : peekKind cursor = _), if_neg peek]
    rfl

theorem afterCommas_of_length_le [Moves item] {bound more : Nat} (settled : cursor.Settled)
    (enough : cursor.after.length ≤ bound) (hle : bound ≤ more) :
    afterCommas item more cursor = afterCommas item bound cursor := by
  induction bound generalizing cursor more with
  | zero =>
    have none : cursor.after = [] := List.length_eq_zero_iff.1 (by omega)
    rw [afterCommas_of_nil item more none, afterCommas_of_nil item 0 none]
  | succ bound ih =>
    obtain ⟨more, rfl⟩ : ∃ fewer, more = fewer + 1 := ⟨more - 1, by omega⟩
    rw [afterCommas, afterCommas, bind_of_ok (rfl : peekKind cursor = _),
      bind_of_ok (rfl : peekKind cursor = _)]
    by_cases comma : cursor.peek.kind = .comma
    · rw [if_pos comma, if_pos comma, bind_of_ok (rfl : advance cursor = _),
        bind_of_ok (rfl : advance cursor = _)]
      have some : cursor.after ≠ [] := fun none => by
        rw [← Cursor.headKind_after, none] at comma
        cases comma
      have shorter : cursor.advance.after.length ≤ bound := by
        have long := List.length_pos_iff.2 some
        rw [Cursor.after_advance settled, List.length_tail]
        omega
      cases run : item cursor.advance with
      | error error middle => rw [bind_of_error run, bind_of_error run]
      | ok value middle =>
        have later := after_length_of_run item settled.advance run
        have same := ih (settled_of_run item settled.advance run) (by omega : _ ≤ bound)
          (by omega : bound ≤ more)
        rw [bind_of_ok run, bind_of_ok run]
        exact bind_of_eq same
    · rw [if_neg comma, if_neg comma]

end Parse

section Statements

variable (tables : Tables) (offered : Level) {cursor last : Cursor}

theorem parseStmts_of_nil (bound : Nat) (h : cursor.ahead = []) :
    parseStmts tables offered bound cursor = .ok [] cursor := by
  cases bound with
  | zero => rfl
  | succ bound =>
    have ended : cursor.current.kind = .eof := by
      rw [← Cursor.headKind_ahead, h]
      rfl
    rw [parseStmts, bind_of_ok (rfl : currentKind cursor = _), if_pos (.inr ended)]
    rfl

variable [offered.Moves]

theorem advance_length_of_attempt (settled : cursor.Settled) (some : cursor.current.kind ≠ .eof)
    {stmt? : Option Stmt} (run : attempt (parseStmt tables offered) cursor = .ok stmt? last) :
    last.advance.ahead.length < cursor.ahead.length := by
  have later := after_length_of_run _ settled run
  rw [Cursor.ahead_advance, Cursor.ahead_of_current some, List.length_cons]
  omega

theorem parseStmts_of_length_le {bound more : Nat} (settled : cursor.Settled)
    (enough : cursor.ahead.length ≤ bound) (hle : bound ≤ more) :
    parseStmts tables offered more cursor = parseStmts tables offered bound cursor := by
  induction bound generalizing cursor more with
  | zero =>
    have none : cursor.ahead = [] := List.length_eq_zero_iff.1 (by omega)
    rw [parseStmts_of_nil tables offered more none, parseStmts_of_nil tables offered 0 none]
  | succ bound ih =>
    obtain ⟨more, rfl⟩ : ∃ fewer, more = fewer + 1 := ⟨more - 1, by omega⟩
    rw [parseStmts, parseStmts, bind_of_ok (rfl : currentKind cursor = _),
      bind_of_ok (rfl : currentKind cursor = _)]
    by_cases stops : cursor.current.kind = .closeCurly ∨ cursor.current.kind = .eof
    · rw [if_pos stops, if_pos stops]
    · rw [if_neg stops, if_neg stops]
      cases run : attempt (parseStmt tables offered) cursor with
      | error error middle => rw [bind_of_error run, bind_of_error run]
      | ok stmt? middle =>
        have shorter := advance_length_of_attempt tables offered settled
          (fun ended => stops (.inr ended)) run
        have same := ih (settled_of_run _ settled run).advance (by omega : _ ≤ bound)
          (by omega : bound ≤ more)
        rw [bind_of_ok run, bind_of_ok run, bind_of_ok (rfl : advance middle = _),
          bind_of_ok (rfl : advance middle = _)]
        exact bind_of_eq same

/-- The statements of a block end at a closing brace or at the end of the source. -/
theorem parseStmts_stops {bound : Nat} {body : List Stmt} (settled : cursor.Settled)
    (enough : cursor.ahead.length ≤ bound)
    (run : parseStmts tables offered bound cursor = .ok body last) :
    last.current.kind = .closeCurly ∨ last.current.kind = .eof := by
  induction bound generalizing cursor body with
  | zero =>
    have none : cursor.ahead = [] := List.length_eq_zero_iff.1 (by omega)
    rw [parseStmts_of_nil tables offered 0 none] at run
    cases run
    rw [← Cursor.headKind_ahead, none]
    exact .inr rfl
  | succ bound ih =>
    rw [parseStmts, bind_of_ok (rfl : currentKind cursor = _)] at run
    by_cases stops : cursor.current.kind = .closeCurly ∨ cursor.current.kind = .eof
    · rw [if_pos stops] at run
      cases run
      exact stops
    · rw [if_neg stops] at run
      obtain ⟨stmt?, middle, first, run⟩ := ok_of_bind run
      rw [bind_of_ok (rfl : advance middle = _)] at run
      obtain ⟨rest, final, later, run⟩ := ok_of_bind run
      cases run
      have shorter := advance_length_of_attempt tables offered settled
        (fun ended => stops (.inr ended)) first
      exact ih (settled_of_run _ settled first).advance (by omega) later

end Statements

section Programs

variable {tables : Tables} {offered : Level} {cursor : Cursor}

theorem parseStmtsToEnd_succ (some : cursor.current.kind ≠ .eof) (bound : Nat) :
    parseStmtsToEnd tables offered (bound + 1) cursor =
      ((given (parseStmt tables offered cursor)).toList ++
          (parseStmtsToEnd tables offered bound
            (ended (parseStmt tables offered cursor)).advance).1,
        (parseStmtsToEnd tables offered bound
          (ended (parseStmt tables offered cursor)).advance).2) := by
  cases run : parseStmt tables offered cursor <;>
    simp [parseStmtsToEnd, Cursor.atEnd, some, run, given, ended]

theorem advance_length_of_round (tables : Tables) (offered : Level) [offered.Moves]
    (settled : cursor.Settled) (some : cursor.current.kind ≠ .eof) :
    (ended (parseStmt tables offered cursor)).advance.ahead.length < cursor.ahead.length := by
  have later := after_length_ended (parseStmt tables offered) settled
  rw [Cursor.ahead_advance, Cursor.ahead_of_current some, List.length_cons]
  omega

/-- A program is read to the end of its source. -/
theorem parseStmtsToEnd_of_length_le [offered.Moves] {bound more : Nat} (settled : cursor.Settled)
    (enough : cursor.ahead.length ≤ bound) (hle : bound ≤ more) :
    parseStmtsToEnd tables offered more cursor = parseStmtsToEnd tables offered bound cursor := by
  induction bound generalizing cursor more with
  | zero =>
    have none : cursor.ahead = [] := List.length_eq_zero_iff.1 (by omega)
    rw [parseStmtsToEnd_of_nil _ _ more none, parseStmtsToEnd_of_nil _ _ 0 none]
  | succ bound ih =>
    obtain ⟨more, rfl⟩ : ∃ fewer, more = fewer + 1 := ⟨more - 1, by omega⟩
    by_cases stops : cursor.current.kind = .eof
    · rw [parseStmtsToEnd_of_end _ _ _ stops, parseStmtsToEnd_of_end _ _ _ stops]
    · have shorter := advance_length_of_round tables offered settled stops
      rw [parseStmtsToEnd_succ stops, parseStmtsToEnd_succ stops,
        ih (settled_ended _ settled).advance (by omega) (by omega : bound ≤ more)]

theorem ahead_parseStmtsToEnd (tables : Tables) (offered : Level) [offered.Moves] {bound : Nat}
    (settled : cursor.Settled) (enough : cursor.ahead.length ≤ bound) :
    (parseStmtsToEnd tables offered bound cursor).2.ahead = [] := by
  induction bound generalizing cursor with
  | zero =>
    have none : cursor.ahead = [] := List.length_eq_zero_iff.1 (by omega)
    rw [parseStmtsToEnd_of_nil _ _ 0 none, none]
  | succ bound ih =>
    by_cases stops : cursor.current.kind = .eof
    · rw [parseStmtsToEnd_of_end _ _ _ stops, Cursor.ahead_of_end stops]
    · have shorter := advance_length_of_round tables offered settled stops
      rw [parseStmtsToEnd_succ stops]
      exact ih (settled_ended _ settled).advance (by omega)

end Programs

end Monkey
