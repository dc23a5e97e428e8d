import Monkey.Proofs.Coupling

set_option autoImplicit false

namespace Monkey

open Parse

/-- How many calls on the source were made before the first error was recorded. -/
def Cursor.callsToError (cursor : Cursor) : Nat :=
  (cursor.journal.reverse.takeWhile (· = .pulled)).length

/-- The index of the token that the first error of a run is about, if it was recorded after a number
of calls. The next token is the one that was answered last, and the current one stands before it. -/
def ParseError.index (error : ParseError) (calls : Nat) : Nat :=
  match error with
  | unexpectedToken _ _ | noOperandForm .eof => calls - 1
  | _ => calls - 2

/-- An error is about a token, or about the end of a source where there is none. -/
def ParseError.About (error : ParseError) (token? : Option Token) : Prop :=
  match error with
  | unexpectedToken _ found => found = headKind token?.toList
  | noOperandForm kind => kind = headKind token?.toList
  | unreadableNumber literal => token? = some ⟨.number, literal⟩
  | illegalToken literal => token? = some ⟨.illegal, literal⟩
  | nestingTooDeep _ => True

/-- A run on a source of a number of tokens, without an error so far. -/
structure Fresh (total : Nat) (cursor : Cursor) : Prop where
  settled : cursor.Settled
  live : cursor.exhausted = true → cursor.after = []
  journal : ∃ calls, cursor.journal.reverse = List.replicate calls .pulled ∧
    calls + cursor.after.length = total + 1
  short : cursor.ahead.length ≤ total

/-- The first error of a run, with the tokens from the one that it is about on. -/
structure Stopped (total : Nat) (error : ParseError) (back : List Token) (cursor : Cursor) :
    Prop where
  journal : ∃ calls rest, error.index calls + back.length = total ∧
    cursor.journal.reverse = List.replicate calls .pulled ++ .recorded error :: rest
  about : error.About back.head?

theorem Cursor.after_length_le_ahead {cursor : Cursor} (settled : cursor.Settled) :
    cursor.after.length ≤ cursor.ahead.length := by
  by_cases ended : cursor.ahead = []
  · rw [Cursor.ahead_eq_nil_of_after ended settled]
    exact Nat.zero_le _
  · rw [Cursor.ahead_of_current fun kind => ended (Cursor.ahead_of_end kind)]
    exact Nat.le_succ _

namespace Fresh

variable {total : Nat} {cursor : Cursor}

theorem errors (h : Fresh total cursor) : cursor.errors = [] := by
  obtain ⟨calls, journal, -⟩ := h.journal
  rw [Cursor.errors, journal]
  simp [Entry.error?]

theorem reach (h : Fresh total cursor) (levels : Nat) : Fresh total (cursor.reach levels) :=
  ⟨h.settled.reach levels, h.live, h.journal, h.short⟩

theorem advance (h : Fresh total cursor) : Fresh total cursor.advance where
  settled := h.settled.advance
  live := Cursor.after_of_advance_exhausted
  journal := by
    obtain ⟨calls, journal, count⟩ := h.journal
    rw [Cursor.journal_advance, Cursor.after_advance h.settled, journal]
    cases exhausted : cursor.exhausted with
    | true =>
      rw [h.live exhausted] at count ⊢
      exact ⟨calls, by simp, count⟩
    | false =>
      have some : cursor.peek.kind ≠ .eof := fun ended => by
        rw [h.settled.exhausted_of_peek ended] at exhausted
        cases exhausted
      refine ⟨calls + 1, by simp [List.replicate_succ'], ?_⟩
      rw [Cursor.after, if_neg some, List.length_cons] at count
      rw [Cursor.after, if_neg some, List.tail_cons]
      omega
  short := by
    rw [Cursor.ahead_advance]
    exact Nat.le_trans (Cursor.after_length_le_ahead h.settled) h.short

theorem ofSource (tokens : List Token) (noEnd : ∀ token ∈ tokens, token.kind ≠ .eof) :
    Fresh tokens.length (Cursor.ofSource (tokens.map some)) := by
  have ahead := Cursor.ahead_ofSource (tokens.map some)
  rw [untilEnd_map_some tokens noEnd] at ahead
  refine ⟨Cursor.settled_ofSource _, Cursor.after_of_advance_exhausted, ?_,
    Nat.le_of_eq (congrArg List.length ahead)⟩
  cases tokens with
  | nil => exact ⟨1, rfl, rfl⟩
  | cons first rest =>
    have kind : first.kind ≠ .eof := noEnd first List.mem_cons_self
    have running : (Cursor.mk ((first :: rest).map some) false Token.eof Token.eof []
        0).advance.exhausted = false := by
      simp [Cursor.advance, Cursor.pull, kind]
    refine ⟨2, ?_, ?_⟩
    · rw [Cursor.ofSource, Cursor.journal_advance, Cursor.journal_advance, running]
      rfl
    · rw [(Cursor.current_of_ahead ahead).2, List.length_cons]
      omega

end Fresh

section Errors

variable {total : Nat} {cursor last : Cursor} {error : ParseError} {back : List Token}

theorem Token.about_rejection {token : Token} : token.rejection.About (some token) := by
  obtain ⟨kind, literal⟩ := token
  unfold Token.rejection Token.flaw?
  cases kind with
  | number =>
    cases Integer.read? literal <;> simp [ParseError.About, headKind]
  | _ => rfl

theorem Token.index_rejection {token : Token} (some : token.kind ≠ .eof) (calls : Nat) :
    token.rejection.index calls = calls - 2 := by
  obtain ⟨kind, literal⟩ := token
  unfold Token.rejection Token.flaw?
  cases kind with
  | eof => exact absurd rfl some
  | number => cases Integer.read? literal <;> simp [ParseError.index]
  | _ => rfl

theorem Fresh.stopped_miss (h : Fresh total cursor) (expected : TokenKind) :
    Stopped total (.unexpectedToken expected cursor.peek.kind) cursor.after
      (cursor.record (.unexpectedToken expected cursor.peek.kind)) := by
  obtain ⟨calls, journal, count⟩ := h.journal
  have shorter := Cursor.after_length_le_ahead h.settled
  have short := h.short
  refine ⟨⟨calls, [], ?_, ?_⟩, ?_⟩
  · rw [ParseError.index]
    omega
  · rw [Cursor.record, List.reverse_cons, journal]
  · rw [ParseError.About, ← Cursor.headKind_after]
    cases cursor.after <;> rfl

theorem Fresh.stopped_reject (h : Fresh total cursor) :
    Stopped total cursor.current.rejection cursor.ahead
      (cursor.record cursor.current.rejection) := by
  obtain ⟨calls, journal, count⟩ := h.journal
  have recorded : (cursor.record cursor.current.rejection).journal.reverse =
      List.replicate calls .pulled ++ [.recorded cursor.current.rejection] := by
    rw [Cursor.record, List.reverse_cons, journal]
  by_cases ended : cursor.current.kind = .eof
  · have none := Cursor.ahead_of_end ended
    rw [Cursor.ahead_eq_nil_of_after none h.settled, List.length_nil] at count
    rw [Token.rejection_of_eof ended] at recorded ⊢
    rw [none]
    refine ⟨⟨calls, [], ?_, recorded⟩, rfl⟩
    rw [ParseError.index, List.length_nil]
    omega
  · have short := h.short
    have some := Cursor.ahead_of_current ended
    rw [some, List.length_cons] at short
    rw [some]
    refine ⟨⟨calls, [], ?_, recorded⟩, Token.about_rejection⟩
    rw [Token.index_rejection ended, List.length_cons]
    omega

theorem Fresh.stopped_unclosed (h : Fresh total cursor) (ended : cursor.current.kind = .eof) :
    Stopped total (.unexpectedToken .closeCurly .eof) []
      (cursor.record (.unexpectedToken .closeCurly .eof)) := by
  have none := Cursor.ahead_of_end ended
  have miss := h.stopped_miss .closeCurly
  rwa [h.settled.peek_of_current ended, Cursor.ahead_eq_nil_of_after none h.settled] at miss

theorem Cursor.Later.journal (h : cursor.Later last) :
    ∃ new, last.journal.reverse = cursor.journal.reverse ++ new := by
  obtain ⟨trail, rfl⟩ := h
  induction trail generalizing cursor with
  | nil => exact ⟨[], (List.append_nil _).symm⟩
  | cons move trail ih =>
    obtain ⟨new, hnew⟩ := @ih (cursor.move move)
    rw [Cursor.moves_cons, hnew]
    cases move with
    | advance =>
      rw [Cursor.move, Cursor.journal_advance, List.append_assoc]
      exact ⟨_, rfl⟩
    | record error => exact ⟨.recorded error :: new, by simp [Cursor.move, Cursor.record]⟩
    | reach depth => exact ⟨new, rfl⟩
    | abandon => exact ⟨new, rfl⟩

theorem Cursor.Later.head_errors (h : cursor.Later last)
    (head : cursor.errors.head? = some error) : last.errors.head? = some error := by
  obtain ⟨trail, rfl⟩ := h
  rw [Cursor.errors_moves, List.head?_append, head]
  rfl

theorem Stopped.later (h : Stopped total error back cursor) (later : cursor.Later last) :
    Stopped total error back last := by
  obtain ⟨⟨calls, rest, index, journal⟩, about⟩ := h
  obtain ⟨new, hnew⟩ := later.journal
  refine ⟨⟨calls, rest ++ new, index, ?_⟩, about⟩
  rw [hnew, journal, List.append_assoc, List.cons_append]

theorem Stopped.head (h : Stopped total error back cursor) : cursor.errors.head? = some error := by
  obtain ⟨⟨calls, rest, -, journal⟩, -⟩ := h
  have pulled : (List.replicate calls Entry.pulled).filterMap Entry.error? = [] :=
    List.filterMap_replicate_of_none rfl
  rw [Cursor.errors, journal, List.filterMap_append, pulled]
  rfl

theorem Stopped.index_add (h : Stopped total error back cursor) :
    error.index cursor.callsToError + back.length = total := by
  obtain ⟨⟨calls, rest, index, journal⟩, -⟩ := h
  rw [Cursor.callsToError, journal]
  simpa [List.takeWhile_append] using index

theorem Visits.fresh {origin : Cursor} {start place : Place}
    (visit : Visits origin start last place) (h : Fresh total origin)
    (quiet : last.errors = []) : Fresh total last := by
  have recorded (cursor : Cursor) (error : ParseError) : (cursor.record error).errors ≠ [] := by
    rw [Cursor.errors_record]
    exact List.append_ne_nil_of_right_ne_nil _ (List.cons_ne_nil _ _)
  induction visit with
  | refl => exact h
  | read _ _ ih => exact ih quiet
  | close _ ih => exact ih quiet
  | advance _ _ ih => exact (ih ((Cursor.errors_advance _).symm.trans quiet)).advance
  | reach _ levels ih => exact (ih quiet).reach levels
  | miss _ _ _ => exact absurd quiet (recorded _ _)
  | reject _ _ => exact absurd quiet (recorded _ _)
  | unclosed _ _ _ => exact absurd quiet (recorded _ _)
  | abandon _ _ => exact absurd quiet (recorded _ _)

end Errors

end Monkey
