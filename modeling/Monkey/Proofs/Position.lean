import Mathlib.Data.List.GetD
import Monkey.Proofs.Moves

set_option autoImplicit false

namespace Monkey

/-- The answers of a source up to its first end, which is an end token or no answer. -/
def throughEnd : List (Option Token) → List Token
  | some token :: rest => if token.kind = .eof then [token] else token :: throughEnd rest
  | _ => [Token.eof]

theorem throughEnd_length_pos (source : List (Option Token)) : 0 < (throughEnd source).length := by
  rcases source with _ | ⟨_ | token, rest⟩
  · exact Nat.one_pos
  · exact Nat.one_pos
  · rw [throughEnd]
    split <;> exact Nat.succ_pos _

theorem throughEnd_append {tokens : List Token} (h : ∀ token ∈ tokens, token.kind ≠ .eof)
    (rest : List (Option Token)) :
    throughEnd (tokens.map some ++ rest) = tokens ++ throughEnd rest := by
  induction tokens with
  | nil => rfl
  | cons token tokens ih =>
    obtain ⟨here, others⟩ := List.forall_mem_cons.1 h
    rw [List.map_cons, List.cons_append, throughEnd, if_neg here, ih others, List.cons_append]

def tokenAt (tokens : List Token) (index : Nat) : Token := tokens.getD index Token.eof

theorem tokenAt_cons (token : Token) (tokens : List Token) (index : Nat) :
    tokenAt (token :: tokens) (index + 1) = tokenAt tokens index := rfl

theorem tokenAt_of_length_le {tokens : List Token} {index : Nat} (h : tokens.length ≤ index) :
    tokenAt tokens index = Token.eof := by
  rw [tokenAt, List.getD_eq_default _ _ h]

theorem kind_tokenAt_iff (source : List (Option Token)) (index : Nat) :
    (tokenAt (throughEnd source) index).kind = .eof ↔ (throughEnd source).length ≤ index + 1 := by
  induction source generalizing index with
  | nil => cases index <;> simp [throughEnd, tokenAt, Token.eof]
  | cons answer rest ih =>
    cases answer with
    | none => cases index <;> simp [throughEnd, tokenAt, Token.eof]
    | some token =>
      by_cases ends : token.kind = .eof
      · cases index <;> simp [throughEnd, ends, tokenAt, Token.eof]
      · rw [throughEnd, if_neg ends]
        cases index with
        | zero =>
          have some := throughEnd_length_pos rest
          exact iff_of_false ends fun short => Nat.ne_of_gt some (by simpa using short)
        | succ index =>
          rw [tokenAt_cons, ih, List.length_cons]
          omega

namespace Cursor

/-- A cursor as it is after a number of advances, from where both slots were still empty. -/
structure Advanced (tokens : List Token) (cursor : Cursor) (count : Nat) : Prop where
  current : cursor.current = tokenAt (Token.eof :: Token.eof :: tokens) count
  peek : cursor.peek = tokenAt (Token.eof :: tokens) count
  pulls : cursor.pulls = min count tokens.length
  unread : cursor.exhausted = false → throughEnd cursor.source = tokens.drop count
  read : cursor.exhausted = true → tokens.length ≤ count

/-- A cursor with the token of an index current and the next one behind it. No more was asked of
the source than that takes. -/
structure At (tokens : List Token) (cursor : Cursor) (index : Nat) : Prop where
  current : cursor.current = tokenAt tokens index
  peek : cursor.peek = tokenAt tokens (index + 1)
  pulls : cursor.pulls = min (index + 2) tokens.length

section Advancing

variable {tokens : List Token} {cursor : Cursor} {count : Nat}

theorem Advanced.at {index : Nat} (h : cursor.Advanced tokens (index + 2)) :
    cursor.At tokens index := ⟨h.current, h.peek, h.pulls⟩

theorem pulls_advance (cursor : Cursor) :
    cursor.advance.pulls = cursor.pulls + if cursor.exhausted then 0 else 1 := by
  have journal := congrArg (List.count Entry.pulled) (journal_advance cursor)
  rw [List.count_append, List.count_reverse, List.count_reverse] at journal
  rw [pulls, journal, pulls]
  split <;> rfl

theorem throughEnd_eq_pull (open' : cursor.exhausted = false) :
    throughEnd cursor.source = cursor.pull.1 ::
      if cursor.pull.2.exhausted then [] else throughEnd cursor.pull.2.source := by
  obtain ⟨source, exhausted, current, peek, journal, deepest⟩ := cursor
  obtain rfl : exhausted = false := open'
  rcases source with _ | ⟨_ | token, rest⟩
  · rfl
  · rfl
  · by_cases ends : token.kind = .eof <;> simp [throughEnd, pull, ends]

theorem Advanced.advance (h : cursor.Advanced tokens count) :
    cursor.advance.Advanced tokens (count + 1) := by
  cases closed : cursor.exhausted with
  | true =>
    have short := h.read closed
    have next : cursor.advance = { cursor with current := cursor.peek, peek := Token.eof } := by
      rw [Cursor.advance, pull_of_exhausted closed]
    rw [next]
    refine ⟨h.peek, (tokenAt_of_length_le short).symm, ?_, fun still => ?_, fun _ => by omega⟩
    · have pulls : cursor.pulls = min count tokens.length := h.pulls
      change cursor.pulls = _
      omega
    · rw [closed] at still
      cases still
  | false =>
    have answers := throughEnd_eq_pull closed
    rw [h.unread closed] at answers
    have inside : count < tokens.length := by
      have long := congrArg List.length answers
      rw [List.length_drop, List.length_cons] at long
      omega
    obtain ⟨here, later⟩ := List.cons.inj ((List.drop_eq_getElem_cons inside).symm.trans answers)
    refine ⟨h.peek, ?_, ?_, fun still => ?_, fun ended => ?_⟩
    · change cursor.pull.1 = _
      rw [tokenAt_cons, tokenAt, List.getD_eq_getElem _ _ inside, here]
    · rw [pulls_advance, h.pulls, closed, if_neg (by decide)]
      omega
    · change cursor.pull.2.exhausted = false at still
      rw [later, still, if_neg (by decide)]
      rfl
    · change cursor.pull.2.exhausted = true at ended
      rw [ended, if_pos rfl, List.drop_eq_nil_iff] at later
      exact later

theorem Advanced.record (h : cursor.Advanced tokens count) (error : ParseError) :
    (cursor.record error).Advanced tokens count :=
  ⟨h.current, h.peek, (pulls_record cursor error).trans h.pulls, h.unread, h.read⟩

theorem Advanced.reach (h : cursor.Advanced tokens count) (depth : Nat) :
    (cursor.reach depth).Advanced tokens count :=
  ⟨h.current, h.peek, h.pulls, h.unread, h.read⟩

theorem Advanced.moves {trail : List Move} (h : cursor.Advanced tokens count)
    (onward : Move.abandon ∉ trail) :
    ∃ later, count ≤ later ∧ (cursor.moves trail).Advanced tokens later := by
  induction trail generalizing cursor count with
  | nil => exact ⟨count, Nat.le_refl _, h⟩
  | cons move trail ih =>
    obtain ⟨kept, others⟩ := not_or.1 (mt List.mem_cons.2 onward)
    cases move with
    | advance =>
      obtain ⟨later, further, reached⟩ := ih h.advance others
      exact ⟨later, Nat.le_of_succ_le further, reached⟩
    | record error => exact ih (h.record error) others
    | reach depth => exact ih (h.reach depth) others
    | abandon => exact absurd rfl kept

theorem pulls_le_moves (cursor : Cursor) (trail : List Move) :
    cursor.pulls ≤ (cursor.moves trail).pulls := by
  induction trail generalizing cursor with
  | nil => exact Nat.le_refl _
  | cons move trail ih =>
    refine Nat.le_trans ?_ (ih (cursor.move move))
    cases move with
    | advance =>
      rw [Cursor.move, pulls_advance]
      exact Nat.le_add_right _ _
    | record error => exact Nat.le_of_eq (pulls_record cursor error).symm
    | reach depth => exact Nat.le_refl _
    | abandon => exact Nat.le_refl _

theorem advanced_ofSource (source : List (Option Token)) :
    (ofSource source).Advanced (throughEnd source) 2 := by
  have start : (Cursor.mk source false Token.eof Token.eof [] 0).Advanced (throughEnd source) 0 :=
    ⟨rfl, rfl, (Nat.zero_min _).symm, fun _ => rfl, nofun⟩
  exact start.advance.advance

end Advancing

/-- A cursor that expects nothing of its source any more. -/
structure GivenUp (cursor : Cursor) : Prop where
  exhausted : cursor.exhausted = true
  current : cursor.current = Token.eof
  peek : cursor.peek = Token.eof

theorem givenUp_abandon (cursor : Cursor) : cursor.abandon.GivenUp := ⟨rfl, rfl, rfl⟩

section GivenUp

variable {cursor : Cursor}

theorem GivenUp.record (h : cursor.GivenUp) (error : ParseError) :
    (cursor.record error).GivenUp := ⟨h.exhausted, h.current, h.peek⟩

theorem GivenUp.advance_eq (h : cursor.GivenUp) : cursor.advance = cursor := by
  rw [Cursor.advance, pull_of_exhausted h.exhausted]
  obtain ⟨source, exhausted, current, peek, journal, deepest⟩ := cursor
  obtain rfl : current = Token.eof := h.current
  obtain rfl : peek = Token.eof := h.peek
  rfl

theorem GivenUp.move (h : cursor.GivenUp) (move : Move) :
    (cursor.move move).GivenUp ∧ (cursor.move move).pulls = cursor.pulls := by
  cases move with
  | advance =>
    rw [Cursor.move, h.advance_eq]
    exact ⟨h, rfl⟩
  | record error => exact ⟨h.record error, pulls_record cursor error⟩
  | reach depth => exact ⟨⟨h.exhausted, h.current, h.peek⟩, rfl⟩
  | abandon => exact ⟨givenUp_abandon cursor, rfl⟩

theorem GivenUp.moves (h : cursor.GivenUp) (trail : List Move) :
    (cursor.moves trail).GivenUp ∧ (cursor.moves trail).pulls = cursor.pulls := by
  induction trail generalizing cursor with
  | nil => exact ⟨h, rfl⟩
  | cons move trail ih =>
    obtain ⟨still, same⟩ := h.move move
    exact ⟨(ih still).1, (ih still).2.trans same⟩

end GivenUp

/-- An index that a cursor is at, told from the calls that were made: up to the first end they are
two ahead of it. -/
def index (cursor : Cursor) : Nat :=
  if cursor.current = Token.eof then cursor.pulls
  else if cursor.current.kind = .eof then cursor.pulls - 1
  else cursor.pulls - 2

section Index

variable {source : List (Option Token)} {cursor later : Cursor} {place further : Nat}

end Index

end Cursor
end Monkey
