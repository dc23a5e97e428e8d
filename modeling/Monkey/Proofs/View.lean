import Monkey.Cursor

set_option autoImplicit false

namespace Monkey

/-- The answers of a source before its first end, which is an end token or no answer. -/
def untilEnd : List (Option Token) → List Token
  | some token :: rest => if token.kind = .eof then [] else token :: untilEnd rest
  | _ => []

/-- The kind a parser sees at the head of the tokens before it. -/
def headKind : List Token → TokenKind
  | [] => .eof
  | token :: _ => token.kind

@[simp] theorem headKind_cons (token : Token) (rest : List Token) :
    headKind (token :: rest) = token.kind := rfl

theorem headKind_append {tokens : List Token} (h : headKind tokens ≠ .eof) (others : List Token) :
    headKind (tokens ++ others) = headKind tokens := by
  cases tokens with
  | nil => exact absurd rfl h
  | cons token rest => rfl

theorem length_pos_of_headKind {tokens : List Token} (h : headKind tokens ≠ .eof) :
    0 < tokens.length := by
  cases tokens with
  | nil => exact absurd rfl h
  | cons token rest => exact Nat.succ_pos _

theorem untilEnd_append (tokens : List Token) (h : ∀ token ∈ tokens, token.kind ≠ .eof)
    (source : List (Option Token)) :
    untilEnd (tokens.map some ++ source) = tokens ++ untilEnd source := by
  induction tokens with
  | nil => rfl
  | cons token rest ih =>
    have first : token.kind ≠ .eof := h token (by simp)
    have later := ih fun other hother => h other (by simp [hother])
    simp [untilEnd, first, later]

theorem untilEnd_map_some (tokens : List Token) (h : ∀ token ∈ tokens, token.kind ≠ .eof) :
    untilEnd (tokens.map some) = tokens := by
  simpa [untilEnd] using untilEnd_append tokens h []

theorem untilEnd_append_end (tokens : List Token) (h : ∀ token ∈ tokens, token.kind ≠ .eof)
    (rest : List (Option Token)) :
    untilEnd (tokens.map some ++ some Token.eof :: rest) = tokens := by
  simpa [untilEnd, Token.eof] using untilEnd_append tokens h (some Token.eof :: rest)

theorem untilEnd_length_le (source : List (Option Token)) :
    (untilEnd source).length ≤ source.length := by
  induction source with
  | nil => exact Nat.le_refl _
  | cons answer rest ih =>
    cases answer with
    | none => simp [untilEnd]
    | some first =>
      by_cases hend : first.kind = .eof
      · simp [untilEnd, hend]
      · simpa [untilEnd, hend] using ih

namespace Cursor

def unseen (cursor : Cursor) : List Token :=
  if cursor.exhausted then [] else untilEnd cursor.source

def after (cursor : Cursor) : List Token :=
  if cursor.peek.kind = .eof then [] else cursor.peek :: cursor.unseen

/-- The tokens from the current one on. -/
def ahead (cursor : Cursor) : List Token :=
  if cursor.current.kind = .eof then [] else cursor.current :: cursor.after

/-- An end in view is the last thing in view. -/
structure Settled (cursor : Cursor) : Prop where
  exhausted_of_peek : cursor.peek.kind = .eof → cursor.exhausted = true
  peek_of_current : cursor.current.kind = .eof → cursor.peek.kind = .eof

theorem headKind_after (cursor : Cursor) : headKind cursor.after = cursor.peek.kind := by
  unfold after
  split
  · rename_i h
    exact h.symm
  · rfl

theorem headKind_ahead (cursor : Cursor) : headKind cursor.ahead = cursor.current.kind := by
  unfold ahead
  split
  · rename_i h
    exact h.symm
  · rfl

theorem ahead_of_current {cursor : Cursor} (h : cursor.current.kind ≠ .eof) :
    cursor.ahead = cursor.current :: cursor.after := by
  simp [ahead, h]

theorem ahead_of_end {cursor : Cursor} (h : cursor.current.kind = .eof) : cursor.ahead = [] :=
  if_pos h

theorem ahead_eq_nil_iff (cursor : Cursor) : cursor.ahead = [] ↔ cursor.atEnd = true := by
  by_cases h : cursor.current.kind = .eof <;> simp [ahead, atEnd, h]

theorem current_of_ahead {cursor : Cursor} {token : Token} {rest : List Token}
    (h : cursor.ahead = token :: rest) : cursor.current = token ∧ cursor.after = rest := by
  unfold ahead at h
  split at h
  · cases h
  · cases h
    exact ⟨rfl, rfl⟩

theorem unseen_eq_pull (cursor : Cursor) :
    cursor.unseen =
      if cursor.pull.1.kind = .eof then [] else cursor.pull.1 :: cursor.pull.2.unseen := by
  obtain ⟨source, exhausted, current, peek, journal, deepest⟩ := cursor
  cases exhausted with
  | true => simp [unseen, pull, Token.eof]
  | false =>
    rcases source with _ | ⟨_ | token, rest⟩
    · simp [unseen, pull, untilEnd, Token.eof]
    · simp [unseen, pull, untilEnd, Token.eof]
    · by_cases h : token.kind = .eof <;> simp [unseen, pull, untilEnd, h]

theorem exhausted_pull (cursor : Cursor) (h : cursor.pull.1.kind = .eof) :
    cursor.pull.2.exhausted = true := by
  obtain ⟨source, exhausted, current, peek, journal, deepest⟩ := cursor
  cases exhausted with
  | true => rfl
  | false =>
    rcases source with _ | ⟨_ | token, rest⟩
    · rfl
    · rfl
    · simpa [pull] using h

theorem pull_of_exhausted {cursor : Cursor} (h : cursor.exhausted = true) :
    cursor.pull = (Token.eof, cursor) := by
  simp [pull, h]

@[simp] theorem ahead_advance (cursor : Cursor) : cursor.advance.ahead = cursor.after := by
  change (if cursor.peek.kind = .eof then [] else cursor.peek ::
    (if cursor.pull.1.kind = .eof then [] else cursor.pull.1 :: cursor.pull.2.unseen)) = _
  rw [← unseen_eq_pull]
  rfl

theorem after_advance {cursor : Cursor} (h : cursor.Settled) :
    cursor.advance.after = cursor.after.tail := by
  have next : cursor.advance.after = cursor.unseen := (unseen_eq_pull cursor).symm
  rw [next]
  by_cases hpeek : cursor.peek.kind = .eof
  · simp [after, hpeek, unseen, h.exhausted_of_peek hpeek]
  · simp [after, hpeek]

theorem after_of_advance_exhausted {cursor : Cursor}
    (h : cursor.advance.exhausted = true) : cursor.advance.after = [] := by
  obtain ⟨source, exhausted, current, peek, journal, deepest⟩ := cursor
  cases exhausted with
  | true => rfl
  | false =>
    rcases source with _ | ⟨_ | token, rest⟩
    · rfl
    · rfl
    · have ended : token.kind = .eof := by simpa [advance, pull] using h
      simp [advance, pull, after, ended]

theorem journal_advance (cursor : Cursor) : cursor.advance.journal.reverse =
    cursor.journal.reverse ++ if cursor.exhausted then [] else [.pulled] := by
  obtain ⟨source, exhausted, current, peek, journal, deepest⟩ := cursor
  cases exhausted with
  | true => simp [advance, pull]
  | false => rcases source with _ | ⟨_ | token, rest⟩ <;> simp [advance, pull]

theorem Settled.advance {cursor : Cursor} (h : cursor.Settled) : cursor.advance.Settled where
  exhausted_of_peek := exhausted_pull cursor
  peek_of_current hpeek := by
    have pulled := pull_of_exhausted (h.exhausted_of_peek hpeek)
    change cursor.pull.1.kind = .eof
    rw [pulled]
    rfl

theorem Settled.record {cursor : Cursor} (h : cursor.Settled) (error : ParseError) :
    (cursor.record error).Settled := ⟨h.exhausted_of_peek, h.peek_of_current⟩

theorem Settled.reach {cursor : Cursor} (h : cursor.Settled) (depth : Nat) :
    (cursor.reach depth).Settled := ⟨h.exhausted_of_peek, h.peek_of_current⟩

theorem settled_of_ahead {cursor : Cursor} {first second : Token} {others : List Token}
    (h : cursor.ahead = first :: second :: others) : cursor.Settled := by
  have after := (current_of_ahead h).2
  refine ⟨fun hpeek => ?_, fun hcurrent => ?_⟩
  · rw [Cursor.after, if_pos hpeek] at after
    cases after
  · rw [ahead_of_end hcurrent] at h
    cases h

theorem settled_abandon (cursor : Cursor) : cursor.abandon.Settled :=
  ⟨fun _ => rfl, fun _ => rfl⟩

@[simp] theorem after_record (cursor : Cursor) (error : ParseError) :
    (cursor.record error).after = cursor.after := rfl

@[simp] theorem after_reach (cursor : Cursor) (depth : Nat) :
    (cursor.reach depth).after = cursor.after := rfl

@[simp] theorem ahead_reach (cursor : Cursor) (depth : Nat) :
    (cursor.reach depth).ahead = cursor.ahead := rfl

theorem unseen_length_le (cursor : Cursor) : cursor.unseen.length ≤ cursor.source.length := by
  unfold unseen
  split
  · exact Nat.zero_le _
  · exact untilEnd_length_le _

theorem ahead_length_le_remaining (cursor : Cursor) : cursor.ahead.length ≤ cursor.remaining := by
  have tail := cursor.unseen_length_le
  unfold ahead after remaining
  split
  · exact Nat.zero_le _
  · split <;> simp only [List.length_cons, List.length_nil] <;> omega

theorem after_length_le_remaining (cursor : Cursor) : cursor.after.length ≤ cursor.remaining := by
  have tail := cursor.unseen_length_le
  unfold after remaining
  split
  · exact Nat.zero_le _
  · simp only [List.length_cons]
    omega

theorem ahead_ofSource (source : List (Option Token)) :
    (ofSource source).ahead = untilEnd source := by
  rw [ofSource, ahead_advance]
  exact (unseen_eq_pull (Cursor.mk source false Token.eof Token.eof [] 0)).symm

theorem settled_ofSource (source : List (Option Token)) : (ofSource source).Settled where
  exhausted_of_peek := exhausted_pull _
  peek_of_current hcurrent := by
    have done := exhausted_pull (Cursor.mk source false Token.eof Token.eof [] 0) hcurrent
    have pulled : (Cursor.mk source false Token.eof Token.eof [] 0).advance.pull = _ :=
      pull_of_exhausted done
    change (Cursor.advance _).pull.1.kind = .eof
    rw [pulled]
    rfl

theorem errors_ofSource (source : List (Option Token)) : (ofSource source).errors = [] := by
  rw [ofSource, errors_advance, errors_advance]
  rfl

end Cursor
end Monkey
