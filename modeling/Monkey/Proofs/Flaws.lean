import Monkey.Proofs.Lockstep

set_option autoImplicit false

namespace Monkey

open Parse

/-- The errors that name a flawed token. -/
def ParseError.namesFlaw : ParseError → Bool
  | illegalToken _ | unreadableNumber _ => true
  | _ => false

def flawsOf (tokens : List Token) : List ParseError := tokens.filterMap Token.flaw?

def Cursor.reported (cursor : Cursor) : List ParseError :=
  cursor.errors.filter ParseError.namesFlaw

theorem Cursor.reported_record (cursor : Cursor) (error : ParseError) :
    (cursor.record error).reported =
      cursor.reported ++ if error.namesFlaw then [error] else [] := by
  rw [reported, errors_record, List.filter_append]
  cases h : error.namesFlaw <;> simp [reported, h]

theorem Token.namesFlaw_of_flaw {token : Token} {error : ParseError}
    (h : token.flaw? = some error) : error.namesFlaw = true := by
  unfold Token.flaw? at h
  split at h
  · cases h
    rfl
  · split at h
    · cases h
    · cases h
      rfl
  · cases h

theorem Token.namesFlaw_rejection (token : Token) :
    (if token.rejection.namesFlaw then [token.rejection] else []) = token.flaw?.toList := by
  cases h : token.flaw? with
  | none => simp [Token.rejection, h, ParseError.namesFlaw]
  | some error => simp [Token.rejection, h, Token.namesFlaw_of_flaw h]

theorem Token.flaw?_of_eof {token : Token} (h : token.kind = .eof) : token.flaw? = none := by
  simp [Token.flaw?, h]

theorem flawsOf_ahead {cursor : Cursor} (settled : cursor.Settled) :
    flawsOf cursor.ahead = cursor.current.flaw?.toList ++ flawsOf cursor.after := by
  by_cases ended : cursor.current.kind = .eof
  · have none := Cursor.ahead_of_end ended
    rw [none, Cursor.ahead_eq_nil_of_after none settled, Token.flaw?_of_eof ended]
    rfl
  · rw [Cursor.ahead_of_current ended, flawsOf, List.filterMap_cons]
    cases cursor.current.flaw? <;> rfl

/-- The reported flaws of a run and those that it will still meet make up a list, unless the source
was given up. -/
def Tallies (flaws : List ParseError) (place : Place) (cursor : Cursor) : Prop :=
  cursor.reported ++ flawsOf (cursor.unread place) = flaws ∨
    cursor.reported <+: flaws ∧ cursor.unread place = [] ∧
      .nestingTooDeep maxNesting ∈ cursor.errors

namespace Tallies

variable {flaws : List ParseError} {place stop : Place} {cursor last : Cursor}

theorem reported_prefix (h : Tallies flaws place cursor) : cursor.reported <+: flaws := by
  rcases h with h | ⟨h, -, -⟩
  · exact ⟨_, h⟩
  · exact h

theorem of_eq (h : Tallies flaws place cursor) (reported : last.reported = cursor.reported)
    (unread : last.unread stop = cursor.unread place) (errors : cursor.errors ⊆ last.errors) :
    Tallies flaws stop last := by
  rcases h with h | ⟨h, empty, deep⟩
  · exact .inl (by rw [reported, unread, h])
  · exact .inr ⟨by rwa [reported], by rw [unread, empty], errors deep⟩

theorem past (h : Tallies flaws .current cursor) (settled : cursor.Settled)
    (reported : last.reported = cursor.reported ++ cursor.current.flaw?.toList)
    (unread : last.unread stop = cursor.after) (errors : cursor.errors ⊆ last.errors) :
    Tallies flaws stop last := by
  rcases h with h | ⟨h, empty, deep⟩
  · refine .inl ?_
    rw [Cursor.unread, flawsOf_ahead settled, ← List.append_assoc] at h
    rw [reported, unread, h]
  · have behind := Cursor.ahead_eq_nil_of_after empty settled
    have ended : cursor.current.kind = .eof := by
      rw [← Cursor.headKind_ahead, show cursor.ahead = [] from empty]
      rfl
    rw [Token.flaw?_of_eof ended, Option.toList_none, List.append_nil] at reported
    exact .inr ⟨by rwa [reported], by rw [unread, behind], errors deep⟩

end Tallies

theorem Cursor.reported_advance (cursor : Cursor) : cursor.advance.reported = cursor.reported := by
  rw [reported, errors_advance, reported]

/-- What a run reports and what it has not read yet always make up the same list of flaws. -/
theorem Visits.tallies {flaws : List ParseError} {origin last : Cursor} {start place : Place}
    (visit : Visits origin start last place) (settled : origin.Settled)
    (h : Tallies flaws start origin) : Tallies flaws place last := by
  induction visit with
  | refl => exact h
  | @read last visit sound ih =>
    exact ih.past (visit.settled settled) (by simp [sound]) rfl (List.Subset.refl _)
  | close visit ih => exact ih
  | @advance last place visit done ih =>
    refine ih.of_eq last.reported_advance ?_ (by rw [Cursor.errors_advance]; exact fun _ h => h)
    cases place with
    | current => exact absurd rfl done
    | next => exact Cursor.ahead_advance last
    | closed => exact Cursor.ahead_advance last
  | reach visit levels ih => exact ih
  | @miss last visit expected ih =>
    refine ih.of_eq ?_ rfl (last.errors_subset_record _)
    rw [Cursor.reported_record]
    exact List.append_nil _
  | @reject last visit ih =>
    refine ih.past (visit.settled settled) ?_ rfl (last.errors_subset_record _)
    rw [Cursor.reported_record, Token.namesFlaw_rejection]
  | @unclosed last visit ended ih =>
    refine ih.past (visit.settled settled) ?_ rfl (last.errors_subset_record _)
    rw [Cursor.reported_record, Token.flaw?_of_eof ended]
    rfl
  | @abandon last place visit ih =>
    -- The source is given up here, whatever was still to be read.
    refine .inr ⟨?_, rfl, ?_⟩
    · rw [Cursor.reported_record]
      exact (List.append_nil last.reported).symm ▸ ih.reported_prefix
    · rw [Cursor.errors_record]
      exact List.mem_append_right _ (List.mem_singleton_self _)

/-- The flawed tokens before the first end of a source are reported in the order in which they
stand, each one once, and none is left out unless the nesting limit is exceeded. -/
theorem parse_reports_flaws (source : List (Option Token)) :
    (parse source).2.filter ParseError.namesFlaw <+: flawsOf (untilEnd source) ∧
      ((parse source).2.filter ParseError.namesFlaw = flawsOf (untilEnd source) ∨
        .nestingTooDeep maxNesting ∈ (parse source).2) := by
  have settled := Cursor.settled_ofSource source
  have enough := Cursor.ahead_length_le_remaining (Cursor.ofSource source)
  have run := visits_parseStmtsToEnd (standardLevel maxNesting) settled enough
  have done := ahead_parseStmtsToEnd Tables.standard (standardLevel maxNesting) settled enough
  have start : Tallies (flawsOf (untilEnd source)) .current (Cursor.ofSource source) := by
    rw [← Cursor.ahead_ofSource, Tallies, Cursor.reported, Cursor.errors_ofSource]
    exact .inl rfl
  have tallies := run.tallies settled start
  rw [parse_source]
  refine ⟨tallies.reported_prefix, ?_⟩
  rcases tallies with whole | ⟨-, -, deep⟩
  · rw [Cursor.unread, done] at whole
    exact .inl (by rwa [flawsOf, List.filterMap_nil, List.append_nil] at whole)
  · exact .inr deep

end Monkey
