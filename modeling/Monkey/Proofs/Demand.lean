import Monkey.Proofs.Operations

set_option autoImplicit false

namespace Monkey

open Parse

theorem Cursor.Later.pulls_le {cursor last : Cursor} (h : cursor.Later last) :
    cursor.pulls ≤ last.pulls := by
  obtain ⟨trail, rfl⟩ := h
  exact cursor.pulls_le_moves trail

theorem Visits.pulls_le {origin last : Cursor} {start place : Place}
    (visit : Visits origin start last place) : origin.pulls ≤ last.pulls := by
  induction visit with
  | refl => exact Nat.le_refl _
  | read _ _ ih => exact ih
  | close _ ih => exact ih
  | @advance last _ _ _ ih => exact Nat.le_trans ih (Cursor.Later.advance last).pulls_le
  | reach _ _ ih => exact ih
  | miss _ _ ih => rwa [Cursor.pulls_record]
  | reject _ ih => rwa [Cursor.pulls_record]
  | unclosed _ _ ih => rwa [Cursor.pulls_record]
  | abandon _ ih => rwa [Cursor.pulls_record]

/-- A cursor whose source has only the answers to a number of calls, beside one whose source goes
on. No more calls than these were made. -/
structure Cursor.Abridges (calls : Nat) (c d : Cursor) : Prop where
  pulls : c.pulls ≤ calls
  exhausted : c.exhausted = d.exhausted
  source : c.source = d.source.take (calls - c.pulls)
  peek : c.peek = d.peek

namespace Cursor.Abridges

variable {calls : Nat} {c d : Cursor}

theorem advance (h : c.Abridges calls d) :
    c.advance.Abridges calls d.advance ∨ calls < c.advance.pulls := by
  obtain ⟨pulls, exhausted, source, peek⟩ := h
  have made := c.pulls_advance
  cases closed : c.exhausted with
  | true =>
    rw [closed] at exhausted made
    have hc : c.advance = { c with current := c.peek, peek := Token.eof } := by
      rw [Cursor.advance, pull_of_exhausted closed]
    have hd : d.advance = { d with current := d.peek, peek := Token.eof } := by
      rw [Cursor.advance, pull_of_exhausted exhausted.symm]
    rw [hc, hd]
    exact .inl ⟨pulls, closed.trans exhausted, source, rfl⟩
  | false =>
    rw [closed, if_neg (by decide)] at made
    by_cases enough : c.pulls + 1 ≤ calls
    · left
      obtain ⟨left, hleft⟩ : ∃ left, calls - c.pulls = left + 1 := ⟨calls - c.pulls - 1, by omega⟩
      have fewer : calls - c.advance.pulls = left := by omega
      have within : c.advance.pulls ≤ calls := by omega
      rw [hleft] at source
      rw [closed] at exhausted
      obtain ⟨first, early, current, next, journal, deepest⟩ := c
      obtain ⟨second, late, current', next', journal', deepest'⟩ := d
      obtain rfl : early = false := closed
      obtain rfl : late = false := exhausted.symm
      obtain rfl : first = second.take (left + 1) := source
      rcases second with _ | ⟨_ | token, rest⟩
      · exact ⟨within, rfl, by rw [fewer]; exact List.take_nil.symm, rfl⟩
      · exact ⟨within, rfl, by rw [fewer]; rfl, rfl⟩
      · exact ⟨within, rfl, by rw [fewer]; rfl, rfl⟩
    · exact .inr (by omega)

theorem record (h : c.Abridges calls d) (error : ParseError) :
    (c.record error).Abridges calls (d.record error) :=
  ⟨(pulls_record c error).symm ▸ h.pulls, h.exhausted, (pulls_record c error).symm ▸ h.source,
    h.peek⟩

end Cursor.Abridges

/-- A run on the answers to a number of calls and one on a source that goes on. They are told apart
by nothing but a token that the first one has not been answered, and has not read. -/
structure Abridged (calls : Nat) (place : Place) (c d : Cursor) : Prop where
  settled : c.Settled ∧ d.Settled
  errors : c.errors = d.errors
  current : c.current = d.current
  source : c.Abridges calls d ∨ place = .current ∧ calls < c.pulls

namespace Abridged

variable {calls : Nat} {place : Place} {c d : Cursor}

theorem abridges (h : Abridged calls place c d) (read : place ≠ .current) : c.Abridges calls d :=
  h.source.resolve_right fun late => read late.1

theorem advance (h : Abridged calls place c d) (read : place ≠ .current) :
    Abridged calls .current c.advance d.advance := by
  refine ⟨⟨h.settled.1.advance, h.settled.2.advance⟩, ?_, (h.abridges read).peek, ?_⟩
  · rw [Cursor.errors_advance, Cursor.errors_advance, h.errors]
  · exact (h.abridges read).advance.imp_right fun late => ⟨rfl, late⟩

theorem past (h : Abridged calls place c d) (stop : Place) :
    Abridged calls stop c d ∨ calls < c.pulls := by
  rcases h.source with source | ⟨-, late⟩
  · exact .inl ⟨h.settled, h.errors, h.current, .inl source⟩
  · exact .inr late

theorem record (h : Abridged calls .closed c d) (error : ParseError) :
    Abridged calls .closed (c.record error) (d.record error) := by
  refine ⟨⟨h.settled.1.record error, h.settled.2.record error⟩, ?_, h.current,
    .inl ((h.abridges (by decide)).record error)⟩
  rw [Cursor.errors_record, Cursor.errors_record, h.errors]

theorem pastRecord (h : Abridged calls place c d) (error : ParseError) :
    Abridged calls .closed (c.record error) (d.record error) ∨
      calls < (c.record error).pulls := by
  rw [Cursor.pulls_record]
  exact (h.past .closed).imp_left fun closed => closed.record error

end Abridged

def Coupling.abridged (calls : Nat) : Coupling where
  inStep := Abridged calls
  parted _ _ := False
  lost _ c _ := calls < c.pulls
  settled h := h.settled
  head {c d} h := by
    rw [Cursor.ahead, Cursor.ahead, h.current]
    split <;> rfl
  next h := ⟨h.current, congrArg Token.kind (h.abridges (by decide)).peek⟩
  reach levels h :=
    ⟨⟨h.settled.1.reach levels, h.settled.2.reach levels⟩, h.errors, h.current,
      h.source.imp_left fun source => ⟨source.pulls, source.exhausted, source.source, source.peek⟩⟩
  read h _ := h.past .next
  close h := ⟨h.settled, h.errors, h.current, .inl (h.abridges (by decide))⟩
  semicolon h _ := h.past .closed
  advance h := h.advance (by decide)
  goOn h := .inl (h.advance (by decide))
  miss _ h := h.pastRecord _
  reject h := h.pastRecord _
  unclosed h _ := h.pastRecord _
  abandon {place c d} h := by
    have settled := And.intro (Cursor.settled_abandon c) (Cursor.settled_abandon d)
    have given : Abridged calls .current c.abandon d.abandon :=
      ⟨settled, h.errors, rfl, h.source.imp
        (fun source => ⟨source.pulls, rfl, source.source, rfl⟩) fun late => ⟨rfl, late.2⟩⟩
    exact given.pastRecord _
  ahead_of_parted := @ahead_of_unparted
  lost_of_parted h _ := h.elim
  keeps lost visit _ := Nat.lt_of_lt_of_le lost visit.pulls_le

theorem abridged_ofSource (source : List (Option Token)) {calls : Nat}
    (enough : (Cursor.ofSource (source.take calls)).pulls ≤ calls) :
    Abridged calls .current (Cursor.ofSource (source.take calls)) (Cursor.ofSource source) := by
  have start : (Cursor.mk (source.take calls) false Token.eof Token.eof [] 0).Abridges calls
      (Cursor.mk source false Token.eof Token.eof [] 0) := ⟨Nat.zero_le _, rfl, rfl, rfl⟩
  have first := start.advance.resolve_right fun late =>
    absurd (Nat.le_trans (Cursor.Later.advance _).pulls_le enough) (Nat.not_le_of_lt late)
  have second := first.advance.resolve_right (Nat.not_lt_of_le enough)
  refine ⟨⟨Cursor.settled_ofSource _, Cursor.settled_ofSource _⟩, ?_, first.peek, .inl second⟩
  rw [Cursor.errors_ofSource, Cursor.errors_ofSource]

/-- A parser makes no more calls than a list has answers. -/
def Suffices (answers : List (Option Token)) : Prop :=
  (Parser.ofSource answers).parseProgram.2.pulls ≤ answers.length

instance (answers : List (Option Token)) : Decidable (Suffices answers) :=
  inferInstanceAs (Decidable (_ ≤ _))

theorem throughEnd_length_le {source : List (Option Token)} (ended : none ∈ source) :
    (throughEnd source).length ≤ source.length := by
  induction source with
  | nil => cases ended
  | cons answer rest ih =>
    cases answer with
    | none => exact Nat.le_add_left 1 rest.length
    | some token =>
      have later := ih ((List.mem_cons.1 ended).resolve_left nofun)
      rw [throughEnd]
      split
      · exact Nat.le_add_left 1 rest.length
      · exact Nat.succ_le_succ later

theorem pulls_le_of_calm {source : List (Option Token)} {last : Cursor}
    (walk : (Cursor.ofSource source).Calm last) : last.pulls ≤ (throughEnd source).length := by
  obtain ⟨trail, onward, rfl⟩ := walk.trail
  obtain ⟨later, -, reached⟩ := (Cursor.advanced_ofSource source).moves onward
  rw [reached.pulls]
  exact Nat.min_le_right _ _

theorem pulls_parseProgram_le (source : List (Option Token)) :
    (Parser.ofSource source).parseProgram.2.pulls ≤ (throughEnd source).length := by
  rcases (Parser.ofSource source).cursor_parseProgram with walk | ⟨middle, walk, last⟩
  · exact pulls_le_of_calm walk
  · have within : middle.pulls ≤ _ := pulls_le_of_calm walk
    rwa [Parser.pulls, last, Cursor.pulls_record]

/-- An answer that ends a source is the last one to be asked for. -/
theorem suffices_of_none_mem {answers : List (Option Token)} (ended : none ∈ answers) :
    Suffices answers :=
  Nat.le_trans (pulls_parseProgram_le answers) (throughEnd_length_le ended)

/-- What a parser was not asked to fetch has no part in its program. -/
theorem parse_take {source : List (Option Token)} {calls : Nat}
    (enough : Suffices (source.take calls)) : parse (source.take calls) = parse source := by
  have within : (Parser.ofSource (source.take calls)).parseProgram.2.pulls ≤ calls :=
    Nat.le_trans enough (List.length_take_le _ _)
  -- The rounds of a program are counted from its source, so both are given as many.
  obtain ⟨bound, hbound⟩ : ∃ bound, bound =
    max (untilEnd (source.take calls)).length (untilEnd source).length := ⟨_, rfl⟩
  have short := parseProgram_of_length_le (by omega : (untilEnd (source.take calls)).length ≤ bound)
  have made : (parseStmtsToEnd Tables.standard (standardLevel maxNesting) bound
      (Cursor.ofSource (source.take calls))).2.pulls ≤ calls := by
    rw [← short]
    exact within
  have started := (later_parseStmtsToEnd (standardLevel maxNesting) bound
    (Cursor.ofSource (source.take calls))).pulls_le
  have start : (Coupling.abridged calls).inStep .current (Cursor.ofSource (source.take calls))
      (Cursor.ofSource source) := abridged_ofSource source (Nat.le_trans started made)
  have accord := accord_parseStmtsToEnd (standardLevel maxNesting) bound start
    (by rw [Cursor.ahead_ofSource, Cursor.ahead_ofSource]; exact Nat.le_of_eq hbound.symm)
  rw [parse_of_length_le bound (by omega), parse_of_length_le bound (by omega)]
  generalize parseStmtsToEnd _ _ bound (Cursor.ofSource (source.take calls)) = one at *
  generalize parseStmtsToEnd _ _ bound (Cursor.ofSource source) = two at *
  cases accord with
  | same h => rw [h.errors]
  | lost late => exact absurd made (Nat.not_le_of_lt late)
  | parted h => exact h.elim

end Monkey
