import Monkey.Proofs.Bounds
import Monkey.Proofs.Simulation

set_option autoImplicit false

namespace Monkey

open Parse

/-- A cursor that differs from another one in the levels it has reached, which are within a peak. -/
def Cursor.Alike (peak : Nat) (cursor other : Cursor) : Prop :=
  ∃ depth ≤ peak, other = { cursor with deepest := depth }

namespace Cursor.Alike

variable {peak : Nat} {cursor other : Cursor}

theorem advance (h : cursor.Alike peak other) : cursor.advance.Alike peak other.advance := by
  obtain ⟨depth, within, rfl⟩ := h
  refine ⟨depth, within, ?_⟩
  obtain ⟨source, exhausted, current, peek, journal, deepest⟩ := cursor
  cases exhausted with
  | true => rfl
  | false =>
    rcases source with _ | ⟨_ | token, rest⟩
    · rfl
    · rfl
    · rfl

theorem record (h : cursor.Alike peak other) (error : ParseError) :
    (cursor.record error).Alike peak (other.record error) := by
  obtain ⟨depth, within, rfl⟩ := h
  exact ⟨depth, within, rfl⟩

theorem reach {low high : Nat} (h : cursor.Alike peak other) (within : high ≤ peak) :
    (cursor.reach low).Alike peak (other.reach high) := by
  obtain ⟨depth, below, rfl⟩ := h
  exact ⟨max depth high, Nat.max_le.2 ⟨below, within⟩, rfl⟩

end Cursor.Alike

def Simulation.roomy (peak : Nat) : Simulation where
  rel := Cursor.Alike peak
  lost _ _ := True
  current h := by
    obtain ⟨depth, -, rfl⟩ := h
    rfl
  peek h := by
    obtain ⟨depth, -, rfl⟩ := h
    rfl
  remaining h := by
    obtain ⟨depth, -, rfl⟩ := h
    rfl
  advance h := h.advance
  record h := h.record
  lost_of_none h _ := h

theorem simulates_tooDeep {α : Type} (peak : Nat) (other : Parse α) :
    Simulates (.roomy peak) tooDeep other := ⟨fun _ => .fatal rfl trivial⟩

theorem simulates_openLevel {peak : Nat} (low : Nat) {high : Nat} (h : high ≤ peak) :
    Simulates (.roomy peak) (openLevel low) (openLevel high) :=
  ⟨fun alike => .ok (alike.reach h)⟩

/-- With a gap of levels more, parsing does the same, and opens its levels below the peak that the
gap leaves. -/
theorem level_roomy (tables : Tables) {peak gap : Nat} (h : maxNesting - gap ≤ peak) (left : Nat) :
    (level tables left).Simulates (.roomy peak) (level tables (left + gap)) := by
  induction left with
  | zero =>
    refine ⟨fun power => simulates_tooDeep peak _, fun power value => ?_,
      simulates_tooDeep peak _⟩
    rw [operators_zero]
    cases gap with
    | zero =>
      rw [Nat.add_zero, operators_zero]
      exact simulates_applyNext _ _ _ fun _ _ => simulates_tooDeep peak _
    | succ gap =>
      rw [Nat.zero_add, operators_succ]
      exact simulates_applyNext _ _ _ fun _ _ => simulates_tooDeep peak _
  | succ below ih =>
    rw [Nat.add_right_comm]
    have opens := simulates_openLevel (maxNesting - below)
      (show maxNesting - (below + gap) ≤ peak by omega)
    exact Level.Simulates.above tables (level tables below) (level tables (below + gap))

theorem roomy_parseStmtsToEnd {peak : Nat} (tables : Tables) (tight roomy : Level)
    [tight.Moves] [Level.Simulates (.roomy peak) tight roomy] (bound : Nat) {c d : Cursor}
    (h : c.Alike peak d) {new : List ParseError}
    (whole : (parseStmtsToEnd tables tight bound c).2.errors = c.errors ++ new)
    (mild : ∀ error ∈ new, error.isFatal = false) :
    (parseStmtsToEnd tables roomy bound d).1 = (parseStmtsToEnd tables tight bound c).1 ∧
      (parseStmtsToEnd tables tight bound c).2.Alike peak
        (parseStmtsToEnd tables roomy bound d).2 := by
  induction bound generalizing c d new with
  | zero => exact ⟨rfl, h⟩
  | succ bound ih =>
    have kind : d.current.kind = c.current.kind := by
      obtain ⟨depth, -, rfl⟩ := h
      rfl
    by_cases stops : c.current.kind = .eof
    · rw [parseStmtsToEnd_of_end _ _ _ stops, parseStmtsToEnd_of_end _ _ _ (kind.trans stops)]
      exact ⟨rfl, h⟩
    · have outcome : Alongside (.roomy peak) (parseStmt tables tight c)
          (parseStmt tables roomy d) := Simulates.alongside h
      obtain ⟨first, recorded, failed⟩ := errors_ended (parseStmt tables tight) c
      obtain ⟨later, follow⟩ := errors_parseStmtsToEnd tight tables bound
        (ended (parseStmt tables tight c)).advance
      have parts : first ++ later = new := by
        rw [parseStmtsToEnd_succ stops, follow, Cursor.errors_advance, recorded,
          List.append_assoc] at whole
        exact List.append_cancel_left whole
      have further (error : ParseError) (member : error ∈ later) : error.isFatal = false :=
        mild error (parts ▸ List.mem_append_right first member)
      rw [parseStmtsToEnd_succ stops, parseStmtsToEnd_succ (kind ▸ stops)]
      generalize parseStmt tables tight c = one at *
      generalize parseStmt tables roomy d = two at *
      cases outcome with
      | ok alike =>
        obtain ⟨same, last⟩ := ih alike.advance follow further
        exact ⟨congrArg (List.cons _) same, last⟩
      | @error error _ _ _ alike => exact ih (alike.record error).advance follow further
      | fatal deep =>
        -- The fatal error would have been recorded.
        rw [mild _ (parts ▸ List.mem_append_left later (failed _ _ rfl))] at deep
        cases deep

/-- How many levels are open at once at most while a source is parsed. -/
def levelsOpened (source : List (Option Token)) : Nat :=
  (Parser.ofSource source).parseProgram.2.cursor.deepest

theorem deepest_ofSource (source : List (Option Token)) : (Cursor.ofSource source).deepest = 0 := by
  rw [Cursor.ofSource, Cursor.deepest_advance, Cursor.deepest_advance]

/-- A program opens no more levels than it derives with. -/
theorem levelsOpened_le_of_derives {source : List (Option Token)} {program : Program} {n : Nat}
    (h : Derives (.statements program) (untilEnd source) n) (hn : n ≤ maxNesting) :
    levelsOpened source ≤ n := by
  have settled := Cursor.settled_ofSource source
  have ahead := Cursor.ahead_ofSource source
  have enough := Cursor.ahead_length_le_remaining (Cursor.ofSource source)
  obtain ⟨-, quiet⟩ := parseStmtsToEnd_of_derives h (Nat.le_refl n) settled ahead (ahead ▸ enough)
  have roomy := level_roomy Tables.standard (show maxNesting - (maxNesting - n) ≤ n by omega) n
  rw [Nat.add_sub_cancel' hn] at roomy
  have start : (Cursor.ofSource source).Alike n (Cursor.ofSource source) :=
    ⟨0, Nat.zero_le n, by rw [← deepest_ofSource source]⟩
  obtain ⟨-, depth, within, same⟩ := roomy_parseStmtsToEnd Tables.standard (standardLevel n)
    (standardLevel maxNesting) (Cursor.ofSource source).remaining start
    (quiet.trans (List.append_nil _).symm) nofun
  rw [levelsOpened]
  exact Nat.le_trans (Nat.le_of_eq (congrArg Cursor.deepest same)) within

end Monkey
