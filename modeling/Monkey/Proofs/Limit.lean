import Monkey.Proofs.Operations
import Monkey.Proofs.Simulation

set_option autoImplicit false

namespace Monkey

open Parse

def limitNote : ParseError := .nestingTooDeep (maxNesting + 1)

def noteDeep {α : Type} : Parse α := fun cursor =>
  .error (.nestingTooDeep maxNesting) (cursor.record limitNote).abandon

/-- The levels of a grammar, with a note by whatever finds none left. -/
def notingLevel (tables : Tables) : Nat → Level
  | 0 =>
    { expression _ := noteDeep
      operators power left := applyNext tables power left fun _ _ => noteDeep
      block := noteDeep }
  | left + 1 => Level.above tables (maxNesting - left) (notingLevel tables left)

def Simulation.noting : Simulation where
  rel := Eq
  lost c other? := ∃ middle : Cursor, c = middle.abandon ∧
    other? = some (.nestingTooDeep maxNesting, (middle.record limitNote).abandon)
  current h := congrArg Cursor.current h.symm
  peek h := congrArg Cursor.peek h.symm
  remaining h := congrArg Cursor.remaining h.symm
  advance h := congrArg Cursor.advance h
  record h error := congrArg (Cursor.record · error) h
  lost_of_none h := nomatch h.choose_spec.2

instance {α : Type} : Simulates .noting (tooDeep : Parse α) noteDeep :=
  ⟨fun {c d} h => .fatal rfl ⟨c, rfl, by rw [h]; rfl⟩⟩

instance (depth : Nat) : Simulates .noting (openLevel depth) (openLevel depth) :=
  ⟨fun h => .ok (congrArg (Cursor.reach · depth) h)⟩

theorem level_noting (tables : Tables) (left : Nat) :
    (level tables left).Simulates .noting (notingLevel tables left) := by
  induction left with
  | zero =>
    have applied (power : BindingPower) (value : Expr) :
        Simulates .noting (applyNext tables power value fun _ _ => tooDeep)
          (applyNext tables power value fun _ _ => noteDeep) :=
      simulates_applyNext tables power value fun _ _ => inferInstance
    exact ⟨fun _ => inferInstanceAs (Simulates _ tooDeep noteDeep), applied,
      inferInstanceAs (Simulates _ tooDeep noteDeep)⟩
  | succ below ih => exact Level.Simulates.above tables _ _

theorem Cursor.Calm.journal {cursor last : Cursor} (walk : cursor.Calm last) :
    ∃ entries, last.journal = entries ++ cursor.journal ∧
      ∀ error, .recorded error ∈ entries → error.isFatal = false := by
  induction walk with
  | refl => exact ⟨[], rfl, nofun⟩
  | @advance last _ ih =>
    obtain ⟨entries, whole, mild⟩ := ih
    have step := congrArg List.reverse last.journal_advance
    rw [List.reverse_append, List.reverse_reverse, List.reverse_reverse, whole] at step
    refine ⟨_, step.trans (List.append_assoc _ _ _).symm, fun error member => ?_⟩
    rcases List.mem_append.1 member with new | old
    · split at new <;> simp at new
    · exact mild error old
  | reach _ ih => exact ih
  | @record _ error _ harmless ih =>
    obtain ⟨entries, whole, mild⟩ := ih
    refine ⟨.recorded error :: entries, congrArg (List.cons _) whole, fun other member => ?_⟩
    rcases List.mem_cons.1 member with same | old
    · cases same
      exact harmless
    · exact mild other old

theorem noting_parseStmt (tables : Tables) (left : Nat) (cursor : Cursor) :
    parseStmt tables (notingLevel tables left) cursor =
        parseStmt tables (level tables left) cursor ∧
      cursor.Calm (ended (parseStmt tables (level tables left) cursor)) ∨
    ∃ middle, cursor.Calm middle ∧
      parseStmt tables (level tables left) cursor =
        .error (.nestingTooDeep maxNesting) middle.abandon ∧
      ∃ last : Cursor, last.journal = .recorded limitNote :: middle.journal ∧
        parseStmt tables (notingLevel tables left) cursor =
          .error (.nestingTooDeep maxNesting) last.abandon := by
  have noting := level_noting tables left
  have alongside : Alongside .noting (parseStmt tables (level tables left) cursor)
    (parseStmt tables (notingLevel tables left) cursor) := Simulates.alongside rfl
  have outcome : Outcome cursor (parseStmt tables (level tables left) cursor) :=
    Moves.outcome cursor
  generalize parseStmt tables (level tables left) cursor = plain at *
  generalize parseStmt tables (notingLevel tables left) cursor = noted at *
  cases outcome with
  | value walk =>
    cases alongside with
    | ok same =>
      cases same
      exact .inl ⟨rfl, walk⟩
  | error walk mild =>
    cases alongside with
    | error _ same =>
      cases same
      exact .inl ⟨rfl, walk.record mild⟩
    | fatal deep =>
      rw [mild] at deep
      cases deep
  | @tooDeep middle walk =>
    cases alongside with
    | error mild => cases mild
    | fatal _ lost =>
      obtain ⟨other, same, lost⟩ := lost
      refine .inr ⟨middle, walk, rfl, other.record limitNote, ?_, ?_⟩
      · exact congrArg (List.cons _) (congrArg Cursor.journal same).symm
      · cases noted with
        | ok value last => cases lost
        | error error last =>
          rw [fatalEnd?] at lost
          split at lost
          · cases lost
            rfl
          · cases lost

/-- What becomes of the statements of a source in a run and in one with notes: the same and nothing
fatal, or after some rounds a statement meets the limit, and the run ends there. -/
theorem noting_parseStmtsToEnd (tables : Tables) (left bound : Nat) (cursor : Cursor) :
    parseStmtsToEnd tables (notingLevel tables left) bound cursor =
        parseStmtsToEnd tables (level tables left) bound cursor ∧
      cursor.Calm (parseStmtsToEnd tables (level tables left) bound cursor).2 ∨
    ∃ rounds middle, cursor.Calm middle ∧
      let done := parseStmtsToEnd tables (level tables left) rounds cursor
      done.2.current.kind ≠ .eof ∧
      parseStmt tables (level tables left) done.2 =
        .error (.nestingTooDeep maxNesting) middle.abandon ∧
      parseStmtsToEnd tables (level tables left) bound cursor =
        (done.1, middle.abandon.record (.nestingTooDeep maxNesting)) ∧
      (parseStmtsToEnd tables (notingLevel tables left) bound cursor).2.journal =
        .recorded (.nestingTooDeep maxNesting) :: .recorded limitNote :: middle.journal := by
  induction bound generalizing cursor with
  | zero => exact .inl ⟨rfl, .refl⟩
  | succ bound ih =>
    by_cases stops : cursor.current.kind = .eof
    · rw [parseStmtsToEnd_of_end _ _ _ stops, parseStmtsToEnd_of_end _ _ _ stops]
      exact .inl ⟨rfl, .refl⟩
    · rcases noting_parseStmt tables left cursor with ⟨same, walk⟩ | ⟨middle, walk, run, last, note,
        noted⟩
      · rw [parseStmtsToEnd_succ stops, parseStmtsToEnd_succ stops, same]
        rcases ih (ended (parseStmt tables (level tables left) cursor)).advance with
          ⟨later, walk'⟩ | ⟨rounds, middle, walk', token, run, whole, noted⟩
        · rw [later]
          exact .inl ⟨rfl, walk.advance.trans walk'⟩
        · refine .inr ⟨rounds + 1, middle, walk.advance.trans walk', ?_⟩
          rw [parseStmtsToEnd_succ stops, whole]
          exact ⟨token, run, rfl, noted⟩
      · refine .inr ⟨0, middle, walk, stops, run, parseStmtsToEnd_of_abandon stops run bound, ?_⟩
        rw [parseStmtsToEnd_of_abandon stops noted bound, ← note]
        rfl

theorem Cursor.Calm.count_limitNote {cursor last : Cursor} (walk : cursor.Calm last) :
    last.journal.count (.recorded limitNote) = cursor.journal.count (.recorded limitNote) := by
  obtain ⟨entries, whole, mild⟩ := walk.journal
  have none : entries.count (.recorded limitNote) = 0 :=
    List.count_eq_zero.2 fun member => absurd (mild limitNote member) (by decide)
  rw [whole, List.count_append, none, Nat.zero_add]

namespace Parser

def notedJournal (parser : Parser) : List Entry :=
  (parseStmtsToEnd parser.tables (notingLevel parser.tables parser.levelsLeft)
    parser.cursor.remaining parser.cursor).2.journal

/-- A program meets the limit if a note was left on it. -/
def exceedsLimit (parser : Parser) : Bool :=
  parser.cursor.journal.count (.recorded limitNote) <
    parser.notedJournal.count (.recorded limitNote)

variable {parser : Parser}

theorem calm_of_not_exceedsLimit (h : parser.exceedsLimit = false) :
    parser.cursor.Calm parser.parseProgram.2.cursor ∧
      parser.notedJournal = parser.parseProgram.2.cursor.journal := by
  rcases noting_parseStmtsToEnd parser.tables parser.levelsLeft parser.cursor.remaining
    parser.cursor with ⟨same, walk⟩ | ⟨rounds, middle, walk, -, -, -, noted⟩
  · exact ⟨walk, congrArg (fun parsed => parsed.2.journal) same⟩
  · have more := walk.count_limitNote
    rw [exceedsLimit, notedJournal, noted, List.count_cons_of_ne (by decide),
      List.count_cons_self, more] at h
    simp at h

end Parser

end Monkey
