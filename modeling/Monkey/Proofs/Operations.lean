import Monkey.Proofs.Continuation
import Monkey.Proofs.Position

set_option autoImplicit false

namespace Monkey

open Parse

/-- What a parser can be asked for. -/
inductive Operation where
  | advance
  | expectPeek (kind : TokenKind)
  | skipSemicolon
  | enterNesting
  | restoreNesting (depth : Nat)
  | recordError (error : ParseError)
  | setOperand (kind : TokenKind) (form : OperandForm)
  | setOperator (kind : TokenKind) (power : BindingPower) (form : OperatorForm)
  | setStatement (kind : TokenKind) (form : StatementForm)
  | parseExpression (power : BindingPower)
  | parseStmt
  | parseBlock
  | parseProgram
  | parseOperandForm (form : OperandForm)
  | parseOperatorForm (form : OperatorForm) (left : Expr) (power : BindingPower)
  | parseStatementForm (form : StatementForm)

def failures {α : Type} : Except ParseError α → List ParseError
  | .ok _ => []
  | .error error => [error]

/-- The errors that an operation answers with, and the parser after it. A program answers with the
errors that it records. -/
def Operation.perform (parser : Parser) : Operation → List ParseError × Parser
  | advance => ([], parser.advance)
  | expectPeek kind => (parser.expectPeek kind).map failures id
  | skipSemicolon => ([], parser.skipSemicolon)
  | enterNesting => parser.enterNesting.map failures id
  | restoreNesting depth => ([], parser.restoreNesting depth)
  | recordError error => ([], parser.recordError error)
  | setOperand kind form => ([], parser.setOperand kind form)
  | setOperator kind power form => ([], parser.setOperator kind power form)
  | setStatement kind form => ([], parser.setStatement kind form)
  | parseExpression power => (parser.parseExpression power).map failures id
  | parseStmt => parser.parseStmt.map failures id
  | parseBlock => parser.parseBlock.map failures id
  | parseProgram =>
    (parser.parseProgram.2.errors.drop parser.errors.length, parser.parseProgram.2)
  | parseOperandForm form => (parser.parseOperandForm form).map failures id
  | parseOperatorForm form left power => (parser.parseOperatorForm form left power).map failures id
  | parseStatementForm form => (parser.parseStatementForm form).map failures id

namespace Parser

def perform (parser : Parser) (operations : List Operation) : Parser :=
  operations.foldl (fun parser operation => (operation.perform parser).2) parser

def tooDeep (parser : Parser) : List Operation → Bool
  | [] => false
  | operation :: operations =>
    (operation.perform parser).1.any ParseError.isFatal ||
      (operation.perform parser).2.tooDeep operations

theorem tooDeep_singleton (parser : Parser) (operation : Operation) :
    parser.tooDeep [operation] = (operation.perform parser).1.any ParseError.isFatal :=
  Bool.or_false _

/-- What an operation does to a parser: it moves on in the source, or nests too deep and gives the
source up. -/
inductive Effect (parser : Parser) : List ParseError × Parser → Prop where
  | goesOn {errors : List ParseError} {after : Parser}
      (mild : errors.any ParseError.isFatal = false) (trail : List Move)
      (onward : Move.abandon ∉ trail) (moved : after.cursor = parser.cursor.moves trail) :
      Effect parser (errors, after)
  | givesUp {errors : List ParseError} {after : Parser}
      (fatal : errors.any ParseError.isFatal = true) (trail : List Move)
      (moved : after.cursor = parser.cursor.moves trail) (givenUp : after.cursor.GivenUp) :
      Effect parser (errors, after)

variable {parser after : Parser} {errors : List ParseError}

theorem Effect.of_calm (walk : parser.cursor.Calm after.cursor)
    (mild : errors.any ParseError.isFatal = false) : parser.Effect (errors, after) := by
  obtain ⟨trail, onward, moved⟩ := walk.trail
  exact .goesOn mild trail onward moved

theorem Effect.of_abandon {middle : Cursor} (walk : parser.cursor.Calm middle)
    (fatal : errors.any ParseError.isFatal = true) (last : after.cursor = middle.abandon) :
    parser.Effect (errors, after) := by
  obtain ⟨trail, -, rfl⟩ := walk.trail
  refine .givesUp fatal (trail ++ [.abandon]) ?_ ?_
  · rw [last, Cursor.moves_append]
    rfl
  · rw [last]
    exact Cursor.givenUp_abandon _

theorem Effect.of_cursor_eq (same : after.cursor = parser.cursor) : parser.Effect ([], after) :=
  .goesOn rfl [] List.not_mem_nil same

theorem Effect.trail {result : List ParseError × Parser} (h : parser.Effect result) :
    ∃ trail, result.2.cursor = parser.cursor.moves trail := by
  cases h with
  | goesOn _ trail _ moved => exact ⟨trail, moved⟩
  | givesUp _ trail moved _ => exact ⟨trail, moved⟩

theorem effect_run {α : Type} (parser : Parser) (action : Level → Parse α)
    [h : Moves (action (level parser.tables parser.levelsLeft))] :
    parser.Effect ((parser.run action).map failures id) := by
  have outcome := h.outcome parser.cursor
  unfold run
  generalize action (level parser.tables parser.levelsLeft) parser.cursor = result at outcome
  cases outcome with
  | value walk => exact .of_calm walk rfl
  | error walk mild => exact .of_calm walk (by simp [failures, mild])
  | tooDeep walk => exact .of_abandon walk rfl rfl

theorem effect_enterNesting (parser : Parser) :
    parser.Effect (Operation.enterNesting.perform parser) := by
  rw [Operation.perform, enterNesting]
  split
  · exact .of_abandon .refl rfl rfl
  · exact .of_calm (.reach .refl) rfl

end Parser

theorem parseStmtsToEnd_of_abandon {tables : Tables} {offered : Level} {cursor middle : Cursor}
    {error : ParseError} (token : cursor.current.kind ≠ .eof)
    (run : parseStmt tables offered cursor = .error error middle.abandon) (bound : Nat) :
    parseStmtsToEnd tables offered (bound + 1) cursor = ([], middle.abandon.record error) := by
  -- The loop advances after the record too, which moves nothing any more.
  have still : (middle.abandon.record error).advance = middle.abandon.record error :=
    ((Cursor.givenUp_abandon middle).record error).advance_eq
  rw [parseStmtsToEnd_succ token, run, ended, still, parseStmtsToEnd_of_nil _ _ _ rfl]
  rfl

theorem outcome_parseStmtsToEnd (tables : Tables) (offered : Level) [offered.Moves] (bound : Nat)
    (cursor : Cursor) :
    cursor.Calm (parseStmtsToEnd tables offered bound cursor).2 ∨
      ∃ middle, cursor.Calm middle ∧ (parseStmtsToEnd tables offered bound cursor).2 =
        middle.abandon.record (.nestingTooDeep maxNesting) := by
  induction bound generalizing cursor with
  | zero => exact .inl .refl
  | succ bound ih =>
    by_cases stops : cursor.current.kind = .eof
    · rw [parseStmtsToEnd_of_end _ _ _ stops]
      exact .inl .refl
    · have outcome : Outcome cursor (parseStmt tables offered cursor) := Moves.outcome cursor
      generalize run : parseStmt tables offered cursor = result at outcome
      cases outcome with
      | value walk =>
        rw [parseStmtsToEnd_succ stops, run]
        exact (ih _).imp walk.advance.trans fun ⟨middle, later, last⟩ =>
          ⟨middle, walk.advance.trans later, last⟩
      | error walk mild =>
        have recorded := (walk.record mild).advance
        rw [parseStmtsToEnd_succ stops, run]
        exact (ih _).imp recorded.trans fun ⟨middle, later, last⟩ =>
          ⟨middle, recorded.trans later, last⟩
      | @tooDeep last walk =>
        exact .inr ⟨last, walk, congrArg Prod.snd (parseStmtsToEnd_of_abandon stops run bound)⟩

theorem Cursor.Calm.errors {cursor last : Cursor} (walk : cursor.Calm last) :
    ∃ more, last.errors = cursor.errors ++ more ∧ more.any ParseError.isFatal = false := by
  induction walk with
  | refl => exact ⟨[], (List.append_nil _).symm, rfl⟩
  | advance _ ih => rwa [errors_advance]
  | reach _ ih => exact ih
  | record _ mild ih =>
    obtain ⟨more, whole, before⟩ := ih
    exact ⟨more ++ [_], by rw [errors_record, whole, List.append_assoc], by simp [before, mild]⟩

namespace Parser

variable {parser : Parser}

theorem cursor_parseProgram (parser : Parser) :
    parser.cursor.Calm parser.parseProgram.2.cursor ∨
      ∃ middle, parser.cursor.Calm middle ∧ parser.parseProgram.2.cursor =
        middle.abandon.record (.nestingTooDeep maxNesting) :=
  outcome_parseStmtsToEnd parser.tables (level parser.tables parser.levelsLeft)
    parser.cursor.remaining parser.cursor

theorem effect_parseProgram (parser : Parser) :
    parser.Effect (Operation.parseProgram.perform parser) := by
  rcases parser.cursor_parseProgram with walk | ⟨middle, walk, last⟩
  · obtain ⟨more, whole, mild⟩ := walk.errors
    refine .of_calm walk ?_
    rw [Parser.errors, Parser.errors, whole, List.drop_left]
    exact mild
  · obtain ⟨more, whole, -⟩ := walk.errors
    obtain ⟨trail, -, moved⟩ := walk.trail
    refine .givesUp ?_ (trail ++ [.abandon, .record (.nestingTooDeep maxNesting)]) ?_ ?_
    · rw [Parser.errors, Parser.errors, last, Cursor.errors_record, Cursor.errors_abandon, whole,
        List.append_assoc, List.drop_left]
      simp [ParseError.isFatal]
    · rw [last, Cursor.moves_append, ← moved]
      rfl
    · rw [last]
      exact (Cursor.givenUp_abandon middle).record _

theorem effect (parser : Parser) (operation : Operation) :
    parser.Effect (operation.perform parser) := by
  cases operation with
  | advance => exact .of_calm (.advance .refl) rfl
  | expectPeek kind => exact parser.effect_run fun _ => Parse.expectPeek kind
  | skipSemicolon => exact parser.effect_run fun _ => Parse.skipSemicolon
  | enterNesting => exact parser.effect_enterNesting
  | restoreNesting depth => exact .of_cursor_eq rfl
  | recordError error => exact .goesOn rfl [.record error] (by simp) rfl
  | setOperand kind form => exact .of_cursor_eq rfl
  | setOperator kind power form => exact .of_cursor_eq rfl
  | setStatement kind form => exact .of_cursor_eq rfl
  | parseExpression power => exact parser.effect_run fun level => level.expression power
  | parseStmt => exact parser.effect_run (Monkey.parseStmt parser.tables)
  | parseBlock => exact parser.effect_run Level.block
  | parseProgram => exact parser.effect_parseProgram
  | parseOperandForm form => exact parser.effect_run form.parse
  | parseOperatorForm form left power =>
    exact parser.effect_run fun level => form.parse level left power
  | parseStatementForm form => exact parser.effect_run form.parse

/-- Until one nests too deep, operations go on in the source. -/
theorem advanced_perform {tokens : List Token} {count : Nat} {operations : List Operation}
    (h : parser.cursor.Advanced tokens count) (quiet : parser.tooDeep operations = false) :
    ∃ later, count ≤ later ∧ (parser.perform operations).cursor.Advanced tokens later := by
  induction operations generalizing parser count with
  | nil => exact ⟨count, Nat.le_refl _, h⟩
  | cons operation operations ih =>
    rw [tooDeep, Bool.or_eq_false_iff] at quiet
    have effect := parser.effect operation
    change ∃ later, count ≤ later ∧
      ((operation.perform parser).2.perform operations).cursor.Advanced tokens later
    generalize operation.perform parser = result at effect quiet
    cases effect with
    | goesOn _ trail onward moved =>
      obtain ⟨middle, further, reached⟩ := h.moves onward
      rw [← moved] at reached
      obtain ⟨later, beyond, last⟩ := ih reached quiet.2
      exact ⟨later, Nat.le_trans further beyond, last⟩
    | givesUp fatal _ _ _ =>
      rw [fatal] at quiet
      cases quiet.1

end Parser

section Sources

variable {source : List (Option Token)} {operations : List Operation}

theorem exists_at (quiet : (Parser.ofSource source).tooDeep operations = false) :
    ∃ index, ((Parser.ofSource source).perform operations).cursor.At (throughEnd source) index := by
  obtain ⟨count, some, reached⟩ :=
    Parser.advanced_perform (Cursor.advanced_ofSource source) quiet
  obtain ⟨index, rfl⟩ := Nat.exists_eq_add_of_le' some
  exact ⟨index, reached.at⟩

theorem pulls_parseProgram (mild : (parse source).2.any ParseError.isFatal = false) :
    (Parser.ofSource source).parseProgram.2.pulls = (throughEnd source).length := by
  have settled := Cursor.settled_ofSource source
  have enough := Cursor.ahead_length_le_remaining (Cursor.ofSource source)
  have none : (Parser.ofSource source).parseProgram.2.cursor.ahead = [] :=
    ahead_parseStmtsToEnd Tables.standard (standardLevel maxNesting) settled enough
  have quiet : (Parser.ofSource source).tooDeep [.parseProgram] = false := by
    have start : (Parser.ofSource source).errors = [] := Cursor.errors_ofSource source
    rw [Parser.tooDeep_singleton, Operation.perform, start]
    exact mild
  obtain ⟨index, here⟩ := exists_at quiet
  have current : (Parser.ofSource source).parseProgram.2.cursor.current = _ := here.current
  have pulls : (Parser.ofSource source).parseProgram.2.pulls = _ := here.pulls
  have ended : (tokenAt (throughEnd source) index).kind = .eof := by
    rw [← current]
    simpa [Cursor.atEnd] using (Cursor.ahead_eq_nil_iff _).1 none
  have past := (kind_tokenAt_iff source index).1 ended
  rw [pulls]
  omega

theorem parse_eq_of_untilEnd {other : List (Option Token)}
    (same : untilEnd other = untilEnd source) : parse other = parse source := by
  have settled := Cursor.settled_ofSource other
  have enough := Cursor.ahead_length_le_remaining (Cursor.ofSource other)
  have ahead := (Cursor.ahead_ofSource other).trans same
  obtain ⟨program, errors⟩ := parse_of_ahead settled ahead enough
  rw [Cursor.errors_ofSource, List.nil_append] at errors
  rw [parse_source other, program, errors]

end Sources

end Monkey
