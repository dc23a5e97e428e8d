import Monkey.Proofs.Headroom
import Monkey.Proofs.Operations

set_option autoImplicit false

namespace Monkey

open Parse

namespace Parser

/-- Two runs that end alike: with the same answer and at the same place in the source, with the same
calls made and the same errors recorded. Each is at a depth of its own. -/
structure EndsAlike {α : Type} (depth lower : Nat) (ran other : α × Parser) : Prop where
  answer : other.1 = ran.1
  current : other.2.cursor.current = ran.2.cursor.current
  peek : other.2.cursor.peek = ran.2.cursor.peek
  source : other.2.cursor.source = ran.2.cursor.source
  exhausted : other.2.cursor.exhausted = ran.2.cursor.exhausted
  pulls : other.2.pulls = ran.2.pulls
  errors : other.2.errors = ran.2.errors
  tables : other.2.tables = ran.2.tables
  depth : ran.2.depth = depth
  lower : other.2.depth = lower

variable {parser : Parser} {depth : Nat}

theorem endsAlike_of_alike {α : Type} {peak : Nat} {answer : α} {c d : Cursor}
    (h : c.Alike peak d) :
    EndsAlike parser.depth depth (answer, { parser with cursor := c })
      (answer, { parser.restoreNesting depth with cursor := d }) := by
  obtain ⟨reached, -, rfl⟩ := h
  exact ⟨rfl, rfl, rfl, rfl, rfl, rfl, rfl, rfl, rfl, rfl⟩

theorem simulates_restoreNesting (h : depth ≤ parser.depth) : ∃ peak,
    (level parser.tables parser.levelsLeft).Simulates (.roomy peak)
      (level (parser.restoreNesting depth).tables (parser.restoreNesting depth).levelsLeft) ∧
    parser.cursor.Alike peak (parser.restoreNesting depth).cursor := by
  have levels : (parser.restoreNesting depth).levelsLeft =
      parser.levelsLeft + ((parser.restoreNesting depth).levelsLeft - parser.levelsLeft) := by
    simp only [levelsLeft, restoreNesting]
    omega
  refine ⟨max maxNesting parser.cursor.deepest, ?_, parser.cursor.deepest,
    Nat.le_max_right _ _, rfl⟩
  rw [levels]
  exact level_roomy parser.tables (by omega) parser.levelsLeft

theorem run_restoreNesting {α : Type} {action : Level → Parse α}
    (simulates : ∀ {sim : Simulation} (first other : Level) [Level.Simulates sim first other],
      Simulates sim (action first) (action other))
    (h : depth ≤ parser.depth)
    (mild : (failures (parser.run action).1).any ParseError.isFatal = false) :
    EndsAlike parser.depth depth (parser.run action)
      ((parser.restoreNesting depth).run action) := by
  obtain ⟨peak, offered, start⟩ := simulates_restoreNesting h
  have outcome : Alongside (.roomy peak)
      (action (level parser.tables parser.levelsLeft) parser.cursor)
      (action (level (parser.restoreNesting depth).tables (parser.restoreNesting depth).levelsLeft)
        (parser.restoreNesting depth).cursor) := (simulates _ _).alongside start
  unfold run at mild ⊢
  generalize action (level parser.tables parser.levelsLeft) parser.cursor = one at *
  generalize action (level _ _) (parser.restoreNesting depth).cursor = two at *
  cases outcome with
  | ok last => exact endsAlike_of_alike last
  | error _ last => exact endsAlike_of_alike last
  | @fatal error _ _ deep =>
    change (error.isFatal || false) = false at mild
    rw [deep] at mild
    cases mild

theorem parseProgram_restoreNesting (h : depth ≤ parser.depth)
    (mild : (Operation.parseProgram.perform parser).1.any ParseError.isFatal = false) :
    EndsAlike parser.depth depth parser.parseProgram
      (parser.restoreNesting depth).parseProgram := by
  obtain ⟨peak, offered, start⟩ := simulates_restoreNesting h
  obtain ⟨new, recorded⟩ := errors_parseStmtsToEnd (level parser.tables parser.levelsLeft)
    parser.tables parser.cursor.remaining parser.cursor
  have calm (error : ParseError) (member : error ∈ new) : error.isFatal = false := by
    have whole : parser.parseProgram.2.errors = parser.errors ++ new := recorded
    rw [Operation.perform, whole, List.drop_left, List.any_eq_false] at mild
    simpa using mild error member
  obtain ⟨same, last⟩ := roomy_parseStmtsToEnd parser.tables
    (level parser.tables parser.levelsLeft)
    (level (parser.restoreNesting depth).tables (parser.restoreNesting depth).levelsLeft)
    parser.cursor.remaining start recorded calm
  have other : (parser.restoreNesting depth).parseProgram =
      (parser.parseProgram.1, (parser.restoreNesting depth).parseProgram.2) := Prod.ext same rfl
  rw [other]
  exact endsAlike_of_alike last

/-- How many levels are open already matters only to what nests too deep. What an operation parses
short of that, it parses the same with fewer levels open. -/
theorem parse_restoreNesting (parser : Parser) {depth : Nat} (h : depth ≤ parser.depth) :
    let lower := parser.restoreNesting depth
    (∀ power, parser.tooDeep [.parseExpression power] = false →
      EndsAlike parser.depth depth (parser.parseExpression power) (lower.parseExpression power)) ∧
    (parser.tooDeep [.parseStmt] = false →
      EndsAlike parser.depth depth parser.parseStmt lower.parseStmt) ∧
    (parser.tooDeep [.parseBlock] = false →
      EndsAlike parser.depth depth parser.parseBlock lower.parseBlock) ∧
    (parser.tooDeep [.parseProgram] = false →
      EndsAlike parser.depth depth parser.parseProgram lower.parseProgram) := by
  simp only [tooDeep_singleton]
  refine ⟨fun power mild => ?_, fun mild => ?_, fun mild => ?_, fun mild => ?_⟩
  · exact run_restoreNesting (fun _ _ => inferInstance) h mild
  · exact run_restoreNesting (fun _ _ => inferInstance) h mild
  · exact run_restoreNesting (fun _ _ => inferInstance) h mild
  · exact parseProgram_restoreNesting h mild

def functionNearLimit : Parser :=
  ⟨Tables.standard, Cursor.ofSource [some ⟨.fnKeyword, "fn"⟩, some ⟨.openParen, "("⟩,
    some ⟨.closeParen, ")"⟩, some ⟨.openCurly, "\x7b"⟩, some ⟨.closeParen, ")"⟩,
    some ⟨.semicolon, ";"⟩, some ⟨.identifier, "x"⟩, some ⟨.closeCurly, "\x7d"⟩], maxNesting - 3⟩

theorem parse_restoreNesting_function :
    (functionNearLimit.tooDeep [.parseExpression .lowest] = false ∧
      ((functionNearLimit.restoreNesting 0).parseExpression .lowest).1 =
        .ok (.function [] [.expression (.identifier "x")])) ∧
    (functionNearLimit.tooDeep [.parseProgram] = false ∧
      (functionNearLimit.restoreNesting 1).parseProgram.2.errors =
        [.noOperandForm .closeParen, .noOperandForm .semicolon] ∧
      (functionNearLimit.restoreNesting 1).parseProgram.2.depth = 1) ∧
    (functionNearLimit.restoreNesting (maxNesting - 2)).tooDeep [.parseProgram] = true := by
  have shallow : functionNearLimit.tooDeep [.parseExpression .lowest] = false := by decide
  have quiet : functionNearLimit.tooDeep [.parseProgram] = false := by decide
  obtain ⟨expression, -⟩ := parse_restoreNesting functionNearLimit (Nat.zero_le _)
  obtain ⟨-, -, -, program⟩ := parse_restoreNesting functionNearLimit
    (show 1 ≤ functionNearLimit.depth by decide)
  refine ⟨⟨shallow, ?_⟩, ⟨quiet, ?_, (program quiet).lower⟩, by decide⟩
  · rw [(expression .lowest shallow).answer]
    rfl
  · rw [(program quiet).errors]
    rfl

end Parser
end Monkey
