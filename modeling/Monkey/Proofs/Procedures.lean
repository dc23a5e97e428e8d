import Monkey.Parser

set_option autoImplicit false

/-!
# Procedures

The operations of a parser with the depth as a part of the state. Levels stay open also when the
rest fails, and are closed at the ends of expressions and blocks. The parsers that a procedure
passes through are kept, so that something can be said of every moment.
-/
namespace Monkey

/-- A parser and those before it, latest first. -/
structure History where
  now : Parser
  past : List Parser

namespace History

def start (parser : Parser) : History := ⟨parser, []⟩

def moments (history : History) : List Parser := history.now :: history.past

def goOn (history : History) (parser : Parser) : History := ⟨parser, history.moments⟩

end History

abbrev Procedure := EStateM ParseError History

namespace Procedure

variable {α β : Type}

def step (move : Parser → Except ParseError α × Parser) : Procedure α := fun history =>
  match move history.now with
  | (.ok value, after) => .ok value (history.goOn after)
  | (.error error, after) => .error error (history.goOn after)

def act (action : Parse α) : Procedure α := step fun parser => parser.run fun _ => action

def tables : Procedure Tables := fun history => .ok history.now.tables history

def enter : Procedure Unit := step Parser.enterNesting

/-- Closes the levels that are opened in a body, be it left with a value or with an error. -/
def restoring (body : Procedure α) : Procedure α := fun history =>
  match body history with
  | .ok value after => .ok value (after.goOn (after.now.restoreNesting history.now.depth))
  | .error error after =>
    .error error (after.goOn (after.now.restoreNesting history.now.depth))

def attempt (stops : ParseError → Bool) (body : Procedure α) : Procedure (Option α) :=
  fun history =>
    match body history with
    | .ok value after => .ok (some value) after
    | .error error after =>
      if stops error then .error error after
      else .ok none (after.goOn (after.now.recordError error))

def afterCommas (item : Procedure α) : Nat → Procedure (List α)
  | 0 => pure []
  | bound + 1 => do
    if (← act Parse.peekKind) = .comma then
      act Parse.advance
      let first ← item
      let rest ← afterCommas item bound
      return first :: rest
    else return []

def bracketed (item : Procedure α) : Procedure (List α) := do
  if (← act Parse.peekKind) = .closeParen then
    act Parse.advance
    return []
  else
    let first ← item
    let rest ← afterCommas item (← act Parse.remaining)
    act (Parse.expectPeek .closeParen)
    return first :: rest

def applyNext (power : BindingPower) (left : Expr)
    (apply : OperatorForm → BindingPower → Procedure Expr) : Procedure Expr := do
  let kind ← act Parse.peekKind
  let tables ← tables
  if power < tables.power kind then
    match tables.operator kind with
    | some form => apply form (tables.power kind)
    | none => return left
  else return left

end Procedure

/-- The two procedures that the others call, and that call them. -/
structure Calls where
  expression : BindingPower → Procedure Expr
  block : Procedure Block

namespace Calls

open Procedure

variable (calls : Calls)

def unary : Procedure Expr := do
  let token ← act Parse.current
  act Parse.advance
  let operand ← calls.expression .unary
  return .unary token.literal operand

def grouping : Procedure Expr := do
  act Parse.advance
  let value ← calls.expression .lowest
  act (Parse.expectPeek .closeParen)
  return value

def alternative : Procedure (Option Block) := do
  if (← act Parse.peekKind) = .elseKeyword then
    act Parse.advance
    act (Parse.expectPeek .openCurly)
    let body ← calls.block
    return some body
  else return none

def conditional : Procedure Expr := do
  act (Parse.expectPeek .openParen)
  act Parse.advance
  let condition ← calls.expression .lowest
  act (Parse.expectPeek .closeParen)
  act (Parse.expectPeek .openCurly)
  let consequence ← calls.block
  let alternative ← calls.alternative
  return .conditional condition consequence alternative

def function : Procedure Expr := do
  act (Parse.expectPeek .openParen)
  let parameters ← act (Parse.bracketed OperandForm.parseParameter)
  act (Parse.expectPeek .openCurly)
  let body ← calls.block
  return .function parameters body

def operandForm : OperandForm → Procedure Expr
  | .primary => act OperandForm.parsePrimary
  | .unary => calls.unary
  | .grouping => calls.grouping
  | .conditional => calls.conditional
  | .function => calls.function

def binary (left : Expr) (power : BindingPower) : Procedure Expr := do
  let token ← act Parse.current
  act Parse.advance
  let right ← calls.expression power
  return .binary left token.literal right

def argument : Procedure Expr := do
  act Parse.advance
  calls.expression .lowest

def call (left : Expr) : Procedure Expr := do
  let arguments ← bracketed calls.argument
  return .call left arguments

def operatorForm (form : OperatorForm) (left : Expr) (power : BindingPower) : Procedure Expr :=
  match form with
  | .binary => calls.binary left power
  | .call => calls.call left

def letBinding : Procedure Stmt := do
  act (Parse.expectPeek .identifier)
  let name ← act Parse.current
  act (Parse.expectPeek .assignment)
  act Parse.advance
  let value ← calls.expression .lowest
  act Parse.skipSemicolon
  return .letBinding name.literal value

def returning : Procedure Stmt := do
  act Parse.advance
  let value ← calls.expression .lowest
  act Parse.skipSemicolon
  return .returning value

def blockStmt : Procedure Stmt := do
  let body ← calls.block
  return .block body

def expressionStmt : Procedure Stmt := do
  let value ← calls.expression .lowest
  act Parse.skipSemicolon
  return .expression value

def statementForm : StatementForm → Procedure Stmt
  | .letBinding => calls.letBinding
  | .returning => calls.returning
  | .block => calls.blockStmt

def stmt : Procedure Stmt := do
  let kind ← act Parse.currentKind
  match (← tables).statement kind with
  | some form => calls.statementForm form
  | none => calls.expressionStmt

def stmts : Nat → Procedure (List Stmt)
  | 0 => pure []
  | bound + 1 => do
    let kind ← act Parse.currentKind
    if kind = .closeCurly ∨ kind = .eof then return []
    else
      let stmt? ← attempt ParseError.isFatal calls.stmt
      act Parse.advance
      let rest ← stmts bound
      return stmt?.toList ++ rest

def body : Procedure Block := do
  act Parse.advance
  let body ← calls.stmts (← act Parse.remaining)
  let kind ← act Parse.currentKind
  if kind = .closeCurly then return body
  else throw (.unexpectedToken .closeCurly kind)

def operand : Procedure Expr := do
  let token ← act Parse.current
  match (← tables).operand token.kind with
  | some form => calls.operandForm form
  | none =>
    if token.kind = .illegal then throw (.illegalToken token.literal)
    else throw (.noOperandForm token.kind)

/-- The operators that go on from a left side, each at a level of its own. The number bounds the
rounds. -/
def operators (power : BindingPower) : Nat → Expr → Procedure Expr
  | 0, left => return left
  | rounds + 1, left => Procedure.applyNext power left fun form bound => do
    enter
    act Parse.advance
    let whole ← calls.operatorForm form left bound
    operators power rounds whole

def levels (power : BindingPower) : Procedure Expr := do
  enter
  let left ← calls.operand
  calls.operators power maxNesting left

def stmtsToEnd : Nat → Procedure (List Stmt)
  | 0 => pure []
  | bound + 1 => do
    let kind ← act Parse.currentKind
    if kind = .eof then return []
    else
      let stmt? ← attempt (fun _ => false) calls.stmt
      act Parse.advance
      let rest ← stmtsToEnd bound
      return stmt?.toList ++ rest

def program : Procedure Program := do
  calls.stmtsToEnd (← act Parse.remaining)

end Calls

/-- The calls that may be nested up to a number. -/
def callsWithin : Nat → Calls
  | 0 => ⟨fun _ => throw (.nestingTooDeep maxNesting), throw (.nestingTooDeep maxNesting)⟩
  | number + 1 =>
    let within := callsWithin number
    ⟨fun power => Procedure.restoring (within.levels power),
      Procedure.restoring do
        Procedure.enter
        within.body⟩

/-- No more calls than this can be nested, since each opens a level. -/
def allCalls : Calls := callsWithin (maxNesting + 1)

end Monkey
