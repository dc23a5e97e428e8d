import Monkey.Grammar.Tables
import Monkey.Parse
import Monkey.Program
import Monkey.Text.Integer

set_option autoImplicit false

namespace Monkey

structure Level where
  /-- An expression that begins at the current token and takes operators above a power. -/
  expression : BindingPower → Parse Expr
  /-- The operators above a power that go on from an expression. -/
  operators : BindingPower → Expr → Parse Expr
  /-- A block whose opening brace is current. -/
  block : Parse Block

open Parse

namespace OperandForm

def parsePrimary : Parse Expr := do
  let token ← current
  match token.kind with
  | .identifier => return .identifier token.literal
  | .trueKeyword => return .boolean true
  | .falseKeyword => return .boolean false
  | .number =>
    match Integer.read? token.literal with
    | some value => return .integer value
    | none => throw (.unreadableNumber token.literal)
  | kind => throw (.noOperandForm kind)

def parseUnary (level : Level) : Parse Expr := do
  let token ← current
  advance
  let operand ← level.expression .unary
  return .unary token.literal operand

def parseGrouping (level : Level) : Parse Expr := do
  advance
  let value ← level.expression .lowest
  expectPeek .closeParen
  return value

def parseAlternative (level : Level) : Parse (Option Block) := do
  if (← peekKind) = .elseKeyword then
    advance
    expectPeek .openCurly
    let body ← level.block
    return some body
  else return none

def parseConditional (level : Level) : Parse Expr := do
  expectPeek .openParen
  advance
  let condition ← level.expression .lowest
  expectPeek .closeParen
  expectPeek .openCurly
  let consequence ← level.block
  let alternative ← parseAlternative level
  return .conditional condition consequence alternative

def parseParameter : Parse String := do
  expectPeek .identifier
  let token ← current
  return token.literal

def parseFunction (level : Level) : Parse Expr := do
  expectPeek .openParen
  let parameters ← bracketed parseParameter
  expectPeek .openCurly
  let body ← level.block
  return .function parameters body

def parse (form : OperandForm) (level : Level) : Parse Expr :=
  match form with
  | primary => parsePrimary
  | unary => parseUnary level
  | grouping => parseGrouping level
  | conditional => parseConditional level
  | function => parseFunction level

end OperandForm

namespace OperatorForm

/-- The right side takes operators above the power of this one, so equal powers group to the
left. -/
def parseBinary (level : Level) (left : Expr) (power : BindingPower) : Parse Expr := do
  let token ← current
  advance
  let right ← level.expression power
  return .binary left token.literal right

def parseArgument (level : Level) : Parse Expr := do
  advance
  level.expression .lowest

def parseCall (level : Level) (left : Expr) : Parse Expr := do
  let arguments ← bracketed (parseArgument level)
  return .call left arguments

def parse (form : OperatorForm) (level : Level) (left : Expr) (power : BindingPower) :
    Parse Expr :=
  match form with
  | binary => parseBinary level left power
  | call => parseCall level left

end OperatorForm

namespace StatementForm

def parseLetBinding (level : Level) : Parse Stmt := do
  expectPeek .identifier
  let name ← current
  expectPeek .assignment
  advance
  let value ← level.expression .lowest
  skipSemicolon
  return .letBinding name.literal value

def parseReturning (level : Level) : Parse Stmt := do
  advance
  let value ← level.expression .lowest
  skipSemicolon
  return .returning value

def parseBlock (level : Level) : Parse Stmt := do
  let body ← level.block
  return .block body

def parse (form : StatementForm) (level : Level) : Parse Stmt :=
  match form with
  | letBinding => parseLetBinding level
  | returning => parseReturning level
  | block => parseBlock level

end StatementForm

def parseExpressionStmt (level : Level) : Parse Stmt := do
  let value ← level.expression .lowest
  skipSemicolon
  return .expression value

def parseStmt (tables : Tables) (level : Level) : Parse Stmt := do
  match tables.statement (← currentKind) with
  | some form => form.parse level
  | none => parseExpressionStmt level

/-- The statements up to a closing brace or the end. One that fails is recorded and left out, and
the next begins one token further on. The last argument bounds the number of rounds. -/
def parseStmts (tables : Tables) (level : Level) : Nat → Parse (List Stmt)
  | 0 => pure []
  | bound + 1 => do
    let kind ← currentKind
    if kind = .closeCurly ∨ kind = .eof then return []
    else
      let stmt? ← attempt (parseStmt tables level)
      advance
      let rest ← parseStmts tables level bound
      return stmt?.toList ++ rest

/-- The statements between the current brace and the closing one, which is then current. -/
def parseBody (tables : Tables) (level : Level) : Parse Block := do
  advance
  let body ← parseStmts tables level (← remaining)
  let kind ← currentKind
  if kind = .closeCurly then return body
  else throw (.unexpectedToken .closeCurly kind)

def parseOperand (tables : Tables) (level : Level) : Parse Expr := do
  let token ← current
  match tables.operand token.kind with
  | some form => form.parse level
  | none =>
    if token.kind = .illegal then throw (.illegalToken token.literal)
    else throw (.noOperandForm token.kind)

/-- Applies the next token to a left side, if its kind has more than the given power and an operator
form. -/
def applyNext (tables : Tables) (power : BindingPower) (left : Expr)
    (apply : OperatorForm → BindingPower → Parse Expr) : Parse Expr := do
  let kind ← peekKind
  if power < tables.power kind then
    match tables.operator kind with
    | some form => apply form (tables.power kind)
    | none => return left
  else return left

/-- Statements to the end of the source. All errors are recorded; after a fatal one the end is in
view. The number bounds the rounds. -/
def parseStmtsToEnd (tables : Tables) (level : Level) : Nat → Cursor → List Stmt × Cursor
  | 0, cursor => ([], cursor)
  | bound + 1, cursor =>
    if cursor.atEnd then ([], cursor)
    else
      match parseStmt tables level cursor with
      | .ok stmt after =>
        let later := parseStmtsToEnd tables level bound after.advance
        (stmt :: later.1, later.2)
      | .error error after =>
        parseStmtsToEnd tables level bound (after.record error).advance

end Monkey
