import Monkey.Grammar.Level

set_option autoImplicit false

namespace Monkey

structure Parser where
  tables : Tables
  cursor : Cursor
  depth : Nat

namespace Parser

def ofSource (source : List (Option Token)) : Parser :=
  ⟨Tables.standard, Cursor.ofSource source, 0⟩

def errors (parser : Parser) : List ParseError := parser.cursor.errors

def pulls (parser : Parser) : Nat := parser.cursor.pulls

def hasTokens (parser : Parser) : Bool := !parser.cursor.atEnd

def levelsLeft (parser : Parser) : Nat := maxNesting - parser.depth

def run {α : Type} (parser : Parser) (action : Level → Parse α) : Except ParseError α × Parser :=
  match action (level parser.tables parser.levelsLeft) parser.cursor with
  | .ok value after => (.ok value, { parser with cursor := after })
  | .error error after => (.error error, { parser with cursor := after })

section

variable {α : Type} {parser : Parser} {action : Level → Parse α} {last : Cursor}

theorem run_of_ok {value : α}
    (h : action (level parser.tables parser.levelsLeft) parser.cursor = .ok value last) :
    parser.run action = (.ok value, { parser with cursor := last }) := by
  rw [run, h]

theorem run_of_error {error : ParseError}
    (h : action (level parser.tables parser.levelsLeft) parser.cursor = .error error last) :
    parser.run action = (.error error, { parser with cursor := last }) := by
  rw [run, h]

end

def advance (parser : Parser) : Parser := { parser with cursor := parser.cursor.advance }

def skipSemicolon (parser : Parser) : Parser := (parser.run fun _ => Parse.skipSemicolon).2

def expectPeek (parser : Parser) (kind : TokenKind) : Except ParseError Unit × Parser :=
  parser.run fun _ => Parse.expectPeek kind

def recordError (parser : Parser) (error : ParseError) : Parser :=
  { parser with cursor := parser.cursor.record error }

def enterNesting (parser : Parser) : Except ParseError Unit × Parser :=
  if maxNesting ≤ parser.depth then
    (.error (.nestingTooDeep maxNesting), { parser with cursor := parser.cursor.abandon })
  else
    (.ok (), { parser with
      cursor := parser.cursor.reach (parser.depth + 1), depth := parser.depth + 1 })

def restoreNesting (parser : Parser) (depth : Nat) : Parser := { parser with depth }

def bindingPower (parser : Parser) (kind : TokenKind) : BindingPower := parser.tables.power kind

def peekBindingPower (parser : Parser) : BindingPower :=
  parser.bindingPower parser.cursor.peek.kind

def parseExpression (parser : Parser) (power : BindingPower) : Except ParseError Expr × Parser :=
  parser.run fun level => level.expression power

def parseStmt (parser : Parser) : Except ParseError Stmt × Parser :=
  parser.run (Monkey.parseStmt parser.tables)

def parseBlock (parser : Parser) : Except ParseError Block × Parser := parser.run Level.block

def parseOperandForm (parser : Parser) (form : OperandForm) : Except ParseError Expr × Parser :=
  parser.run form.parse

def parseOperatorForm (parser : Parser) (form : OperatorForm) (left : Expr) (power : BindingPower) :
    Except ParseError Expr × Parser :=
  parser.run fun level => form.parse level left power

def parseStatementForm (parser : Parser) (form : StatementForm) : Except ParseError Stmt × Parser :=
  parser.run form.parse

def parseProgram (parser : Parser) : Program × Parser :=
  let parsed := parseStmtsToEnd parser.tables (level parser.tables parser.levelsLeft)
    parser.cursor.remaining parser.cursor
  (parsed.1, { parser with cursor := parsed.2 })

def setOperand (parser : Parser) (kind : TokenKind) (form : OperandForm) : Parser :=
  { parser with tables := parser.tables.setOperand kind form }

def setOperator (parser : Parser) (kind : TokenKind) (power : BindingPower)
    (form : OperatorForm) : Parser :=
  { parser with tables := parser.tables.setOperator kind power form }

def setStatement (parser : Parser) (kind : TokenKind) (form : StatementForm) : Parser :=
  { parser with tables := parser.tables.setStatement kind form }

end Parser

/-- The program of a token source, and the errors of what is not in it. -/
def parse (source : List (Option Token)) : Program × List ParseError :=
  let parsed := (Parser.ofSource source).parseProgram
  (parsed.1, parsed.2.errors)

end Monkey
