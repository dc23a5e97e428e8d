import Monkey.Grammar.BindingPower
import Monkey.Token

set_option autoImplicit false

namespace Monkey

/-- The forms that start an expression. -/
inductive OperandForm where
  | primary
  | unary
  | grouping
  | conditional
  | function
  deriving DecidableEq, Repr

/-- The forms that go on from a left side. -/
inductive OperatorForm where
  | binary
  | call
  deriving DecidableEq, Repr

/-- The statements that are known by their first token. -/
inductive StatementForm where
  | letBinding
  | returning
  | block
  deriving DecidableEq, Repr

structure Tables where
  statement : TokenKind → Option StatementForm
  operand : TokenKind → Option OperandForm
  operator : TokenKind → Option OperatorForm
  power : TokenKind → BindingPower

namespace Tables

def setStatement (tables : Tables) (kind : TokenKind) (form : StatementForm) : Tables :=
  { tables with
    statement := fun other => if other = kind then some form else tables.statement other }

def setOperand (tables : Tables) (kind : TokenKind) (form : OperandForm) : Tables :=
  { tables with operand := fun other => if other = kind then some form else tables.operand other }

/-- An operator form is always set together with its power. -/
def setOperator (tables : Tables) (kind : TokenKind) (power : BindingPower) (form : OperatorForm) :
    Tables :=
  { tables with
    operator := fun other => if other = kind then some form else tables.operator other
    power := fun other => if other = kind then power else tables.power other }

def standardPower : TokenKind → BindingPower
  | .equals | .notEquals => .equals
  | .less | .greater => .lessGreater
  | .plus | .dash => .sum
  | .star | .slash => .product
  | .openParen => .call
  | _ => .lowest

/-- The grammar of Monkey. -/
def standard : Tables where
  statement
    | .letKeyword => some .letBinding
    | .returnKeyword => some .returning
    | _ => none
  operand
    | .identifier | .number | .trueKeyword | .falseKeyword => some .primary
    | .not | .dash => some .unary
    | .openParen => some .grouping
    | .ifKeyword => some .conditional
    | .fnKeyword => some .function
    | _ => none
  operator
    | .equals | .notEquals | .less | .greater | .plus | .dash | .star | .slash => some .binary
    | .openParen => some .call
    | _ => none
  power := standardPower

theorem standard_operator_isSome (kind : TokenKind) :
    (standard.operator kind).isSome = decide (BindingPower.lowest < standard.power kind) := by
  cases kind <;> rfl

end Tables
end Monkey
