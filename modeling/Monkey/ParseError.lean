import Monkey.Token
import Monkey.Text.Quoted

set_option autoImplicit false

namespace Monkey

inductive ParseError where
  | unexpectedToken (expected found : TokenKind)
  | noOperandForm (kind : TokenKind)
  | unreadableNumber (literal : String)
  | illegalToken (literal : String)
  | nestingTooDeep (limit : Nat)
  deriving DecidableEq, Repr

namespace ParseError

def name : ParseError → String
  | unexpectedToken _ _ => "UnexpectedToken"
  | noOperandForm _ => "NoPrefixParseFn"
  | unreadableNumber _ => "NumberParseError"
  | illegalToken _ => "IllegalToken"
  | nestingTooDeep _ => "NestingTooDeep"

def isFatal : ParseError → Bool
  | nestingTooDeep _ => true
  | _ => false

def message : ParseError → String
  | unexpectedToken expected found =>
    "expected next token to be " ++ expected.name ++ ", got " ++ found.name ++ " instead"
  | noOperandForm kind => "no prefix parse function for " ++ kind.name ++ " found"
  | unreadableNumber literal => "could not parse " ++ Quoted.quote literal ++ " as integer"
  | illegalToken literal => "illegal token " ++ Quoted.quote literal
  | nestingTooDeep limit => "nesting exceeds the limit of " ++ Nat.repr limit ++ " levels"

/-- What might be done about it. An unexpected token needs no advice unless the input ended. -/
def tip? : ParseError → Option String
  | unexpectedToken expected .eof =>
    some ("Input ended early, is a `" ++ expected.name ++ "` missing?")
  | unexpectedToken _ _ => none
  | noOperandForm kind => some ("`" ++ kind.name ++ "` cannot start an expression")
  | unreadableNumber literal =>
    some ("Invalid number: `" ++ literal ++ "`, is it above the integer limit?")
  | illegalToken _ =>
    some "Numbers cannot be followed by letters, and only ASCII operators are allowed"
  | nestingTooDeep _ => some "Split the expression up with `let` bindings"

end ParseError
end Monkey
