import Monkey.Cursor

set_option autoImplicit false

namespace Monkey

/-- The largest number of nesting levels that may be open at once. -/
def maxNesting : Nat := 256

abbrev Parse := EStateM ParseError Cursor

namespace Parse

def current : Parse Token := fun cursor => .ok cursor.current cursor

def currentKind : Parse TokenKind := fun cursor => .ok cursor.current.kind cursor

def peekKind : Parse TokenKind := fun cursor => .ok cursor.peek.kind cursor

def remaining : Parse Nat := fun cursor => .ok cursor.remaining cursor

def advance : Parse Unit := fun cursor => .ok () cursor.advance

def expectPeek (kind : TokenKind) : Parse Unit := fun cursor =>
  if cursor.peek.kind = kind then .ok () cursor.advance
  else .error (.unexpectedToken kind cursor.peek.kind) cursor

def skipSemicolon : Parse Unit := fun cursor =>
  .ok () (if cursor.peek.kind = .semicolon then cursor.advance else cursor)

def openLevel (depth : Nat) : Parse Unit := fun cursor => .ok () (cursor.reach depth)

/-- No level is left to open: the rest of the source is given up. -/
def tooDeep {α : Type} : Parse α := fun cursor =>
  .error (.nestingTooDeep maxNesting) cursor.abandon

def attempt {α : Type} (action : Parse α) : Parse (Option α) := fun cursor =>
  match action cursor with
  | .ok value after => .ok (some value) after
  | .error error after =>
    if error.isFatal then .error error after else .ok none (after.record error)

/-- Further items, each behind a comma. The first argument bounds their number. -/
def afterCommas {α : Type} (item : Parse α) : Nat → Parse (List α)
  | 0 => pure []
  | bound + 1 => do
    if (← peekKind) = .comma then
      advance
      let first ← item
      let rest ← afterCommas item bound
      return first :: rest
    else return []

def bracketed {α : Type} (item : Parse α) : Parse (List α) := do
  if (← peekKind) = .closeParen then
    advance
    return []
  else
    let first ← item
    let rest ← afterCommas item (← remaining)
    expectPeek .closeParen
    return first :: rest

end Parse
end Monkey
