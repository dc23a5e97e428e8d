import Monkey.ParseError

set_option autoImplicit false

/-!
# The cursor over a token source

The cursor keeps two tokens in view and makes no call after the first end, which is an end token or
no answer. The journal holds calls and recorded errors in their common order, latest first.
-/
namespace Monkey

inductive Entry where
  | pulled
  | recorded (error : ParseError)
  deriving DecidableEq, Repr

structure Cursor where
  /-- The answers that the source still has; after them it has none. -/
  source : List (Option Token)
  exhausted : Bool
  current : Token
  peek : Token
  journal : List Entry
  /-- The largest number of levels that were open at once. -/
  deepest : Nat
  deriving DecidableEq, Repr

def Entry.error? : Entry → Option ParseError
  | pulled => none
  | recorded error => some error

namespace Cursor

def errors (cursor : Cursor) : List ParseError := cursor.journal.reverse.filterMap Entry.error?

def pulls (cursor : Cursor) : Nat := cursor.journal.count .pulled

def atEnd (cursor : Cursor) : Bool := cursor.current.kind == .eof

/-- The next token for the second slot, and the cursor after the call if one is made. -/
def pull (cursor : Cursor) : Token × Cursor :=
  if cursor.exhausted then (Token.eof, cursor)
  else
    match cursor.source with
    | some token :: rest =>
      (token, { cursor with
        source := rest, exhausted := token.kind == .eof, journal := .pulled :: cursor.journal })
    | none :: rest =>
      (Token.eof, { cursor with
        source := rest, exhausted := true, journal := .pulled :: cursor.journal })
    | [] =>
      (Token.eof, { cursor with exhausted := true, journal := .pulled :: cursor.journal })

def advance (cursor : Cursor) : Cursor :=
  let pulled := cursor.pull
  { pulled.2 with current := cursor.peek, peek := pulled.1 }

def abandon (cursor : Cursor) : Cursor :=
  { cursor with exhausted := true, current := Token.eof, peek := Token.eof }

def record (cursor : Cursor) (error : ParseError) : Cursor :=
  { cursor with journal := .recorded error :: cursor.journal }

def reach (cursor : Cursor) (depth : Nat) : Cursor :=
  { cursor with deepest := max cursor.deepest depth }

def ofSource (source : List (Option Token)) : Cursor :=
  (Cursor.mk source false Token.eof Token.eof [] 0).advance.advance

/-- More advances than this leave nothing but the end in view. -/
def remaining (cursor : Cursor) : Nat := cursor.source.length + 2

theorem current_advance (cursor : Cursor) : cursor.advance.current = cursor.peek := rfl

theorem errors_pull (cursor : Cursor) : cursor.pull.2.errors = cursor.errors := by
  unfold pull
  split
  · rfl
  · split <;> simp [errors, Entry.error?]

theorem errors_advance (cursor : Cursor) : cursor.advance.errors = cursor.errors :=
  errors_pull cursor

theorem deepest_pull (cursor : Cursor) : cursor.pull.2.deepest = cursor.deepest := by
  unfold pull
  split
  · rfl
  · split <;> rfl

theorem deepest_advance (cursor : Cursor) : cursor.advance.deepest = cursor.deepest :=
  deepest_pull cursor

theorem errors_abandon (cursor : Cursor) : cursor.abandon.errors = cursor.errors := rfl

theorem errors_reach (cursor : Cursor) (depth : Nat) :
    (cursor.reach depth).errors = cursor.errors := rfl

theorem errors_record (cursor : Cursor) (error : ParseError) :
    (cursor.record error).errors = cursor.errors ++ [error] := by
  simp [errors, record, Entry.error?]

theorem pulls_record (cursor : Cursor) (error : ParseError) :
    (cursor.record error).pulls = cursor.pulls := by
  simp [pulls, record]

end Cursor
end Monkey
