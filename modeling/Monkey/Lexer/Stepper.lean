import Monkey.Lexer

set_option autoImplicit false

namespace Monkey

/-- The source was read at a position that is no character boundary of it. -/
inductive Misread where
  | offBoundary
  deriving DecidableEq, Repr

structure Stepper where
  lexer : Lexer
  stray : Nat
  deriving DecidableEq, Repr

namespace Stepper

def ofString (source : String) : Stepper := ⟨Lexer.ofString source, 0⟩

def isFinished (stepper : Stepper) : Bool := stepper.lexer.finished

def start (stepper : Stepper) : Nat := stepper.lexer.start

/-- The byte offset at which the source is read next. -/
def position (stepper : Stepper) : Nat :=
  stepper.lexer.start + byteSize stepper.lexer.held + stepper.stray

/-- Splits off the whole characters that fit into a number of bytes: these characters, the
characters after them, and the bytes that are left over. -/
def splitBytes : List Char → Nat → List Char × List Char × Nat
  | [], count => ([], [], count)
  | c :: cs, count =>
    if c.utf8Size ≤ count then
      let later := splitBytes cs (count - c.utf8Size)
      (c :: later.1, later.2.1, later.2.2)
    else ([], c :: cs, count)

def advance (stepper : Stepper) (count : Nat) : Stepper :=
  let split := splitBytes stepper.lexer.rest (stepper.stray + count)
  ⟨{ stepper.lexer with held := stepper.lexer.held ++ split.1, rest := split.2.1 }, split.2.2⟩

def remainder (stepper : Stepper) : Except Misread (List Char) :=
  if stepper.stray = 0 then .ok stepper.lexer.rest else .error .offBoundary

def peek (stepper : Stepper) : Except Misread (Option Char) :=
  stepper.remainder.map List.head?

variable [Alphabet]

def next (stepper : Stepper) : Except Misread (Option Emission × Stepper) :=
  if stepper.lexer.finished then .ok (none, stepper)
  else if stepper.stray = 0 then
    match stepper.lexer.next? with
    | none => .ok (none, stepper)
    | some (emission, after) => .ok (some emission, ⟨after, 0⟩)
  else .error .offBoundary

def drain (stepper : Stepper) : Except Misread (List Emission × Stepper) :=
  if stepper.lexer.finished then .ok ([], stepper)
  else if stepper.stray = 0 then
    let drained := stepper.lexer.drain
    .ok (drained.1, ⟨drained.2, 0⟩)
  else .error .offBoundary

end Stepper
end Monkey
