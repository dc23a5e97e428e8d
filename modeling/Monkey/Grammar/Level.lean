import Monkey.Grammar.Forms

set_option autoImplicit false

/-!
# Nesting levels

The operators of an operand stay open until it ends, so what follows an operator has one level less
as well. Every parse is a recursion on the levels left.
-/
namespace Monkey

open Parse

namespace Level

def bottom (tables : Tables) : Level where
  expression _ := tooDeep
  operators power left := applyNext tables power left fun _ _ => tooDeep
  block := tooDeep

/-- One level more than another one, to be opened at a certain depth. -/
def above (tables : Tables) (depth : Nat) (below : Level) : Level where
  expression power := do
    openLevel depth
    let left ← parseOperand tables below
    below.operators power left
  operators power left := applyNext tables power left fun form bound => do
    openLevel depth
    advance
    let whole ← form.parse below left bound
    below.operators power whole
  block := do
    openLevel depth
    parseBody tables below

end Level

/-- What can be parsed while a number of levels is left. -/
def level (tables : Tables) : Nat → Level
  | 0 => Level.bottom tables
  | left + 1 => Level.above tables (maxNesting - left) (level tables left)

section

variable (tables : Tables) {power : BindingPower}

theorem operators_zero (value : Expr) : (level tables 0).operators power value =
    applyNext tables power value fun _ _ => tooDeep := rfl

theorem operators_succ (below : Nat) (value : Expr) :
    (level tables (below + 1)).operators power value =
      applyNext tables power value (fun form bound => do
        openLevel (maxNesting - below)
        advance
        let whole ← form.parse (level tables below) value bound
        (level tables below).operators power whole) := rfl

end

end Monkey
