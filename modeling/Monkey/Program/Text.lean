import Monkey.Program
import Monkey.Text.Integer

set_option autoImplicit false

namespace Monkey

/-- The statements that need a semicolon before a following statement to be read back alike. -/
def Stmt.needsTerminator : Stmt → Bool
  | .expression _ | .block _ => true
  | _ => false

def commaSeparated : List (List Char) → List Char
  | [] => []
  | item :: items => item ++ items.flatMap fun next => [',', ' '] ++ next

mutual

def Expr.chars : Expr → List Char
  | .identifier name => name.toList
  | .integer value => Integer.writeChars value
  | .boolean true => ['t', 'r', 'u', 'e']
  | .boolean false => ['f', 'a', 'l', 's', 'e']
  | .unary operator operand => ['('] ++ operator.toList ++ operand.chars ++ [')']
  | .binary left operator right =>
    ['('] ++ left.chars ++ [' '] ++ operator.toList ++ [' '] ++ right.chars ++ [')']
  | .conditional condition consequence alternative =>
    ['i', 'f', ' ', '('] ++ condition.chars ++ [')', ' '] ++ Block.chars consequence ++
      Block.elseChars alternative
  | .function parameters body =>
    ['f', 'n', '('] ++ commaSeparated (parameters.map String.toList) ++ [')', ' '] ++
      Block.chars body
  | .call callee arguments =>
    callee.chars ++ ['('] ++ commaSeparated (Expr.charsEach arguments) ++ [')']

def Expr.charsEach : List Expr → List (List Char)
  | [] => []
  | value :: values => value.chars :: Expr.charsEach values

def Stmt.chars : Stmt → List Char
  | .letBinding name value =>
    ['l', 'e', 't', ' '] ++ name.toList ++ [' ', '=', ' '] ++ value.chars ++ [';']
  | .returning value => ['r', 'e', 't', 'u', 'r', 'n', ' '] ++ value.chars ++ [';']
  | .expression value => value.chars
  | .block body => Block.chars body

def Program.chars : List Stmt → List Char
  | [] => []
  | stmt :: rest =>
    if rest.isEmpty then stmt.chars
    else stmt.chars ++ (if stmt.needsTerminator then [';', ' '] else [' ']) ++ Program.chars rest

def Block.chars : List Stmt → List Char
  | [] => ['{', '}']
  | stmt :: rest =>
    ['{', ' '] ++ (if rest.isEmpty then stmt.chars
      else stmt.chars ++ (if stmt.needsTerminator then [';', ' '] else [' ']) ++
        Program.chars rest) ++ [' ', '}']

def Block.elseChars : Option (List Stmt) → List Char
  | none => []
  | some body => [' ', 'e', 'l', 's', 'e', ' '] ++ Block.chars body

end

theorem Block.chars_cons (stmt : Stmt) (rest : List Stmt) :
    Block.chars (stmt :: rest) = ['{', ' '] ++ Program.chars (stmt :: rest) ++ [' ', '}'] := by
  simp only [Block.chars, Program.chars]

def Expr.text (value : Expr) : String := String.ofList value.chars

def Stmt.text (stmt : Stmt) : String := String.ofList stmt.chars

def Block.text (body : Block) : String := String.ofList (Block.chars body)

def Program.text (program : Program) : String := String.ofList (Program.chars program)

end Monkey
