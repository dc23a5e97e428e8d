import Monkey.Character
import Monkey.Unicode.Alphabetic
import Monkey.Unicode.Number

set_option autoImplicit false

namespace Monkey.Unicode

def isAlphabetic (c : Char) : Bool :=
  if c.toNat < 128 then isLatinLetter c else alphabetic.contains c.toNat

def isNumber (c : Char) : Bool :=
  if c.toNat < 128 then isDigit c else number.contains c.toNat

/-- The classes of one version of Unicode, on both sides of the lexer. -/
instance alphabet : Alphabet where
  alphabetic := isAlphabetic
  wordAlphabetic := isAlphabetic
  number := isNumber
  alphabetic_ascii _ ascii := if_pos ascii
  wordAlphabetic_ascii _ ascii := if_pos ascii
  number_ascii _ ascii := if_pos ascii
  wordAlphabetic_of_alphabetic _ alphabetic := alphabetic

end Monkey.Unicode
