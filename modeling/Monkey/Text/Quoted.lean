import Monkey.Unicode.GraphemeExtend
import Monkey.Unicode.Unprintable

set_option autoImplicit false

namespace Monkey.Quoted

/-- The two halfwidth voicing marks of katakana. They have a place of their own in a line. -/
def voicingMarks : Unicode.Ranges := [(0xFF9E, 0xFF9F)]

def attaches (c : Char) : Bool :=
  Unicode.graphemeExtend.contains c.toNat && !voicingMarks.contains c.toNat

def isPrintable (c : Char) : Bool :=
  if c.toNat < 128 then 32 ≤ c.toNat && c.toNat < 127 else !Unicode.unprintable.contains c.toNat

def codePoint (c : Char) : List Char :=
  ['\\', 'u', '{'] ++ Nat.toDigits 16 c.toNat ++ ['}']

def escape (c : Char) : List Char :=
  match c with
  | '\x00' => ['\\', '0']
  | '\t' => ['\\', 't']
  | '\r' => ['\\', 'r']
  | '\n' => ['\\', 'n']
  | '"' => ['\\', '"']
  | '\\' => ['\\', '\\']
  | _ => if attaches c || !isPrintable c then codePoint c else [c]

def quote (text : String) : String :=
  String.ofList ('"' :: text.toList.flatMap escape ++ ['"'])

end Monkey.Quoted
