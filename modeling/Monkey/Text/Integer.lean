import Monkey.Character

set_option autoImplicit false

namespace Monkey.Integer

def inRange (value : Int) : Bool :=
  -9223372036854775808 ≤ value && value ≤ 9223372036854775807

def ofInt? (value : Int) : Option Int64 :=
  if inRange value then some (Int64.ofInt value) else none

def readDigits? (digits : List Char) : Option Nat :=
  if digits.isEmpty || !digits.all isDigit then none else some (Nat.ofDigitChars 10 digits 0)

def readChars? : List Char → Option Int64
  | '-' :: digits => (readDigits? digits).bind fun value => ofInt? (-value)
  | '+' :: digits => (readDigits? digits).bind fun value => ofInt? value
  | digits => (readDigits? digits).bind fun value => ofInt? value

def read? (text : String) : Option Int64 := readChars? text.toList

def writeChars (value : Int64) : List Char :=
  if value.toInt < 0 then '-' :: Nat.toDigits 10 value.toInt.natAbs
  else Nat.toDigits 10 value.toInt.natAbs

def write (value : Int64) : String := String.ofList (writeChars value)

theorem isDigit_of_mem_toDigits {c : Char} {n : Nat} (member : c ∈ Nat.toDigits 10 n) :
    isDigit c = true := by
  have digit : c.isDigit = true :=
    Nat.isDigit_of_mem_toDigits (by decide : 0 < 10) (Nat.le_refl 10) member
  simp only [Char.isDigit, Bool.and_eq_true, decide_eq_true_eq] at digit
  simp only [isDigit, Bool.and_eq_true, decide_eq_true_eq]
  exact digit

theorem all_isDigit_toDigits (n : Nat) : (Nat.toDigits 10 n).all isDigit = true :=
  List.all_eq_true.2 fun _ member => isDigit_of_mem_toDigits member

theorem readDigits?_toDigits (n : Nat) : readDigits? (Nat.toDigits 10 n) = some n := by
  have some : Nat.toDigits 10 n ≠ [] := Nat.toDigits_ne_nil
  simp [readDigits?, some, all_isDigit_toDigits, Nat.ofDigitChars_toDigits]

theorem ofInt?_toInt (value : Int64) : ofInt? value.toInt = some value := by
  have low := value.le_toInt
  have high := value.toInt_lt
  simp [ofInt?, inRange]
  omega

theorem readChars?_of_isDigit {c : Char} (digits : List Char) (digit : isDigit c = true) :
    readChars? (c :: digits) = (readDigits? (c :: digits)).bind fun value => ofInt? value := by
  have minus : c ≠ '-' := by
    rintro rfl
    exact absurd digit (by decide)
  have plus : c ≠ '+' := by
    rintro rfl
    exact absurd digit (by decide)
  simp [readChars?, minus, plus]

theorem readChars?_toDigits (n : Nat) : readChars? (Nat.toDigits 10 n) = ofInt? n := by
  cases digits : Nat.toDigits 10 n with
  | nil => exact absurd digits Nat.toDigits_ne_nil
  | cons c cs =>
    have digit : isDigit c = true := isDigit_of_mem_toDigits (n := n) (by simp [digits])
    rw [readChars?_of_isDigit cs digit, ← digits, readDigits?_toDigits, Option.bind_some]

/-- What is written is read back. -/
theorem readChars?_writeChars (value : Int64) : readChars? (writeChars value) = some value := by
  unfold writeChars
  split
  · simp only [readChars?, readDigits?_toDigits, Option.bind_some]
    rw [show -(value.toInt.natAbs : Int) = value.toInt by omega, ofInt?_toInt]
  · rw [readChars?_toDigits, show (value.toInt.natAbs : Int) = value.toInt by omega, ofInt?_toInt]

theorem writeChars_inj {value other : Int64} (h : writeChars value = writeChars other) :
    value = other := by
  have read := congrArg readChars? h
  rw [readChars?_writeChars, readChars?_writeChars] at read
  exact Option.some.inj read

end Monkey.Integer
