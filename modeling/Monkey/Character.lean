set_option autoImplicit false

namespace Monkey

/-- A space, a tab, a carriage return or a line feed; no other white space. -/
def isBlank (c : Char) : Bool := c == ' ' || c == '\t' || c == '\r' || c == '\n'

def isDigit (c : Char) : Bool := '0' ≤ c && c ≤ '9'

def isLatinLetter (c : Char) : Bool := ('a' ≤ c && c ≤ 'z') || ('A' ≤ c && c ≤ 'Z')

/-- The classes of characters that are not the lexer's own. It looks for a word where a character
is `alphabetic`; the pattern of a word then takes what is `wordAlphabetic` or a `number`. These are
the Unicode properties Alphabetic and N, of versions that may differ. Within ASCII they are the
Latin letters and the digits. -/
class Alphabet where
  alphabetic : Char → Bool
  wordAlphabetic : Char → Bool
  number : Char → Bool
  alphabetic_ascii (c : Char) : c.toNat < 128 → alphabetic c = isLatinLetter c
  wordAlphabetic_ascii (c : Char) : c.toNat < 128 → wordAlphabetic c = isLatinLetter c
  number_ascii (c : Char) : c.toNat < 128 → number c = isDigit c
  /-- The pattern of a word matches wherever the lexer looks for one. -/
  wordAlphabetic_of_alphabetic (c : Char) : alphabetic c = true → wordAlphabetic c = true

theorem toNat_of_isDigit {c : Char} (h : isDigit c = true) : 48 ≤ c.toNat ∧ c.toNat ≤ 57 := by
  simp only [isDigit, Bool.and_eq_true, decide_eq_true_eq] at h
  exact ⟨h.1, h.2⟩

theorem eq_of_isBlank {c : Char} (h : isBlank c = true) :
    c = ' ' ∨ c = '\t' ∨ c = '\r' ∨ c = '\n' := by
  simpa [isBlank, or_assoc] using h

theorem toNat_of_isLatinLetter {c : Char} (h : isLatinLetter c = true) :
    65 ≤ c.toNat ∧ c.toNat ≤ 122 := by
  simp only [isLatinLetter, Bool.or_eq_true, Bool.and_eq_true, decide_eq_true_eq] at h
  rcases h with ⟨low, high⟩ | ⟨low, high⟩
  · exact ⟨Nat.le_trans (by decide) (UInt32.le_iff_toNat_le.1 low), UInt32.le_iff_toNat_le.1 high⟩
  · exact ⟨UInt32.le_iff_toNat_le.1 low, Nat.le_trans (UInt32.le_iff_toNat_le.1 high) (by decide)⟩

section

variable [Alphabet]

def isWordStart (c : Char) : Bool := Alphabet.alphabetic c || c == '_'

def isWordPart (c : Char) : Bool :=
  Alphabet.wordAlphabetic c || Alphabet.number c || c == '_'

theorem isWordStart_of_ascii {c : Char} (ascii : c.toNat < 128) :
    isWordStart c = (isLatinLetter c || c == '_') := by
  rw [isWordStart, Alphabet.alphabetic_ascii c ascii]

theorem isWordPart_of_ascii {c : Char} (ascii : c.toNat < 128) :
    isWordPart c = (isLatinLetter c || isDigit c || c == '_') := by
  rw [isWordPart, Alphabet.wordAlphabetic_ascii c ascii, Alphabet.number_ascii c ascii]

theorem isWordPart_of_isWordStart {c : Char} (h : isWordStart c = true) :
    isWordPart c = true := by
  simp only [isWordStart, isWordPart, Bool.or_eq_true] at h ⊢
  exact h.elim (fun alphabetic => .inl (.inl (Alphabet.wordAlphabetic_of_alphabetic c alphabetic)))
    .inr

theorem isWordStart_of_isLatinLetter {c : Char} (h : isLatinLetter c = true) :
    isWordStart c = true := by
  have bounds := toNat_of_isLatinLetter h
  rw [isWordStart_of_ascii (by omega), h, Bool.true_or]

theorem isWordPart_of_isDigit {c : Char} (h : isDigit c = true) : isWordPart c = true := by
  have bounds := toNat_of_isDigit h
  rw [isWordPart_of_ascii (by omega), h, Bool.or_true, Bool.true_or]

theorem isWordPart_of_isBlank {c : Char} (h : isBlank c = true) : isWordPart c = false := by
  rcases eq_of_isBlank h with rfl | rfl | rfl | rfl <;> exact isWordPart_of_ascii (by decide)

theorem isWordStart_of_isDigit {c : Char} (h : isDigit c = true) : isWordStart c = false := by
  have bounds := toNat_of_isDigit h
  have other : c ≠ '_' := by
    rintro rfl
    exact absurd h (by decide)
  have letter : isLatinLetter c = false := by
    refine Bool.eq_false_iff.2 fun isLetter => ?_
    have range := toNat_of_isLatinLetter isLetter
    omega
  rw [isWordStart_of_ascii (by omega), letter, Bool.false_or, beq_eq_false_iff_ne]
  exact other

end

end Monkey
