import Monkey.Character
import Monkey.Token

set_option autoImplicit false

namespace Monkey

inductive Shape where
  | endOfText
  | word
  | number
  | punctuation (kind : TokenKind)
  | badNumber
  | unrecognised
  deriving DecidableEq, Repr

structure Lexeme where
  shape : Shape
  text : List Char
  rest : List Char
  deriving DecidableEq, Repr

namespace Lexeme

def ofPunctuation (c : Char) (cs : List Char) : Lexeme :=
  match c, cs with
  | '=', '=' :: rest => ⟨.punctuation .equals, ['=', '='], rest⟩
  | '!', '=' :: rest => ⟨.punctuation .notEquals, ['!', '='], rest⟩
  | _, _ =>
    match punctuationKind? c with
    | some kind => ⟨.punctuation kind, [c], cs⟩
    | none => ⟨.unrecognised, [c], cs⟩

theorem ofPunctuation_text_append_rest (c : Char) (cs : List Char) :
    (ofPunctuation c cs).text ++ (ofPunctuation c cs).rest = c :: cs := by
  unfold ofPunctuation
  split
  · rfl
  · rfl
  · split <;> rfl

theorem ofPunctuation_text_ne_nil (c : Char) (cs : List Char) :
    (ofPunctuation c cs).text ≠ [] := by
  unfold ofPunctuation
  split
  · simp
  · simp
  · split <;> simp

variable [Alphabet]

/-- A run of digits; it is spoilt, with all word characters that follow, by a word that begins
directly after it. -/
def ofRun (digits rest : List Char) : Lexeme :=
  if rest.head?.any isWordStart then
    ⟨.badNumber, digits ++ rest.takeWhile isWordPart, rest.dropWhile isWordPart⟩
  else ⟨.number, digits, rest⟩

def ofDigits (cs : List Char) : Lexeme := ofRun (cs.takeWhile isDigit) (cs.dropWhile isDigit)

def ofWord (cs : List Char) : Lexeme :=
  ⟨.word, cs.takeWhile isWordPart, cs.dropWhile isWordPart⟩

def first : List Char → Lexeme
  | [] => ⟨.endOfText, [], []⟩
  | c :: cs =>
    if isDigit c then ofDigits (c :: cs)
    else if isWordStart c then ofWord (c :: cs)
    else ofPunctuation c cs

theorem ofRun_text_append_rest (digits rest : List Char) :
    (ofRun digits rest).text ++ (ofRun digits rest).rest = digits ++ rest := by
  unfold ofRun
  split <;> simp [List.append_assoc, List.takeWhile_append_dropWhile]

theorem ofDigits_text_append_rest (cs : List Char) :
    (ofDigits cs).text ++ (ofDigits cs).rest = cs := by
  rw [ofDigits, ofRun_text_append_rest, List.takeWhile_append_dropWhile]

theorem ofWord_text_append_rest (cs : List Char) : (ofWord cs).text ++ (ofWord cs).rest = cs := by
  simp [ofWord, List.takeWhile_append_dropWhile]

theorem first_text_append_rest (cs : List Char) : (first cs).text ++ (first cs).rest = cs := by
  unfold first
  split
  · rfl
  · split
    · exact ofDigits_text_append_rest _
    · split
      · exact ofWord_text_append_rest _
      · exact ofPunctuation_text_append_rest _ _

theorem ofDigits_text_ne_nil {c : Char} (cs : List Char) (digit : isDigit c = true) :
    (ofDigits (c :: cs)).text ≠ [] := by
  rw [ofDigits, ofRun]
  split <;> simp [digit]

theorem ofWord_text_ne_nil {c : Char} (cs : List Char) (start : isWordStart c = true) :
    (ofWord (c :: cs)).text ≠ [] := by
  simp [ofWord, isWordPart_of_isWordStart start]

theorem first_text_ne_nil {cs : List Char} (some : cs ≠ []) : (first cs).text ≠ [] := by
  unfold first
  split
  · exact absurd rfl some
  · rename_i c cs
    split
    · exact ofDigits_text_ne_nil cs (by assumption)
    · split
      · exact ofWord_text_ne_nil cs (by assumption)
      · exact ofPunctuation_text_ne_nil c cs

theorem first_rest_length_lt {cs : List Char} (some : cs ≠ []) :
    (first cs).rest.length < cs.length := by
  have whole := congrArg List.length (first_text_append_rest cs)
  have text := List.length_pos_iff.2 (first_text_ne_nil some)
  simp only [List.length_append] at whole
  omega

end Lexeme
end Monkey
