import Monkey.Proofs.Scanning
import Monkey.Unicode.Alphabet

set_option autoImplicit false

namespace Monkey

theorem wordKind_of_forall_not_mem {word : String} (h : ∀ kind, (word, kind) ∉ keywords) :
    wordKind word = .identifier := by
  unfold wordKind
  cases found : keywords.lookup word with
  | none => rfl
  | some kind =>
    obtain ⟨before, after, table, -⟩ := List.lookup_eq_some_iff.1 found
    exact absurd (by simp [table]) (h kind)

theorem isTerminal_wordKind (word : String) : (wordKind word).isTerminal = false := by
  have table : ∀ kind ∈ keywords.map Prod.snd, kind.isTerminal = false := by decide
  rcases wordKind_cases word with name | keyword
  · rw [name]
    rfl
  · exact table _ keyword

theorem wordKind_ne_illegal (word : String) : wordKind word ≠ .illegal := by
  intro illegal
  have sound := isTerminal_wordKind word
  rw [illegal] at sound
  cases sound

theorem kind_ne_illegal_of_mem {c : Char} {kind : TokenKind} (h : (c, kind) ∈ punctuation) :
    kind ≠ .illegal := by
  have table : ∀ entry ∈ punctuation, entry.2 ≠ .illegal := by decide
  exact table _ h

section

variable [Alphabet]

/-- A literal of a kind, cut off where a certain text stands behind it. -/
inductive Segment : TokenKind → List Char → List Char → Prop where
  | keyword {kind : TokenKind} {word rest : List Char}
      (start : word.head?.any isWordStart = true) (run : Run isWordPart word rest)
      (known : (String.ofList word, kind) ∈ keywords) : Segment kind word rest
  | identifier {word rest : List Char}
      (start : word.head?.any isWordStart = true) (run : Run isWordPart word rest)
      (unknown : ∀ kind, (String.ofList word, kind) ∉ keywords) : Segment .identifier word rest
  | number {digits rest : List Char} (nonempty : digits ≠ []) (run : Run isDigit digits rest)
      (free : ∀ c, rest.head? = some c → isWordStart c = false) : Segment .number digits rest
  | equals (rest : List Char) : Segment .equals ['=', '='] rest
  | notEquals (rest : List Char) : Segment .notEquals ['!', '='] rest
  | punctuation {kind : TokenKind} {c : Char} {rest : List Char}
      (known : (c, kind) ∈ punctuation) (single : c = '=' ∨ c = '!' → rest.head? ≠ some '=') :
      Segment kind [c] rest
  | badNumber {digits word rest : List Char} (nonempty : digits ≠ [])
      (digitRun : Run isDigit digits (word ++ rest)) (start : word.head?.any isWordStart = true)
      (wordRun : Run isWordPart word rest) : Segment .illegal (digits ++ word) rest
  | unrecognised {c : Char} {rest : List Char} (blank : isBlank c = false)
      (digit : isDigit c = false) (start : isWordStart c = false)
      (unknown : ∀ kind, (c, kind) ∉ Monkey.punctuation) : Segment .illegal [c] rest

/-- The tokens that a text falls into. The last one stands for the end of the text or is illegal;
what stands behind an illegal one does not matter. -/
inductive Segmentation : List Char → List Token → Prop where
  | ends {blanks : List Char} (run : Run isBlank blanks []) : Segmentation blanks [Token.eof]
  | illegal {blanks literal rest : List Char} (run : Run isBlank blanks (literal ++ rest))
      (here : Segment .illegal literal rest) :
      Segmentation (blanks ++ (literal ++ rest)) [⟨.illegal, String.ofList literal⟩]
  | token {kind : TokenKind} {blanks literal rest : List Char} {tokens : List Token}
      (run : Run isBlank blanks (literal ++ rest)) (here : Segment kind literal rest)
      (sound : kind ≠ .illegal) (later : Segmentation rest tokens) :
      Segmentation (blanks ++ (literal ++ rest)) (⟨kind, String.ofList literal⟩ :: tokens)

section Lexemes

variable {kind : TokenKind} {literal rest : List Char}

/-- A segment is the first lexeme of its text. -/
theorem Segment.first (h : Segment kind literal rest) :
    ∃ shape, Lexeme.first (literal ++ rest) = ⟨shape, literal, rest⟩ ∧
      Lexer.kindOf shape (String.ofList literal) = kind ∧
      Lexer.stopsAfter shape = decide (kind = .illegal) := by
  cases h with
  | keyword start run known =>
    have kindOf := wordKind_of_mem known
    have sound := wordKind_ne_illegal (String.ofList literal)
    rw [kindOf] at sound
    exact ⟨.word, Lexeme.first_word start run, kindOf, by simp [sound]; rfl⟩
  | identifier start run unknown =>
    exact ⟨.word, Lexeme.first_word start run, wordKind_of_forall_not_mem unknown, rfl⟩
  | number nonempty run free =>
    exact ⟨.number, Lexeme.first_number nonempty run free, rfl, rfl⟩
  | equals => exact ⟨.punctuation .equals, Lexeme.first_equals rest, rfl, rfl⟩
  | notEquals => exact ⟨.punctuation .notEquals, Lexeme.first_notEquals rest, rfl, rfl⟩
  | @punctuation _ c _ known single =>
    obtain ⟨-, digit, part⟩ := of_mem_punctuation known
    have free : rest.head? ≠ some '=' ∨ c ≠ '=' ∧ c ≠ '!' := by
      by_cases longer : rest.head? = some '='
      · exact .inr (not_or.1 fun first => single first longer)
      · exact .inl longer
    have single := Lexeme.first_single digit (isWordStart_of_not_isWordPart part) free
    rw [mem_punctuation_iff.1 known] at single
    have sound := kind_ne_illegal_of_mem known
    exact ⟨.punctuation kind, single, rfl, by simp [sound]; rfl⟩
  | @badNumber digits word _ nonempty digitRun start wordRun =>
    rw [List.append_assoc]
    exact ⟨.badNumber, Lexeme.first_badNumber nonempty digitRun start wordRun, rfl, rfl⟩
  | @unrecognised c _ blank digit start unknown =>
    have free : c ≠ '=' ∧ c ≠ '!' := by
      refine ⟨?_, ?_⟩
      · rintro rfl
        exact unknown .assignment (by decide)
      · rintro rfl
        exact unknown .not (by decide)
    have single : Lexeme.first (c :: rest) = _ := Lexeme.first_single digit start (.inr free)
    have none : punctuationKind? c = none :=
      Option.eq_none_iff_forall_ne_some.2 fun kind known =>
        unknown kind (mem_punctuation_iff.2 known)
    rw [none] at single
    exact ⟨.unrecognised, single, rfl, rfl⟩

theorem segment_ofRun {digits rest : List Char} (nonempty : digits ≠ [])
    (run : Run isDigit digits rest) :
    Segment (Lexeme.ofRun digits rest).token.kind (Lexeme.ofRun digits rest).text
      (Lexeme.ofRun digits rest).rest := by
  unfold Lexeme.ofRun
  split
  · rename_i start
    have word := Run.of_text isWordPart rest
    have same := List.takeWhile_append_dropWhile (p := isWordPart) (l := rest)
    refine .badNumber nonempty (by rwa [same]) ?_ word
    obtain ⟨c, cs, rfl, starts⟩ := exists_cons_of_start start
    simp [isWordPart_of_isWordStart starts, starts]
  · rename_i clear
    refine .number nonempty run fun c hc => ?_
    simpa [hc] using clear

theorem segment_word {word rest : List Char} (start : word.head?.any isWordStart = true)
    (run : Run isWordPart word rest) : Segment (wordKind (String.ofList word)) word rest := by
  by_cases known : ∃ kind, (String.ofList word, kind) ∈ keywords
  · obtain ⟨kind, member⟩ := known
    rw [wordKind_of_mem member]
    exact .keyword start run member
  · have unknown := not_exists.1 known
    rw [wordKind_of_forall_not_mem unknown]
    exact .identifier start run unknown

theorem segment_ofWord {c : Char} {cs : List Char} (starts : isWordStart c = true) :
    Segment (Lexeme.ofWord (c :: cs)).token.kind (Lexeme.ofWord (c :: cs)).text
      (Lexeme.ofWord (c :: cs)).rest := by
  have start : ((c :: cs).takeWhile isWordPart).head?.any isWordStart = true := by
    simp [isWordPart_of_isWordStart starts, starts]
  exact segment_word start (Run.of_text isWordPart (c :: cs))

theorem segment_ofPunctuation {c : Char} (cs : List Char) (blank : isBlank c = false)
    (digit : isDigit c = false) (start : isWordStart c = false) :
    Segment (Lexeme.ofPunctuation c cs).token.kind (Lexeme.ofPunctuation c cs).text
      (Lexeme.ofPunctuation c cs).rest := by
  unfold Lexeme.ofPunctuation
  split
  · exact .equals _
  · exact .notEquals _
  · rename_i equals notEquals
    split
    · rename_i kind known
      refine .punctuation (mem_punctuation_iff.2 known) fun first longer => ?_
      obtain ⟨rest, rfl⟩ := List.head?_eq_some_iff.1 longer
      rcases first with rfl | rfl
      · exact equals rest rfl rfl
      · exact notEquals rest rfl rfl
    · rename_i none
      refine .unrecognised blank digit start fun kind member => ?_
      rw [mem_punctuation_iff, none] at member
      cases member

/-- What a text begins with is a segment of it, if it begins with no blank. -/
theorem segment_first {c : Char} (cs : List Char) (blank : isBlank c = false) :
    Segment (Lexeme.first (c :: cs)).token.kind (Lexeme.first (c :: cs)).text
      (Lexeme.first (c :: cs)).rest := by
  rw [Lexeme.first]
  split
  · rename_i digit
    exact segment_ofRun (by simp [digit]) (Run.of_text isDigit (c :: cs))
  · rename_i digit
    split
    · exact segment_ofWord (by assumption)
    · rename_i start
      exact segment_ofPunctuation cs blank (by simpa using digit) (by simpa using start)

end Lexemes

theorem Segmentation.scan_eq {text : List Char} {tokens : List Token}
    (h : Segmentation text tokens) : scan text = tokens := by
  induction h with
  | ends run =>
    have passed := scan_blanks run (rfl : Lexeme.first [] = _)
    rwa [List.append_nil] at passed
  | illegal run here =>
    obtain ⟨shape, first, kindOf, stops⟩ := here.first
    rw [scan_blanks run first, if_pos (by simp [stops]), Lexeme.token, kindOf]
  | token run here sound later ih =>
    obtain ⟨shape, first, kindOf, stops⟩ := here.first
    rw [scan_blanks run first, if_neg (by simp [stops, sound]), Lexeme.token, kindOf, ih]

theorem segmentation_scan (text : List Char) : Segmentation text (scan text) := by
  induction hlength : text.length using Nat.strongRecOn generalizing text with
  | ind length ih =>
    have blanks := Run.of_text isBlank text
    have same := List.takeWhile_append_dropWhile (p := isBlank) (l := text)
    cases visible : text.dropWhile isBlank with
    | nil =>
      rw [visible] at blanks same
      rw [List.append_nil] at same
      rw [← same, (Segmentation.ends blanks).scan_eq]
      exact .ends blanks
    | cons c cs =>
      rw [visible] at blanks same
      have blank : isBlank c = false := blanks.ends c rfl
      have here := segment_first cs blank
      have whole := Lexeme.first_text_append_rest (c :: cs)
      have shorter : (Lexeme.first (c :: cs)).rest.length < (c :: cs).length :=
        Lexeme.first_rest_length_lt (List.cons_ne_nil c cs)
      have passed := congrArg List.length same
      rw [List.length_append] at passed
      rw [← whole] at blanks
      have cut : text.takeWhile isBlank ++ ((Lexeme.first (c :: cs)).text ++
        (Lexeme.first (c :: cs)).rest) = text := by rw [whole, same]
      have later := ih _ (by omega) (Lexeme.first (c :: cs)).rest rfl
      rw [← cut]
      by_cases sound : (Lexeme.first (c :: cs)).token.kind = .illegal
      · rw [sound] at here
        rw [(Segmentation.illegal blanks here).scan_eq]
        exact .illegal blanks here
      · have joined := Segmentation.token blanks here sound later
        rw [joined.scan_eq]
        exact joined

theorem scan_eq_iff {text : List Char} {tokens : List Token} :
    scan text = tokens ↔ Segmentation text tokens := by
  refine ⟨?_, Segmentation.scan_eq⟩
  rintro rfl
  exact segmentation_scan text

/-- The tokens of a source are those of its segmentation, of which there is one. -/
theorem tokenize_eq_iff_segmentation (source : String) (tokens : List Token) :
    tokenize source = tokens ↔ Segmentation source.toList tokens := by
  rw [tokenize_eq_scan]
  exact scan_eq_iff

end

theorem tokenize_eq_iff_segmentation_scripts :
    tokenize "if (ñ٣) 1x" = [⟨.ifKeyword, "if"⟩, ⟨.openParen, "("⟩, ⟨.identifier, "ñ٣"⟩,
        ⟨.closeParen, ")"⟩, ⟨.illegal, "1x"⟩] ∧
      Segmentation "if (ñ٣) 1x".toList [⟨.ifKeyword, "if"⟩, ⟨.openParen, "("⟩,
        ⟨.identifier, "ñ٣"⟩, ⟨.closeParen, ")"⟩, ⟨.illegal, "1x"⟩] := by
  have tokens : tokenize "if (ñ٣) 1x" = [⟨.ifKeyword, "if"⟩, ⟨.openParen, "("⟩,
      ⟨.identifier, "ñ٣"⟩, ⟨.closeParen, ")"⟩, ⟨.illegal, "1x"⟩] := by decide +kernel
  exact ⟨tokens, (tokenize_eq_iff_segmentation _ _).1 tokens⟩

end Monkey
