import Monkey.TokenStream

set_option autoImplicit false

namespace Monkey

/-- A run of characters of a class that does not go on behind it. -/
structure Run (p : Char → Bool) (run rest : List Char) : Prop where
  all : ∀ c ∈ run, p c = true
  ends : ∀ c, rest.head? = some c → p c = false

namespace Run

variable {p : Char → Bool} {run rest : List Char}

theorem takeWhile (h : Run p run rest) : (run ++ rest).takeWhile p = run := by
  rw [List.takeWhile_append_of_pos h.all]
  cases rest with
  | nil => simp
  | cons c cs => simp [h.ends c rfl]

theorem dropWhile (h : Run p run rest) : (run ++ rest).dropWhile p = rest := by
  rw [List.dropWhile_append_of_pos h.all]
  cases rest with
  | nil => rfl
  | cons c cs => simp [h.ends c rfl]

theorem unique {other beyond : List Char} (h : Run p run rest) (hother : Run p other beyond)
    (same : run ++ rest = other ++ beyond) : run = other ∧ rest = beyond := by
  have runs := congrArg (List.takeWhile p) same
  have rests := congrArg (List.dropWhile p) same
  rw [h.takeWhile, hother.takeWhile] at runs
  rw [h.dropWhile, hother.dropWhile] at rests
  exact ⟨runs, rests⟩

theorem of_text (p : Char → Bool) (text : List Char) :
    Run p (text.takeWhile p) (text.dropWhile p) where
  all := List.all_eq_true.1 List.all_takeWhile
  ends c hc := by
    have stops := List.head?_dropWhile_not p text
    rw [hc] at stops
    simpa using stops

end Run

theorem mem_punctuation_iff {c : Char} {kind : TokenKind} :
    (c, kind) ∈ punctuation ↔ punctuationKind? c = some kind := by
  have known : ∀ entry ∈ punctuation, punctuationKind? entry.1 = some entry.2 := by decide
  refine ⟨fun member => known _ member, fun known => ?_⟩
  obtain ⟨before, after, table, -⟩ := List.lookup_eq_some_iff.1 known
  simp [table]

def Lexeme.token (lexeme : Lexeme) : Token :=
  ⟨Lexer.kindOf lexeme.shape (String.ofList lexeme.text), String.ofList lexeme.text⟩

theorem run_blank_nil {c : Char} (h : isBlank c = false) (rest : List Char) :
    Run isBlank [] (c :: rest) where
  all _ member := by cases member
  ends d hd := by
    cases hd
    exact h

theorem exists_cons_of_start {p : Char → Bool} {word : List Char} (h : word.head?.any p = true) :
    ∃ c cs, word = c :: cs ∧ p c = true := by
  cases word with
  | nil => cases h
  | cons c cs => exact ⟨c, cs, rfl, by simpa using h⟩

def operatorTable : List (String × TokenKind) :=
  [("!", .not), ("-", .dash), ("+", .plus), ("*", .star), ("/", .slash), ("<", .less),
    (">", .greater), ("==", .equals), ("!=", .notEquals)]

theorem wordKind_of_mem {word : String} {kind : TokenKind} (h : (word, kind) ∈ keywords) :
    wordKind word = kind := by
  have table : ∀ entry ∈ keywords, wordKind entry.1 = entry.2 := by decide
  exact table _ h

theorem wordKind_cases (word : String) :
    wordKind word = .identifier ∨ wordKind word ∈ keywords.map Prod.snd := by
  unfold wordKind
  cases found : keywords.lookup word with
  | none => exact .inl rfl
  | some kind =>
    obtain ⟨before, after, table, -⟩ := List.lookup_eq_some_iff.1 found
    exact .inr (by simp [table])

/-- An ASCII character that is no part of a word. -/
def isMark (c : Char) : Bool :=
  c.toNat < 128 && !(isLatinLetter c || isDigit c || c == '_')

variable [Alphabet]

/-- The tokens of a text. -/
def scan (text : List Char) : List Token := (Lexer.ofChars text).tokens

theorem tokenize_eq_scan (source : String) : tokenize source = scan source.toList := rfl

theorem Lexer.next?_of_text (start : Nat) (text : List Char) :
    ∃ offset next flaw, Lexer.next? ⟨start, [], text, false⟩ =
      some (⟨(Lexeme.first (text.dropWhile isBlank)).token, offset, flaw⟩,
        ⟨next, [], (Lexeme.first (text.dropWhile isBlank)).rest,
          Lexer.stopsAfter (Lexeme.first (text.dropWhile isBlank)).shape⟩) := by
  by_cases blank : text.head?.all isBlank = true
  · simp [Lexer.next?, Lexer.skipBlanks, blank, Lexer.emit, Lexeme.token]
  · have same : text.dropWhile isBlank = text := by
      cases text with
      | nil => rfl
      | cons c cs =>
        rw [List.dropWhile_cons_of_neg]
        simpa using blank
    simp [Lexer.next?, Lexer.skipBlanks, blank, Lexer.emit, Lexeme.token, same]

theorem Lexer.tokens_of_finished (start : Nat) (text : List Char) :
    Lexer.tokens ⟨start, [], text, true⟩ = [] :=
  Lexer.tokens_of_stopped (by simp [Lexer.next?])

/-- Where a text stands in its source does not matter to its tokens. -/
theorem Lexer.tokens_of_start (start : Nat) (text : List Char) :
    Lexer.tokens ⟨start, [], text, false⟩ = scan text := by
  induction hlength : text.length using Nat.strongRecOn generalizing start text with
  | ind length ih =>
    obtain ⟨offset, next, flaw, here⟩ := Lexer.next?_of_text start text
    obtain ⟨_, origin, _, there⟩ := Lexer.next?_of_text 0 text
    have shorter := Lexer.next?_remaining_lt here
    rw [Lexer.tokens_of_step here, scan, Lexer.ofChars, Lexer.tokens_of_step there]
    cases stops : Lexer.stopsAfter (Lexeme.first (text.dropWhile isBlank)).shape with
    | true => rw [Lexer.tokens_of_finished, Lexer.tokens_of_finished]
    | false =>
      rw [stops] at shorter
      simp only [Lexer.remaining, Bool.false_eq_true, if_false] at shorter
      have less : (Lexeme.first (text.dropWhile isBlank)).rest.length < length := by omega
      rw [ih _ less next _ rfl, ih _ less origin _ rfl]

theorem scan_of_first {text : List Char} {lexeme : Lexeme}
    (h : Lexeme.first (text.dropWhile isBlank) = lexeme) :
    scan text =
      lexeme.token :: if Lexer.stopsAfter lexeme.shape then [] else scan lexeme.rest := by
  obtain ⟨_, next, _, step⟩ := Lexer.next?_of_text 0 text
  rw [scan, Lexer.ofChars, Lexer.tokens_of_step step, h]
  cases stops : Lexer.stopsAfter lexeme.shape with
  | true => rw [Lexer.tokens_of_finished, if_pos rfl]
  | false => rw [Lexer.tokens_of_start, if_neg (by decide)]

theorem scan_nil : scan [] = [Token.eof] := by
  have first : Lexeme.first (([] : List Char).dropWhile isBlank) = ⟨.endOfText, [], []⟩ := rfl
  rw [scan_of_first first]
  rfl

theorem scan_blank {c : Char} (h : isBlank c = true) (rest : List Char) :
    scan (c :: rest) = scan rest := by
  have same : (c :: rest).dropWhile isBlank = rest.dropWhile isBlank := by simp [h]
  rw [scan_of_first (congrArg Lexeme.first same)]
  exact (scan_of_first rfl).symm

theorem scan_blanks {blanks text : List Char} {lexeme : Lexeme} (run : Run isBlank blanks text)
    (h : Lexeme.first text = lexeme) : scan (blanks ++ text) =
      lexeme.token :: if Lexer.stopsAfter lexeme.shape then [] else scan lexeme.rest :=
  scan_of_first (by rw [run.dropWhile, h])

theorem isWordPart_of_isMark {c : Char} (h : isMark c = true) : isWordPart c = false := by
  rw [isMark, Bool.and_eq_true, decide_eq_true_eq, Bool.not_eq_true'] at h
  rw [isWordPart_of_ascii h.1, h.2]

theorem isBlank_of_isWordPart {c : Char} (h : isWordPart c = true) : isBlank c = false :=
  Bool.eq_false_iff.2 fun blank => by
    rw [isWordPart_of_isBlank blank] at h
    cases h

theorem isDigit_of_isWordStart {c : Char} (h : isWordStart c = true) : isDigit c = false :=
  Bool.eq_false_iff.2 fun digit => by
    rw [isWordStart_of_isDigit digit] at h
    cases h

theorem isWordStart_of_not_isWordPart {c : Char} (h : isWordPart c = false) :
    isWordStart c = false :=
  Bool.eq_false_iff.2 fun starts => by
    rw [isWordPart_of_isWordStart starts] at h
    cases h

namespace Lexeme

theorem first_word {word rest : List Char} (start : word.head?.any isWordStart = true)
    (run : Run isWordPart word rest) : first (word ++ rest) = ⟨.word, word, rest⟩ := by
  obtain ⟨c, cs, rfl, starts⟩ := exists_cons_of_start start
  have digit := isDigit_of_isWordStart starts
  rw [List.cons_append, first, if_neg (by simp [digit]), if_pos starts, ofWord,
    ← List.cons_append, run.takeWhile, run.dropWhile]

theorem first_digits {digits rest : List Char} (nonempty : digits ≠ [])
    (run : Run isDigit digits rest) : first (digits ++ rest) = ofRun digits rest := by
  obtain ⟨c, cs, rfl⟩ := List.exists_cons_of_ne_nil nonempty
  have digit : isDigit c = true := run.all c List.mem_cons_self
  rw [List.cons_append, first, if_pos digit, ofDigits, ← List.cons_append, run.takeWhile,
    run.dropWhile]

theorem first_number {digits rest : List Char} (nonempty : digits ≠ [])
    (run : Run isDigit digits rest) (free : ∀ c, rest.head? = some c → isWordStart c = false) :
    first (digits ++ rest) = ⟨.number, digits, rest⟩ := by
  have clear : ¬ rest.head?.any isWordStart = true := fun start => by
    obtain ⟨c, hc, starts⟩ := (Option.any_eq_true _ _).1 start
    rw [free c hc] at starts
    cases starts
  rw [first_digits nonempty run, ofRun, if_neg clear]

theorem first_badNumber {digits word rest : List Char} (nonempty : digits ≠ [])
    (digitRun : Run isDigit digits (word ++ rest)) (start : word.head?.any isWordStart = true)
    (wordRun : Run isWordPart word rest) :
    first (digits ++ (word ++ rest)) = ⟨.badNumber, digits ++ word, rest⟩ := by
  have spoilt : (word ++ rest).head?.any isWordStart = true := by
    obtain ⟨c, cs, rfl, starts⟩ := exists_cons_of_start start
    exact start
  rw [first_digits nonempty digitRun, ofRun, if_pos spoilt, wordRun.takeWhile, wordRun.dropWhile]

theorem first_punctuation {c : Char} (digit : isDigit c = false) (start : isWordStart c = false)
    (rest : List Char) : first (c :: rest) = ofPunctuation c rest := by
  rw [first, if_neg (by simp [digit]), if_neg (by simp [start])]

theorem first_equals (rest : List Char) :
    first ('=' :: '=' :: rest) = ⟨.punctuation .equals, ['=', '='], rest⟩ :=
  first_punctuation (by decide) (isWordStart_of_ascii (by decide)) _

theorem first_notEquals (rest : List Char) :
    first ('!' :: '=' :: rest) = ⟨.punctuation .notEquals, ['!', '='], rest⟩ :=
  first_punctuation (by decide) (isWordStart_of_ascii (by decide)) _

theorem first_single {c : Char} (digit : isDigit c = false) (start : isWordStart c = false)
    {rest : List Char} (single : rest.head? ≠ some '=' ∨ c ≠ '=' ∧ c ≠ '!') :
    first (c :: rest) = match punctuationKind? c with
      | some kind => ⟨.punctuation kind, [c], rest⟩
      | none => ⟨.unrecognised, [c], rest⟩ := by
  rw [first_punctuation digit start, ofPunctuation.eq_def]
  split
  · simp at single
  · simp at single
  · rfl

end Lexeme

/-- What may stand behind a word or a number. -/
def Apart (rest : List Char) : Prop := rest.head?.any isWordPart = false

theorem apart_nil : Apart [] := rfl

theorem apart_cons {c : Char} (h : isWordPart c = false) (rest : List Char) : Apart (c :: rest) := h

theorem apart_mark {c : Char} (h : isMark c = true) (rest : List Char) : Apart (c :: rest) :=
  apart_cons (isWordPart_of_isMark h) rest

theorem Apart.not_isWordPart {rest : List Char} (h : Apart rest) {c : Char}
    (hc : rest.head? = some c) : isWordPart c = false := by
  rw [Apart, hc] at h
  exact h

theorem Apart.run_word {word rest : List Char} (h : Apart rest)
    (parts : word.all isWordPart = true) : Run isWordPart word rest :=
  ⟨List.all_eq_true.1 parts, fun _ hd => h.not_isWordPart hd⟩

theorem Apart.run_digits {digits rest : List Char} (h : Apart rest)
    (all : digits.all isDigit = true) : Run isDigit digits rest := by
  refine ⟨List.all_eq_true.1 all, fun d hd => Bool.eq_false_iff.2 fun digit => ?_⟩
  have part := isWordPart_of_isDigit digit
  rw [h.not_isWordPart hd] at part
  cases part

theorem scan_word {word rest : List Char} (start : word.head?.any isWordStart = true)
    (parts : word.all isWordPart = true) (apart : Apart rest) :
    scan (word ++ rest) =
      ⟨wordKind (String.ofList word), String.ofList word⟩ :: scan rest := by
  have run := apart.run_word parts
  have visible : Run isBlank [] (word ++ rest) := by
    obtain ⟨c, cs, rfl, starts⟩ := exists_cons_of_start start
    exact run_blank_nil (isBlank_of_isWordPart (isWordPart_of_isWordStart starts)) _
  exact scan_blanks visible (Lexeme.first_word start run)

theorem scan_number {digits rest : List Char} (some : digits ≠ [])
    (all : digits.all isDigit = true) (apart : Apart rest) :
    scan (digits ++ rest) = ⟨.number, String.ofList digits⟩ :: scan rest := by
  have run := apart.run_digits all
  have free (d : Char) (hd : rest.head? = Option.some d) : isWordStart d = false :=
    isWordStart_of_not_isWordPart (apart.not_isWordPart hd)
  have visible : Run isBlank [] (digits ++ rest) := by
    obtain ⟨c, cs, rfl⟩ := List.exists_cons_of_ne_nil some
    have digit := run.all c List.mem_cons_self
    exact run_blank_nil (isBlank_of_isWordPart (isWordPart_of_isDigit digit)) _
  exact scan_blanks visible (Lexeme.first_number some run free)

theorem word_of_mem_keywords {word : String} {kind : TokenKind} (h : (word, kind) ∈ keywords) :
    word.toList.head?.any isWordStart = true ∧ word.toList.all isWordPart = true := by
  have table : ∀ entry ∈ keywords, entry.1.toList.head?.any isLatinLetter = true ∧
      entry.1.toList.all isLatinLetter = true := by decide
  obtain ⟨start, letters⟩ := table _ h
  refine ⟨?_, List.all_eq_true.2 fun c member => ?_⟩
  · obtain ⟨c, cs, list, letter⟩ := exists_cons_of_start start
    simp [list, isWordStart_of_isLatinLetter letter]
  · exact isWordPart_of_isWordStart
      (isWordStart_of_isLatinLetter (List.all_eq_true.1 letters c member))

theorem of_mem_punctuation {c : Char} {kind : TokenKind} (h : (c, kind) ∈ punctuation) :
    isBlank c = false ∧ isDigit c = false ∧ isWordPart c = false := by
  have classes : ∀ entry ∈ punctuation, isBlank entry.1 = false ∧ isDigit entry.1 = false ∧
      isMark entry.1 = true := by decide
  obtain ⟨blank, digit, mark⟩ := classes _ h
  exact ⟨blank, digit, isWordPart_of_isMark mark⟩

theorem scan_punctuation {c : Char} {kind : TokenKind} (known : punctuationKind? c = some kind)
    {rest : List Char} (single : rest.head? ≠ some '=' ∨ c ≠ '=' ∧ c ≠ '!') :
    scan (c :: rest) = ⟨kind, String.ofList [c]⟩ :: scan rest := by
  obtain ⟨blank, digit, part⟩ := of_mem_punctuation (mem_punctuation_iff.2 known)
  have first := Lexeme.first_single digit (isWordStart_of_not_isWordPart part) single
  rw [known] at first
  exact scan_blanks (run_blank_nil blank rest) first

theorem scan_equals (rest : List Char) :
    scan ('=' :: '=' :: rest) = ⟨.equals, "=="⟩ :: scan rest :=
  scan_blanks (run_blank_nil (by decide) _) (Lexeme.first_equals rest)

theorem scan_notEquals (rest : List Char) :
    scan ('!' :: '=' :: rest) = ⟨.notEquals, "!="⟩ :: scan rest :=
  scan_blanks (run_blank_nil (by decide) _) (Lexeme.first_notEquals rest)

def isName (text : String) : Bool :=
  text.toList.head?.any isWordStart && text.toList.all isWordPart && wordKind text == .identifier

/-- The literal of a token is a text of its kind. -/
structure Token.Genuine (token : Token) : Prop where
  name : token.kind = .identifier → isName token.literal = true
  digits : token.kind = .number → token.literal.toList.all isDigit = true
  operator : ∀ text, (text, token.kind) ∈ operatorTable → token.literal = text

theorem genuine_of_operator {kind : TokenKind} {literal : String}
    (h : (literal, kind) ∈ operatorTable) : (Token.mk kind literal).Genuine := by
  simp only [operatorTable, List.mem_cons, Prod.mk.injEq, List.not_mem_nil, or_false] at h
  rcases h with h | h | h | h | h | h | h | h | h
  all_goals
    obtain ⟨rfl, rfl⟩ := h
    refine ⟨fun same => absurd same (by decide), fun same => absurd same (by decide),
      fun text member => ?_⟩
    simpa [operatorTable, eq_comm] using member

theorem genuine_of_other {kind : TokenKind} (literal : String)
    (h : kind ≠ .identifier ∧ kind ≠ .number ∧ kind ∉ operatorTable.map Prod.snd) :
    (Token.mk kind literal).Genuine where
  name same := absurd same h.1
  digits same := absurd same h.2.1
  operator _ member := absurd (List.mem_map_of_mem member) h.2.2

theorem Lexeme.genuine_ofWord {c : Char} {cs : List Char} (start : isWordStart c = true) :
    (ofWord (c :: cs)).token.Genuine := by
  have part := isWordPart_of_isWordStart start
  have parts : ((c :: cs).takeWhile isWordPart).all isWordPart = true := List.all_takeWhile
  have first : ((c :: cs).takeWhile isWordPart).head?.any isWordStart = true := by
    simp [part, start]
  change (Token.mk (wordKind (String.ofList ((c :: cs).takeWhile isWordPart)))
    (String.ofList ((c :: cs).takeWhile isWordPart))).Genuine
  generalize (c :: cs).takeWhile isWordPart = word at parts first
  rcases wordKind_cases (String.ofList word) with name | keyword
  · refine ⟨fun _ => ?_, fun kind => ?_, fun text member => ?_⟩
    · simp only [isName, String.toList_ofList, parts, first, name]
      rfl
    · change wordKind _ = _ at kind
      rw [name] at kind
      cases kind
    · change (text, wordKind _) ∈ operatorTable at member
      rw [name] at member
      simp [operatorTable] at member
  · have other : ∀ kind ∈ keywords.map Prod.snd, kind ≠ .identifier ∧ kind ≠ .number ∧
        kind ∉ operatorTable.map Prod.snd := by decide
    exact genuine_of_other _ (other _ keyword)

theorem Lexeme.genuine_ofDigits (text : List Char) : (ofDigits text).token.Genuine := by
  unfold ofDigits ofRun
  split
  · exact @genuine_of_other _ .illegal _ (by decide)
  · refine ⟨fun kind => ?_, fun _ => ?_, fun text member => ?_⟩
    · cases kind
    · simp only [token, String.toList_ofList]
      exact List.all_takeWhile
    · simp [token, Lexer.kindOf, operatorTable] at member

theorem Lexeme.genuine_ofPunctuation (c : Char) (cs : List Char) :
    (ofPunctuation c cs).token.Genuine := by
  unfold ofPunctuation
  split
  · exact genuine_of_operator (by decide : ("==", TokenKind.equals) ∈ _)
  · exact genuine_of_operator (by decide : ("!=", TokenKind.notEquals) ∈ _)
  · split
    · rename_i kind known
      change (Token.mk kind (String.ofList [c])).Genuine
      have member := mem_punctuation_iff.2 known
      simp only [punctuation, List.mem_cons, Prod.mk.injEq, List.not_mem_nil, or_false] at member
      rcases member with h | h | h | h | h | h | h | h | h | h | h | h | h | h
      all_goals
        obtain ⟨rfl, rfl⟩ := h
        first
          | exact genuine_of_operator (by decide)
          | exact genuine_of_other _ (by decide)
    · exact @genuine_of_other _ .illegal _ (by decide)

theorem Lexeme.genuine_first (text : List Char) : (first text).token.Genuine := by
  unfold first
  split
  · exact @genuine_of_other _ .eof _ (by decide)
  · split
    · exact genuine_ofDigits _
    · split
      · exact genuine_ofWord (by assumption)
      · exact genuine_ofPunctuation _ _

theorem genuine_of_mem_scan {text : List Char} {token : Token} (h : token ∈ scan text) :
    token.Genuine := by
  induction hlength : text.length using Nat.strongRecOn generalizing text with
  | ind length ih =>
    rw [scan_of_first rfl] at h
    rcases List.mem_cons.1 h with rfl | later
    · exact Lexeme.genuine_first _
    · split at later
      · cases later
      · rename_i runs
        have shorter : (Lexeme.first (text.dropWhile isBlank)).rest.length < text.length := by
          have some : text.dropWhile isBlank ≠ [] := by
            intro none
            rw [none] at runs
            exact runs rfl
          have lexeme := Lexeme.first_rest_length_lt some
          have blanks := (List.dropWhile_sublist isBlank (l := text)).length_le
          omega
        exact ih _ (by omega) later rfl

end Monkey
