import Monkey.Proofs.Segmentation
import Monkey.Proofs.Stepping

set_option autoImplicit false

namespace Monkey

theorem flawOf_of_illegal {shape : Shape} {literal : String}
    (kind : Lexer.kindOf shape literal = .illegal) (stops : Lexer.stopsAfter shape = true) :
    ∃ flaw, Lexer.flawOf shape = some flaw := by
  cases shape with
  | endOfText => cases kind
  | word => cases stops
  | number => cases kind
  | punctuation => cases stops
  | badNumber => exact ⟨.badNumber, rfl⟩
  | unrecognised => exact ⟨.unrecognised, rfl⟩

theorem flawOf_of_not_stopsAfter {shape : Shape} (h : Lexer.stopsAfter shape = false) :
    Lexer.flawOf shape = none := by
  rw [Lexer.stopsAfter, Bool.or_eq_false_iff] at h
  simpa using h.2

variable [Alphabet]

theorem Lexer.emissions_of_blanks {blanks text : List Char} {lexeme : Lexeme} (start : Nat)
    (run : Run isBlank blanks text) (h : Lexeme.first text = lexeme) :
    Lexer.emissions ⟨start, [], blanks ++ text, false⟩ =
      ⟨lexeme.token, start + byteSize blanks, flawOf lexeme.shape⟩ ::
        Lexer.emissions ⟨start + byteSize blanks + byteSize lexeme.text, [], lexeme.rest,
          stopsAfter lexeme.shape⟩ := by
  have ready : Lexer.skipBlanks ⟨start, [], blanks ++ text, false⟩ =
      ⟨start + byteSize blanks, [], text, false⟩ := by
    unfold skipBlanks
    split
    · simp [run.takeWhile, run.dropWhile, byteSize]
    · rename_i visible
      obtain rfl : blanks = [] := by
        rcases blanks with _ | ⟨c, cs⟩
        · rfl
        · exact absurd (by simp [run.all c List.mem_cons_self]) visible
      rfl
  have step : Lexer.next? ⟨start, [], blanks ++ text, false⟩ =
      some (Lexer.emit ⟨start + byteSize blanks, [], text, false⟩ lexeme) := by
    rw [next?, if_neg Bool.false_ne_true, ready, ← h]
  rw [emissions, drain_of_step step]
  simp [byteSize, Lexeme.token, emissions]

theorem Lexer.emissions_of_finished (start : Nat) (text : List Char) :
    Lexer.emissions ⟨start, [], text, true⟩ = [] := by
  rw [emissions, drain_of_stopped (by simp [next?])]

theorem Segment.cut {kind : TokenKind} {literal rest front : List Char}
    (h : Segment kind literal rest) (cut : ∀ c, front.head? = some c → rest.head? = some c) :
    Segment kind literal front := by
  have run {p : Char → Bool} {text : List Char} (whole : Run p text rest) : Run p text front :=
    ⟨whole.all, fun c hc => whole.ends c (cut c hc)⟩
  cases h with
  | keyword start word known => exact .keyword start (run word) known
  | identifier start word unknown => exact .identifier start (run word) unknown
  | number nonempty digits free => exact .number nonempty (run digits) fun c hc => free c (cut c hc)
  | equals => exact .equals front
  | notEquals => exact .notEquals front
  | punctuation known single =>
    exact .punctuation known fun first longer => single first (cut '=' longer)
  | @badNumber digits word _ nonempty digitRun start wordRun =>
    obtain ⟨c, cs, rfl, starts⟩ := exists_cons_of_start start
    exact .badNumber nonempty ⟨digitRun.all, digitRun.ends⟩ start (run wordRun)
  | unrecognised blank digit start unknown => exact .unrecognised blank digit start unknown

theorem Segment.literal_ne_nil {kind : TokenKind} {literal rest : List Char}
    (h : Segment kind literal rest) : literal ≠ [] := by
  cases h with
  | keyword start _ _ | identifier start _ _ =>
    obtain ⟨c, cs, rfl, -⟩ := exists_cons_of_start start
    exact List.cons_ne_nil c cs
  | number nonempty _ _ => exact nonempty
  | equals | notEquals | punctuation _ _ | unrecognised _ _ _ _ => exact List.cons_ne_nil _ _
  | badNumber nonempty _ _ _ => exact fun empty => nonempty (List.append_eq_nil_iff.1 empty).1

/-- What is emitted for a text that begins at a byte of its source: tokens without a flaw, and then
the end of the text or an illegal literal of it. -/
inductive Emits (start : Nat) (text : List Char) : List Emission → Prop where
  | ends {clear : List Emission} {offset : Nat}
      (goesOn : ∀ emission ∈ clear, emission.flaw = none ∧ emission.token.isTerminal = false) :
      Emits start text (clear ++ [⟨Token.eof, offset, none⟩])
  | illegal {clear : List Emission} {front literal behind : List Char} {flaw : Flaw}
      (goesOn : ∀ emission ∈ clear, emission.flaw = none ∧ emission.token.isTerminal = false)
      (split : text = front ++ (literal ++ behind))
      (before : Segmentation front (clear.map Emission.token ++ [Token.eof])) :
      Emits start text
        (clear ++ [⟨⟨.illegal, String.ofList literal⟩, start + byteSize front, some flaw⟩])

theorem Emits.cons {kind : TokenKind} {blanks literal rest : List Char} {start : Nat}
    {emissions : List Emission} (run : Run isBlank blanks (literal ++ rest))
    (here : Segment kind literal rest) (goesOn : kind.isTerminal = false)
    (later : Emits (start + byteSize blanks + byteSize literal) rest emissions) :
    Emits start (blanks ++ (literal ++ rest))
      (⟨⟨kind, String.ofList literal⟩, start + byteSize blanks, none⟩ :: emissions) := by
  cases later with
  | ends clear =>
    rw [← List.cons_append]
    exact .ends (List.forall_mem_cons.2 ⟨⟨rfl, goesOn⟩, clear⟩)
  | @illegal clear front illegal behind flaw others split before =>
    have offset : start + byteSize blanks + byteSize literal + byteSize front =
        start + byteSize (blanks ++ (literal ++ front)) := by
      rw [byteSize_append, byteSize_append]
      omega
    have whole : blanks ++ (literal ++ rest) =
        (blanks ++ (literal ++ front)) ++ (illegal ++ behind) := by
      rw [split, List.append_assoc, List.append_assoc]
    -- The literal is still the first one of the text that is cut off behind it.
    have cut (c : Char) (hc : front.head? = some c) : rest.head? = some c := by
      rw [split, List.head?_append, hc, Option.some_or]
    rw [← List.cons_append, offset]
    refine .illegal (List.forall_mem_cons.2 ⟨⟨rfl, goesOn⟩, others⟩) whole ?_
    obtain ⟨c, cs, rfl⟩ := List.exists_cons_of_ne_nil here.literal_ne_nil
    have sound : kind ≠ .illegal := fun illegal => by
      rw [illegal] at goesOn
      cases goesOn
    exact .token ⟨run.all, run.ends⟩ (here.cut cut) sound before

/-- What a lexer emits from some byte of its source on. -/
theorem Segmentation.emits {text : List Char} {tokens : List Token} (h : Segmentation text tokens)
    (start : Nat) : Emits start text (Lexer.emissions ⟨start, [], text, false⟩) := by
  have none (emission : Emission) (member : emission ∈ []) :
      emission.flaw = none ∧ emission.token.isTerminal = false := absurd member List.not_mem_nil
  induction h generalizing start with
  | @ends blanks run =>
    have first : Lexeme.first [] = ⟨.endOfText, [], []⟩ := rfl
    have emitted := Lexer.emissions_of_blanks start run first
    rw [List.append_nil] at emitted
    rw [emitted, show Lexer.stopsAfter .endOfText = true from rfl, Lexer.emissions_of_finished]
    exact .ends none
  | illegal run here =>
    obtain ⟨shape, first, kindOf, stops⟩ := here.first
    rw [decide_eq_true rfl] at stops
    obtain ⟨flaw, flawed⟩ := flawOf_of_illegal kindOf stops
    rw [Lexer.emissions_of_blanks start run first, stops, Lexer.emissions_of_finished, flawed,
      Lexeme.token, kindOf]
    exact .illegal none rfl (.ends ⟨run.all, fun _ head => by cases head⟩)
  | @token kind blanks literal rest tokens run here sound later ih =>
    obtain ⟨shape, first, kindOf, stops⟩ := here.first
    rw [decide_eq_false sound] at stops
    have goesOn := Lexer.isTerminal_kindOf (literal ++ rest) (String.ofList literal)
    rw [first, stops, kindOf] at goesOn
    rw [Lexer.emissions_of_blanks start run first, stops, flawOf_of_not_stopsAfter stops,
      Lexeme.token, kindOf]
    exact (ih _).cons run here goesOn

/-- What a lexer emits for a source: tokens without a flaw and a last one. That is the end, or an
illegal token, in front of which stands a text with the tokens before it. -/
theorem exists_emissions (source : String) :
    ∃ clear last, (Lexer.ofString source).emissions = clear ++ [last] ∧
      (∀ emission ∈ clear, emission.flaw = none ∧ emission.token.isTerminal = false) ∧
      (last.flaw = none ∧ last.token = Token.eof ∨
        ∃ reason front behind, last.flaw = some reason ∧ last.token.kind = .illegal ∧
          source = front ++ last.token.literal ++ behind ∧ front.utf8ByteSize = last.offset ∧
          tokenize front = clear.map Emission.token ++ [Token.eof]) := by
  have emits := (segmentation_scan source.toList).emits 0
  change Emits 0 source.toList (Lexer.ofString source).emissions at emits
  generalize (Lexer.ofString source).emissions = emissions at emits
  cases emits with
  | ends goesOn => exact ⟨_, _, rfl, goesOn, .inl ⟨rfl, rfl⟩⟩
  | @illegal clear front literal behind reason goesOn split before =>
    refine ⟨_, _, rfl, goesOn, .inr ⟨reason, String.ofList front, String.ofList behind, rfl, rfl,
      ?_, ?_, ?_⟩⟩
    · rw [← String.ofList_append, ← String.ofList_append, List.append_assoc, ← split,
        String.ofList_toList]
    · rw [utf8ByteSize_ofList, Nat.zero_add]
    · rw [tokenize_eq_scan, String.toList_ofList, before.scan_eq]

end Monkey
