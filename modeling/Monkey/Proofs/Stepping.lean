import Monkey.Lexer.Stepper
import Monkey.Proofs.Separation
import Monkey.Unicode.Alphabet

set_option autoImplicit false

namespace Monkey

theorem byteSize_append (before after : List Char) :
    byteSize (before ++ after) = byteSize before + byteSize after := by
  induction before with
  | nil => simp [byteSize]
  | cons c cs ih =>
    rw [List.cons_append, byteSize, byteSize, ih]
    omega

theorem utf8ByteSize_ofList (text : List Char) :
    (String.ofList text).utf8ByteSize = byteSize text := by
  induction text with
  | nil => rfl
  | cons c cs ih =>
    rw [String.ofList_cons, String.utf8ByteSize_append, ih, String.utf8ByteSize_singleton, byteSize]

/-- Behind whole characters and some bytes, which do not reach the end of the next character, there
is a boundary only if there are no such bytes. -/
theorem isValid_iff_stray (before : List Char) {rest : List Char} {stray : Nat}
    (short : ∀ c, rest.head? = some c → stray < c.utf8Size) :
    String.Pos.Raw.IsValid (String.ofList (before ++ rest)) ⟨byteSize before + stray⟩ ↔
      stray = 0 := by
  rw [String.Pos.Raw.isValid_ofList]
  constructor
  · rintro ⟨count, same⟩
    change byteSize before + stray = _ at same
    rw [utf8ByteSize_ofList, List.take_append, byteSize_append] at same
    by_cases inside : count ≤ before.length
    · have whole := congrArg byteSize (List.take_append_drop count before)
      rw [byteSize_append] at whole
      simp only [Nat.sub_eq_zero_of_le inside, List.take_zero, byteSize] at same
      omega
    · rw [List.take_of_length_le (by omega)] at same
      cases rest with
      | nil =>
        simp only [List.take_nil, byteSize] at same
        omega
      | cons c cs =>
        obtain ⟨more, later⟩ := Nat.exists_eq_add_of_lt (Nat.lt_of_not_le inside)
        have size := short c rfl
        rw [show count - before.length = more + 1 by omega, List.take_succ_cons, byteSize] at same
        omega
  · rintro rfl
    exact ⟨before.length, by simp [utf8ByteSize_ofList]⟩

namespace Lexer

theorem skipBlanks_finished (lexer : Lexer) : lexer.skipBlanks.finished = lexer.finished := by
  unfold skipBlanks
  split <;> rfl

theorem skipBlanks_held {lexer : Lexer} (ended : lexer.skipBlanks.rest = []) :
    lexer.skipBlanks.held = [] := by
  unfold skipBlanks at ended ⊢
  split
  · rfl
  · rename_i blank
    rw [if_neg blank] at ended
    simp [ended] at blank

variable [Alphabet]

theorem shape_first (c : Char) (cs : List Char) :
    (Lexeme.first (c :: cs)).shape ≠ .endOfText ∧
      ∀ kind, (Lexeme.first (c :: cs)).shape = .punctuation kind → kind.isTerminal = false := by
  rw [Lexeme.first]
  split
  · unfold Lexeme.ofDigits Lexeme.ofRun
    split <;> simp
  · split
    · simp [Lexeme.ofWord]
    · unfold Lexeme.ofPunctuation
      split
      · simp [TokenKind.isTerminal]
      · simp [TokenKind.isTerminal]
      · split
        · rename_i kind known
          have sound := (kind_of_mem_punctuation (mem_punctuation_iff.2 known)).2.1
          simp [sound]
        · simp

theorem isTerminal_kindOf (text : List Char) (literal : String) :
    (kindOf (Lexeme.first text).shape literal).isTerminal =
      stopsAfter (Lexeme.first text).shape := by
  cases text with
  | nil => rfl
  | cons c cs =>
    obtain ⟨-, sound⟩ := shape_first c cs
    cases shape : (Lexeme.first (c :: cs)).shape with
    | endOfText => rfl
    | word => exact isTerminal_wordKind literal
    | number => rfl
    | punctuation kind => exact sound kind shape
    | badNumber => rfl
    | unrecognised => rfl

theorem eq_nil_of_kindOf_eq_eof {text : List Char} {literal : String}
    (h : kindOf (Lexeme.first text).shape literal = .eof) : text = [] := by
  have stops := isTerminal_kindOf text literal
  rw [h] at stops
  cases text with
  | nil => rfl
  | cons c cs =>
    cases shape : (Lexeme.first (c :: cs)).shape with
    | endOfText => exact absurd shape (shape_first c cs).1
    | word => rw [shape] at stops; cases stops
    | number => rw [shape] at h; cases h
    | punctuation kind => rw [shape] at stops; cases stops
    | badNumber => rw [shape] at h; cases h
    | unrecognised => rw [shape] at h; cases h

end Lexer

namespace Stepper

inductive Step where
  | next
  | peek
  | remainder
  | isFinished
  | advance (count : Nat)
  deriving DecidableEq, Repr

inductive Answer where
  | emission (emission : Option Emission)
  | character (c : Option Char)
  | text (text : List Char)
  | flag (value : Bool)
  | done
  deriving DecidableEq, Repr

def Answer.emission? : Answer → Option Emission
  | emission result => result
  | _ => none

theorem emission?_toList_append (answer : Answer) (answers : List Answer) :
    answer.emission?.toList ++ answers.filterMap Answer.emission? =
      (answer :: answers).filterMap Answer.emission? := by
  cases emitted : answer.emission? <;> simp [emitted]

theorem splitBytes_spec (text : List Char) (count : Nat) :
    (splitBytes text count).1 ++ (splitBytes text count).2.1 = text ∧
      byteSize (splitBytes text count).1 + (splitBytes text count).2.2 = count ∧
      ∀ c, (splitBytes text count).2.1.head? = some c →
        (splitBytes text count).2.2 < c.utf8Size := by
  fun_induction splitBytes text count with
  | case1 count => simp [byteSize]
  | case2 c cs count fits later ih =>
    obtain ⟨whole, size, short⟩ := ih
    refine ⟨by simp [later, whole], ?_, short⟩
    simp only [byteSize, later]
    omega
  | case3 c cs count tooLong => simpa [byteSize] using tooLong

theorem position_advance (stepper : Stepper) (count : Nat) :
    (stepper.advance count).position = stepper.position + count := by
  obtain ⟨-, size, -⟩ := splitBytes_spec stepper.lexer.rest (stepper.stray + count)
  simp only [position, advance, byteSize_append]
  omega

/-- How a stepper stands in its source after certain emissions. -/
structure Stands (source : List Char) (emitted : List Emission) (stepper : Stepper) : Prop where
  split : ∃ before, before ++ (stepper.lexer.held ++ stepper.lexer.rest) = source ∧
    byteSize before = stepper.start
  short : ∀ c, stepper.lexer.rest.head? = some c → stepper.stray < c.utf8Size
  bare : ∀ emission ∈ emitted, emission.token.kind = .eof → emission.token.literal = ""
  finished : stepper.isFinished = true ↔ ∃ emission ∈ emitted, emission.token.isTerminal = true

namespace Stands

variable {source : List Char} {emitted : List Emission} {stepper : Stepper}

theorem isValid_start (h : Stands source emitted stepper) :
    String.Pos.Raw.IsValid (String.ofList source) ⟨stepper.start⟩ := by
  obtain ⟨before, rfl, size⟩ := h.split
  rw [← size]
  exact (isValid_iff_stray before fun c _ => c.utf8Size_pos).2 rfl

theorem isValid_position_iff (h : Stands source emitted stepper) :
    String.Pos.Raw.IsValid (String.ofList source) ⟨stepper.position⟩ ↔ stepper.stray = 0 := by
  obtain ⟨before, rfl, size⟩ := h.split
  have boundary := isValid_iff_stray (before ++ stepper.lexer.held) h.short
  rwa [List.append_assoc, byteSize_append, size] at boundary

theorem advance (h : Stands source emitted stepper) (count : Nat) :
    Stands source emitted (stepper.advance count) := by
  obtain ⟨whole, -, short⟩ := splitBytes_spec stepper.lexer.rest (stepper.stray + count)
  obtain ⟨before, rfl, size⟩ := h.split
  refine ⟨⟨before, ?_, size⟩, short, h.bare, h.finished⟩
  simp [Stepper.advance, whole]

theorem skipBlanks (h : Stands source emitted stepper) :
    Stands source emitted ⟨stepper.lexer.skipBlanks, 0⟩ := by
  obtain ⟨before, whole, size⟩ := h.split
  refine ⟨?_, fun c _ => c.utf8Size_pos, h.bare, ?_⟩
  · by_cases blank : stepper.lexer.rest.head?.all isBlank = true
    · refine ⟨before ++ (stepper.lexer.held ++ stepper.lexer.rest.takeWhile isBlank), ?_, ?_⟩
      · simp [Lexer.skipBlanks, blank, List.takeWhile_append_dropWhile, whole]
      · simp [Lexer.skipBlanks, blank, byteSize_append, size, start, Nat.add_assoc]
    · exact ⟨before, by simpa [Lexer.skipBlanks, blank] using whole,
        by simpa [Lexer.skipBlanks, blank, start] using size⟩
  · rw [← h.finished, isFinished, Lexer.skipBlanks_finished, isFinished]

theorem ofString (source : String) :
    Stands source.toList [] (Stepper.ofString source) where
  split := ⟨[], rfl, rfl⟩
  short c _ := c.utf8Size_pos
  bare _ member := by cases member
  finished := by simp [isFinished, Stepper.ofString, Lexer.ofString, Lexer.ofChars]

end Stands

section

variable [Alphabet]

namespace Step

def perform (stepper : Stepper) : Step → Except Misread (Answer × Stepper)
  | next => stepper.next.map fun result => (.emission result.1, result.2)
  | peek => stepper.peek.map fun c => (.character c, stepper)
  | remainder => stepper.remainder.map fun text => (.text text, stepper)
  | isFinished => .ok (.flag stepper.isFinished, stepper)
  | advance count => .ok (.done, stepper.advance count)

/-- The steps that read the source. A stepper that has finished has nothing to read for a token. -/
def reads (stepper : Stepper) : Step → Bool
  | next => !stepper.isFinished
  | peek | remainder => true
  | isFinished | advance _ => false

end Step

def performAll (stepper : Stepper) : List Step → Except Misread (List Answer × Stepper)
  | [] => .ok ([], stepper)
  | step :: steps =>
    (step.perform stepper).bind fun result =>
      (result.2.performAll steps).map fun later => (result.1 :: later.1, later.2)

theorem exists_of_performAll_cons {stepper last : Stepper} {step : Step} {steps : List Step}
    {answers : List Answer} (h : stepper.performAll (step :: steps) = .ok (answers, last)) :
    ∃ answer after more, step.perform stepper = .ok (answer, after) ∧
      after.performAll steps = .ok (more, last) ∧ answers = answer :: more := by
  rw [performAll] at h
  cases first : step.perform stepper with
  | error fault => simp [first, Except.bind] at h
  | ok result =>
    cases later : result.2.performAll steps with
    | error fault => simp [first, later, Except.bind, Except.map] at h
    | ok more =>
      simp only [first, later, Except.bind, Except.map] at h
      cases h
      exact ⟨result.1, result.2, more.1, rfl, later, rfl⟩

/-- A step faults exactly if it reads the source with stray bytes in front. -/
theorem Step.perform_eq_error_iff (stepper : Stepper) (step : Step) :
    step.perform stepper = .error .offBoundary ↔
      step.reads stepper = true ∧ stepper.stray ≠ 0 := by
  cases step with
  | next =>
    by_cases finished : stepper.lexer.finished = true
    · simp [perform, reads, Stepper.next, Stepper.isFinished, finished, Except.map]
    · by_cases whole : stepper.stray = 0
      · cases produced : stepper.lexer.next? <;>
          simp [perform, reads, Stepper.next, finished, whole, produced, Except.map]
      · simp [perform, reads, Stepper.next, Stepper.isFinished, finished, whole, Except.map]
  | peek =>
    by_cases whole : stepper.stray = 0 <;>
      simp [perform, reads, Stepper.peek, Stepper.remainder, whole, Except.map]
  | remainder =>
    by_cases whole : stepper.stray = 0 <;>
      simp [perform, reads, Stepper.remainder, whole, Except.map]
  | isFinished => simp [perform, reads]
  | advance count => simp [perform, reads]

namespace Stands

variable {source : List Char} {emitted : List Emission} {stepper : Stepper}

theorem emit (h : Stands source emitted stepper) (running : stepper.isFinished = false)
    (ready : stepper.lexer.rest = [] → stepper.lexer.held = []) :
    Stands source
      (emitted ++ [(stepper.lexer.emit (Lexeme.first stepper.lexer.rest)).1])
      ⟨(stepper.lexer.emit (Lexeme.first stepper.lexer.rest)).2, 0⟩ where
  split := by
    obtain ⟨before, whole, size⟩ := h.split
    refine ⟨before ++ (stepper.lexer.held ++ (Lexeme.first stepper.lexer.rest).text), ?_, ?_⟩
    · simp [Lexer.emit, Lexeme.first_text_append_rest, whole]
    · simp [Lexer.emit, byteSize_append, size, start, Nat.add_assoc]
  short c _ := c.utf8Size_pos
  bare emission member kind := by
    rcases List.mem_append.1 member with old | new
    · exact h.bare emission old kind
    · rw [List.mem_singleton] at new
      subst new
      have ended := Lexer.eq_nil_of_kindOf_eq_eof kind
      simp [Lexer.emit, ended, ready ended, Lexeme.first]
  finished := by
    have none : ¬ ∃ emission ∈ emitted, emission.token.isTerminal = true := by
      rw [← h.finished, running]
      decide
    simp only [List.mem_append, List.mem_singleton, or_and_right, exists_or, none, false_or,
      exists_eq_left]
    exact Bool.eq_iff_iff.1 (Lexer.isTerminal_kindOf _ _).symm

theorem next {result : Option Emission × Stepper} (h : Stands source emitted stepper)
    (step : stepper.next = .ok result) :
    Stands source (emitted ++ result.1.toList) result.2 := by
  unfold Stepper.next Lexer.next? at step
  by_cases finished : stepper.lexer.finished = true
  · rw [if_pos finished] at step
    cases step
    simpa using h
  · rw [if_neg finished] at step
    by_cases whole : stepper.stray = 0
    · rw [if_pos whole, if_neg finished] at step
      cases step
      have running : isFinished ⟨stepper.lexer.skipBlanks, 0⟩ = false := by
        rw [isFinished, Lexer.skipBlanks_finished, Bool.eq_false_iff]
        exact finished
      exact h.skipBlanks.emit running Lexer.skipBlanks_held
    · rw [if_neg whole] at step
      cases step

theorem perform {answer : Answer} {after : Stepper} {step : Step}
    (h : Stands source emitted stepper) (performed : step.perform stepper = .ok (answer, after)) :
    Stands source (emitted ++ answer.emission?.toList) after := by
  cases step with
  | next =>
    rw [Step.perform] at performed
    cases produced : stepper.next with
    | error fault => simp [produced, Except.map] at performed
    | ok result =>
      rw [produced] at performed
      cases performed
      exact h.next produced
  | peek =>
    rw [Step.perform] at performed
    cases read : stepper.peek with
    | error fault => simp [read, Except.map] at performed
    | ok c =>
      rw [read] at performed
      cases performed
      simpa [Answer.emission?] using h
  | remainder =>
    rw [Step.perform] at performed
    cases read : stepper.remainder with
    | error fault => simp [read, Except.map] at performed
    | ok text =>
      rw [read] at performed
      cases performed
      simpa [Answer.emission?] using h
  | isFinished =>
    cases performed
    simpa [Answer.emission?] using h
  | advance count =>
    cases performed
    simpa [Answer.emission?] using h.advance count

theorem performAll {answers : List Answer} {after : Stepper} {steps : List Step}
    (h : Stands source emitted stepper)
    (performed : stepper.performAll steps = .ok (answers, after)) :
    Stands source (emitted ++ answers.filterMap Answer.emission?) after := by
  induction steps generalizing emitted stepper answers with
  | nil =>
    cases performed
    simpa using h
  | cons step steps ih =>
    obtain ⟨answer, middle, more, first, later, rfl⟩ := exists_of_performAll_cons performed
    have stands := ih (h.perform first) later
    rwa [List.append_assoc, emission?_toList_append] at stands

end Stands

theorem exists_perform {stepper : Stepper} {step : Step} (whole : stepper.stray = 0)
    (free : ∀ count, step ≠ .advance count) :
    ∃ answer after, step.perform stepper = .ok (answer, after) ∧ after.stray = 0 := by
  cases step with
  | next =>
    by_cases finished : stepper.lexer.finished = true
    · exact ⟨.emission none, stepper,
        by simp [Step.perform, next, finished, Except.map], whole⟩
    · cases produced : stepper.lexer.next? with
      | none =>
        exact ⟨.emission none, stepper,
          by simp [Step.perform, next, finished, whole, produced, Except.map], whole⟩
      | some result =>
        exact ⟨.emission result.1, ⟨result.2, 0⟩,
          by simp [Step.perform, next, finished, whole, produced, Except.map], rfl⟩
  | peek =>
    exact ⟨.character stepper.lexer.rest.head?, stepper,
      by simp [Step.perform, peek, remainder, whole, Except.map], whole⟩
  | remainder =>
    exact ⟨.text stepper.lexer.rest, stepper,
      by simp [Step.perform, remainder, whole, Except.map], whole⟩
  | isFinished => exact ⟨_, stepper, rfl, whole⟩
  | advance count => exact absurd rfl (free count)

theorem exists_performAll {stepper : Stepper} {steps : List Step} (whole : stepper.stray = 0)
    (free : ∀ step ∈ steps, ∀ count, step ≠ .advance count) :
    ∃ answers after, stepper.performAll steps = .ok (answers, after) := by
  induction steps generalizing stepper with
  | nil => exact ⟨[], stepper, rfl⟩
  | cons step steps ih =>
    obtain ⟨first, later⟩ := List.forall_mem_cons.1 free
    obtain ⟨answer, middle, performed, still⟩ := exists_perform whole first
    obtain ⟨answers, last, more⟩ := ih still later
    exact ⟨answer :: answers, last, by
      simp [performAll, performed, more, Except.bind, Except.map]⟩

/-- Whatever steps were taken without a fault, it is clear from where the stepper stands which step
faults next; and a stepper that has finished stays so. -/
theorem stepping_exact (source : String) (steps : List Step) :
    (∀ answers after, (ofString source).performAll steps = .ok (answers, after) →
      String.Pos.Raw.IsValid source ⟨after.start⟩ ∧
      after.start ≤ after.position ∧
      (∀ count, (after.advance count).position = after.position + count) ∧
      (∀ step : Step, step.perform after = .error .offBoundary ↔
        step.reads after = true ∧ ¬ String.Pos.Raw.IsValid source ⟨after.position⟩) ∧
      (∀ emission ∈ answers.filterMap Answer.emission?,
        emission.token.kind = .eof → emission.token.literal = "") ∧
      ((∃ emission ∈ answers.filterMap Answer.emission?, emission.token.isTerminal = true) ↔
        after.isFinished = true) ∧
      (after.isFinished = true → ∀ later more last,
        after.performAll later = .ok (more, last) →
          last.isFinished = true ∧ last.next = .ok (none, last))) ∧
    ((∀ step ∈ steps, ∀ count, step ≠ .advance count) →
      ∃ answers after, (ofString source).performAll steps = .ok (answers, after)) := by
  refine ⟨fun answers after performed => ?_, exists_performAll rfl⟩
  have stands := (Stands.ofString source).performAll performed
  have start := stands.isValid_start
  have position := stands.isValid_position_iff
  rw [String.ofList_toList] at start position
  refine ⟨start, ?_, position_advance after, fun step => ?_, stands.bare, stands.finished.symm,
    ?_⟩
  · rw [Stepper.position, Stepper.start]
    omega
  · rw [step.perform_eq_error_iff, position]
  · intro finished later more last onward
    obtain ⟨emission, member, terminal⟩ := stands.finished.1 finished
    have done := (stands.performAll onward).finished.2
      ⟨emission, List.mem_append_left _ member, terminal⟩
    exact ⟨done, if_pos done⟩

end

theorem stepping_exact_insideCharacter :
    (∃ after, (ofString "x é").performAll [.next, .advance 2] =
        .ok ([.emission (some ⟨⟨.identifier, "x"⟩, 0, none⟩), .done], after) ∧
      String.Pos.Raw.IsValid "x é" ⟨after.start⟩ ∧ ¬ String.Pos.Raw.IsValid "x é" ⟨3⟩ ∧
      Step.next.perform after = .error .offBoundary) ∧
    ∃ answers after, (ofString "x é").performAll [.next, .peek] = .ok (answers, after) := by
  have within : ¬ String.Pos.Raw.IsValid "x é" ⟨3⟩ := by
    rw [← String.Pos.Raw.isValid_eq_true_iff]
    decide +kernel
  have run : (ofString "x é").performAll [.next, .advance 2] =
      .ok ([.emission (some ⟨⟨.identifier, "x"⟩, 0, none⟩), .done],
        ⟨⟨1, [' '], ['é'], false⟩, 1⟩) := by decide +kernel
  obtain ⟨start, -, -, faults, -⟩ := (stepping_exact "x é" [.next, .advance 2]).1 _ _ run
  exact ⟨⟨_, run, start, within, (faults .next).2 ⟨rfl, within⟩⟩,
    (stepping_exact "x é" [.next, .peek]).2 (by simp)⟩

end Stepper

end Monkey
