import Monkey.Proofs.Completeness

set_option autoImplicit false

/-!
# Braces along a run

The depth of a run counts the braces it has entered, opening ones less closing ones, except for
those that it gave up as operands. No action advances below the depth at which it began.
-/
namespace Monkey

open Parse

def TokenKind.weight : TokenKind → Int
  | openCurly => 1
  | closeCurly => -1
  | _ => 0

def ParseError.weight : ParseError → Int
  | noOperandForm kind => kind.weight
  | _ => 0

/-- The moves of a run that never advances at a depth below a floor. -/
inductive Walks (floor : Int) (cursor : Cursor) (start : Int) : Cursor → Int → Prop where
  | refl : Walks floor cursor start cursor start
  | advance {last : Cursor} {depth : Int} (walk : Walks floor cursor start last depth)
      (enough : floor ≤ depth) :
      Walks floor cursor start last.advance (depth + last.peek.kind.weight)
  | record {last : Cursor} {depth : Int} {error : ParseError}
      (walk : Walks floor cursor start last depth)
      (present : error.weight ≠ 0 → last.current.kind ≠ .eof) :
      Walks floor cursor start (last.record error) (depth - error.weight)
  | reach {last : Cursor} {depth : Int} {levels : Nat}
      (walk : Walks floor cursor start last depth) :
      Walks floor cursor start (last.reach levels) depth

namespace Walks

variable {floor start depth final : Int} {cursor middle last : Cursor}

theorem trans (h : Walks floor cursor start middle depth)
    (h' : Walks floor middle depth last final) : Walks floor cursor start last final := by
  induction h' with
  | refl => exact h
  | advance _ enough ih => exact ih.advance enough
  | record _ present ih => exact ih.record present
  | reach _ ih => exact ih.reach

theorem lower {below : Int} (h : Walks floor cursor start last depth) (hle : below ≤ floor) :
    Walks below cursor start last depth := by
  induction h with
  | refl => exact .refl
  | advance _ enough ih => exact ih.advance (Int.le_trans hle enough)
  | record _ present ih => exact ih.record present
  | reach _ ih => exact ih.reach

theorem settled (h : Walks floor cursor start last depth) (settled : cursor.Settled) :
    last.Settled := by
  induction h with
  | refl => exact settled
  | advance _ _ ih => exact ih.advance
  | record _ _ ih => exact ih.record _
  | reach _ ih => exact ih.reach _

theorem ahead_length_le (h : Walks floor cursor start last depth) (settled : cursor.Settled) :
    last.ahead.length ≤ cursor.ahead.length := by
  induction h with
  | refl => exact Nat.le_refl _
  | @advance last _ walk _ ih =>
    rw [Cursor.ahead_advance]
    refine Nat.le_trans ?_ ih
    by_cases hcurrent : last.current.kind = .eof
    · have none : last.after = [] := by
        rw [Cursor.after, if_pos ((walk.settled settled).peek_of_current hcurrent)]
      simp [none]
    · simp [Cursor.ahead_of_current hcurrent]
  | record _ _ ih => exact ih
  | reach _ ih => exact ih

end Walks

namespace Parse

/-- Every outcome of an action but the fatal one is reached by a walk from a depth, and a value or
an error that it gives is related to the depth at which the walk ends. -/
structure Accounts {α : Type} (action : Parse α) (cursor : Cursor) (floor start : Int)
    (gives : α → Cursor → Int → Prop) (drops : ParseError → Cursor → Int → Prop) : Prop where
  ok : ∀ value last, action cursor = .ok value last →
    ∃ depth, Walks floor cursor start last depth ∧ gives value last depth
  error : ∀ error last, action cursor = .error error last → error ≠ .nestingTooDeep maxNesting →
    error.isFatal = false ∧ ∃ depth, Walks floor cursor start last depth ∧ drops error last depth

/-- All tokens are used up, and no more braces were closed than before. -/
def Over (floor : Int) (error : ParseError) (last : Cursor) (depth : Int) : Prop :=
  last.ahead = [] ∧ error.weight = 0 ∧ floor ≤ depth

/-- Once the error is recorded the depth is what it was, or all tokens are used up. -/
def Drops (floor : Int) (error : ParseError) (last : Cursor) (depth : Int) : Prop :=
  depth = floor + error.weight ∧ (error.weight ≠ 0 → last.current.kind ≠ .eof) ∨
    Over floor error last depth

section

variable {α β : Type} {first : Parse α} {next : α → Parse β} {cursor middle : Cursor}
  {floor start depth : Int} {post : α → Cursor → Int → Prop} {goal : β → Cursor → Int → Prop}
  {drops : ParseError → Cursor → Int → Prop}

theorem accounts_pure {value : α} (h : post value cursor start) :
    Accounts (pure value) cursor floor start post drops := by
  refine ⟨fun result last run => ?_, fun error last run => ?_⟩
  · cases run
    exact ⟨start, .refl, h⟩
  · cases run

theorem accounts_throw {error : ParseError} (calm : error.isFatal = false)
    (h : drops error cursor start) :
    Accounts (throw error : Parse α) cursor floor start post drops := by
  refine ⟨fun result last run => ?_, fun other last run _ => ?_⟩
  · cases run
  · cases run
    exact ⟨calm, start, .refl, h⟩

theorem accounts_tooDeep : Accounts (tooDeep : Parse α) cursor floor start post drops := by
  refine ⟨fun result last run => ?_, fun error last run fatal => ?_⟩
  · cases run
  · cases run
    exact absurd rfl fatal

theorem Accounts.bindWalk (settled : cursor.Settled)
    (h : Accounts first cursor floor start post drops)
    (hnext : ∀ value last depth, Walks floor cursor start last depth → last.Settled →
      post value last depth → Accounts (next value) last floor depth goal drops) :
    Accounts (first >>= next) cursor floor start goal drops := by
  refine ⟨fun result last run => ?_, fun error last run fatal => ?_⟩
  · obtain ⟨value, middle, early, late⟩ := ok_of_bind run
    obtain ⟨depth, walk, hpost⟩ := h.ok value middle early
    obtain ⟨final, further, hgoal⟩ :=
      (hnext value middle depth walk (walk.settled settled) hpost).ok result last late
    exact ⟨final, walk.trans further, hgoal⟩
  · rcases error_of_bind run with early | ⟨value, middle, early, late⟩
    · exact h.error error last early fatal
    · obtain ⟨depth, walk, hpost⟩ := h.ok value middle early
      obtain ⟨calm, final, further, hdrops⟩ :=
        (hnext value middle depth walk (walk.settled settled) hpost).error error last late fatal
      exact ⟨calm, final, walk.trans further, hdrops⟩

theorem Accounts.bind (settled : cursor.Settled) (h : Accounts first cursor floor start post drops)
    (hnext : ∀ value last depth, last.Settled → post value last depth →
      Accounts (next value) last floor depth goal drops) :
    Accounts (first >>= next) cursor floor start goal drops :=
  h.bindWalk settled fun value last depth _ => hnext value last depth

theorem Accounts.of_ok {value : α} (run : first cursor = .ok value middle)
    (walk : Walks floor cursor start middle depth)
    (h : Accounts (next value) middle floor depth goal drops) :
    Accounts (first >>= next) cursor floor start goal drops := by
  refine ⟨fun result last whole => ?_, fun error last whole fatal => ?_⟩
  · rw [bind_of_ok run] at whole
    obtain ⟨final, further, hgoal⟩ := h.ok result last whole
    exact ⟨final, walk.trans further, hgoal⟩
  · rw [bind_of_ok run] at whole
    obtain ⟨calm, final, further, hdrops⟩ := h.error error last whole fatal
    exact ⟨calm, final, walk.trans further, hdrops⟩

theorem Accounts.lower {below : Int} {weaker : α → Cursor → Int → Prop}
    {looser : ParseError → Cursor → Int → Prop} (h : Accounts first cursor floor start post drops)
    (hle : below ≤ floor) (hpost : ∀ value last depth, post value last depth →
      weaker value last depth)
    (hdrops : ∀ error last depth, drops error last depth → looser error last depth) :
    Accounts first cursor below start weaker looser := by
  refine ⟨fun value last run => ?_, fun error last run fatal => ?_⟩
  · obtain ⟨depth, walk, hvalue⟩ := h.ok value last run
    exact ⟨depth, walk.lower hle, hpost value last depth hvalue⟩
  · obtain ⟨calm, depth, walk, herror⟩ := h.error error last run fatal
    exact ⟨calm, depth, walk.lower hle, hdrops error last depth herror⟩

theorem accounts_advance {next : Unit → Parse β} (enough : floor ≤ start)
    (h : Accounts (next ()) cursor.advance floor (start + cursor.peek.kind.weight) goal drops) :
    Accounts (advance >>= next) cursor floor start goal drops :=
  Accounts.of_ok rfl (Walks.refl.advance enough) h

theorem accounts_advanceLight {next : Unit → Parse β} (enough : floor ≤ start)
    (light : cursor.peek.kind.weight = 0)
    (h : Accounts (next ()) cursor.advance floor start goal drops) :
    Accounts (advance >>= next) cursor floor start goal drops := by
  apply accounts_advance enough
  rwa [light, Int.add_zero]

theorem accounts_current {next : Token → Parse β}
    (h : Accounts (next cursor.current) cursor floor start goal drops) :
    Accounts (current >>= next) cursor floor start goal drops :=
  Accounts.of_ok rfl .refl h

theorem accounts_currentKind {next : TokenKind → Parse β}
    (h : Accounts (next cursor.current.kind) cursor floor start goal drops) :
    Accounts (currentKind >>= next) cursor floor start goal drops :=
  Accounts.of_ok rfl .refl h

theorem accounts_peekKind {next : TokenKind → Parse β}
    (h : Accounts (next cursor.peek.kind) cursor floor start goal drops) :
    Accounts (peekKind >>= next) cursor floor start goal drops :=
  Accounts.of_ok rfl .refl h

theorem accounts_remaining {next : Nat → Parse β}
    (h : Accounts (next cursor.remaining) cursor floor start goal drops) :
    Accounts (remaining >>= next) cursor floor start goal drops :=
  Accounts.of_ok rfl .refl h

theorem accounts_openLevel {next : Unit → Parse β} {levels : Nat}
    (h : Accounts (next ()) (cursor.reach levels) floor start goal drops) :
    Accounts (openLevel levels >>= next) cursor floor start goal drops :=
  Accounts.of_ok rfl (Walks.refl.reach) h

theorem accounts_expectPeek {next : Unit → Parse β} {kind : TokenKind}
    (h : Accounts (next ()) cursor.advance floor (floor + kind.weight) goal (Drops floor)) :
    Accounts (expectPeek kind >>= next) cursor floor floor goal (Drops floor) := by
  by_cases hpeek : cursor.peek.kind = kind
  · have moved : expectPeek kind cursor = .ok () cursor.advance := by simp [expectPeek, hpeek]
    rw [← hpeek] at h
    exact Accounts.of_ok moved (Walks.refl.advance (Int.le_refl floor)) h
  · have stuck : expectPeek kind cursor =
        .error (.unexpectedToken kind cursor.peek.kind) cursor := by simp [expectPeek, hpeek]
    refine ⟨fun result last run => ?_, fun error last run _ => ?_⟩
    · rw [bind_of_error stuck] at run
      cases run
    · rw [bind_of_error stuck] at run
      cases run
      exact ⟨rfl, floor, .refl, .inl ⟨by simp [ParseError.weight], by simp [ParseError.weight]⟩⟩

theorem accounts_expectLight {next : Unit → Parse β} {kind : TokenKind} (light : kind.weight = 0)
    (h : Accounts (next ()) cursor.advance floor floor goal (Drops floor)) :
    Accounts (expectPeek kind >>= next) cursor floor floor goal (Drops floor) := by
  apply accounts_expectPeek
  rwa [light, Int.add_zero]

theorem accounts_skipSemicolon {next : Unit → Parse β} (settled : cursor.Settled)
    (h : ∀ last : Cursor, last.Settled → Accounts (next ()) last floor floor goal drops) :
    Accounts (skipSemicolon >>= next) cursor floor floor goal drops := by
  by_cases hpeek : cursor.peek.kind = .semicolon
  · have walk : Walks floor cursor floor cursor.advance floor := by
      have step : Walks floor cursor floor cursor.advance _ :=
        Walks.refl.advance (Int.le_refl floor)
      rw [hpeek] at step
      simpa [TokenKind.weight] using step
    exact Accounts.of_ok (by simp [skipSemicolon, hpeek]) walk (h _ settled.advance)
  · exact Accounts.of_ok (by simp [skipSemicolon, hpeek]) .refl (h _ settled)

end

section Lists

variable {α : Type} {item : Parse α} {floor : Int}

theorem accounts_afterCommas (h : ∀ cursor : Cursor, cursor.Settled →
      Accounts item cursor floor floor (fun _ _ depth => depth = floor) (Drops floor))
    {cursor : Cursor} (settled : cursor.Settled) (bound : Nat) :
    Accounts (afterCommas item bound) cursor floor floor (fun _ _ depth => depth = floor)
      (Drops floor) := by
  induction bound generalizing cursor with
  | zero => exact accounts_pure rfl
  | succ bound ih =>
    apply accounts_peekKind
    split
    · rename_i hcomma
      apply accounts_advanceLight (Int.le_refl floor) (by rw [hcomma]; rfl)
      apply (h _ settled.advance).bind settled.advance
      rintro value last _ hlast rfl
      apply (ih hlast).bind hlast
      rintro values final _ _ rfl
      exact accounts_pure rfl
    · exact accounts_pure rfl

theorem accounts_bracketed (h : ∀ cursor : Cursor, cursor.Settled →
      Accounts item cursor floor floor (fun _ _ depth => depth = floor) (Drops floor))
    {cursor : Cursor} (settled : cursor.Settled) :
    Accounts (bracketed item) cursor floor floor (fun _ _ depth => depth = floor)
      (Drops floor) := by
  apply accounts_peekKind
  split
  · rename_i hclose
    exact accounts_advanceLight (Int.le_refl floor) (by rw [hclose]; rfl) (accounts_pure rfl)
  · apply (h _ settled).bind settled
    rintro value last _ hlast rfl
    refine accounts_remaining ((accounts_afterCommas h hlast _).bind hlast ?_)
    rintro values final _ _ rfl
    exact accounts_expectLight rfl (accounts_pure rfl)

end Lists

end Parse

end Monkey
