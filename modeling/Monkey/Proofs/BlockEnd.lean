import Mathlib.Algebra.Ring.Int.Defs
import Monkey.Parser
import Monkey.Proofs.Recovery

set_option autoImplicit false

namespace Monkey

open Parse

def balance (tokens : List Token) : Int := (tokens.map fun token => token.kind.weight).sum

/-- Every brace among the tokens is matched by another one. -/
structure Matched (tokens : List Token) : Prop where
  nonneg (count : Nat) : 0 ≤ balance (tokens.take count)
  total : balance tokens = 0

/-- The errors among journal entries, until the source is called once more than a number of
times. -/
def errorsWithin : Nat → List Entry → List ParseError
  | _, [] => []
  | calls, .recorded error :: entries => error :: errorsWithin calls entries
  | 0, .pulled :: _ => []
  | calls + 1, .pulled :: entries => errorsWithin calls entries

def Cursor.entriesSince (cursor earlier : Cursor) : List Entry :=
  cursor.journal.reverse.drop earlier.journal.length

def errorWeight (errors : List ParseError) : Int := (errors.map ParseError.weight).sum

section Lists

theorem balance_append (early late : List Token) :
    balance (early ++ late) = balance early + balance late := by
  simp [balance]

theorem balance_take_succ (tokens : List Token) (count : Nat) :
    balance (tokens.take (count + 1)) =
      balance (tokens.take count) + (headKind (tokens.drop count)).weight := by
  induction count generalizing tokens with
  | zero =>
    cases tokens with
    | nil => rfl
    | cons token rest => simp [balance]
  | succ count ih =>
    cases tokens with
    | nil => rfl
    | cons token rest =>
      have tail := ih rest
      simp only [balance, List.take_succ_cons, List.map_cons, List.sum_cons,
        List.drop_succ_cons] at tail ⊢
      omega

theorem errorsWithin_append_pulled (calls : Nat) (entries : List Entry) :
    errorsWithin calls (entries ++ [.pulled]) = errorsWithin calls entries := by
  induction entries generalizing calls with
  | nil => cases calls <;> rfl
  | cons entry entries ih =>
    cases entry with
    | recorded error => simp [errorsWithin, ih]
    | pulled => cases calls <;> simp [errorsWithin, ih]

theorem errorsWithin_append_recorded (calls : Nat) (entries : List Entry) (error : ParseError) :
    errorsWithin calls (entries ++ [.recorded error]) =
      errorsWithin calls entries ++ if entries.count .pulled ≤ calls then [error] else [] := by
  induction entries generalizing calls with
  | nil => simp [errorsWithin]
  | cons entry entries ih =>
    cases entry with
    | recorded other => simp [errorsWithin, ih]
    | pulled => cases calls <;> simp [errorsWithin, ih]

theorem errorWeight_append (early late : List ParseError) :
    errorWeight (early ++ late) = errorWeight early + errorWeight late := by
  simp [errorWeight]

theorem errorWeight_eq_count (errors : List ParseError) :
    errorWeight errors =
      errors.count (.noOperandForm .openCurly) - errors.count (.noOperandForm .closeCurly) := by
  induction errors with
  | nil => rfl
  | cons error errors ih =>
    have step : errorWeight (error :: errors) = error.weight + errorWeight errors := by
      simp [errorWeight]
    rw [step, ih, List.count_cons, List.count_cons]
    rcases error with ⟨expected, found⟩ | kind | literal | literal | limit
    · simp [ParseError.weight]
    · cases kind <;> simp [ParseError.weight, TokenKind.weight] <;> omega
    · simp [ParseError.weight]
    · simp [ParseError.weight]
    · simp [ParseError.weight]

end Lists

section Walking

theorem Cursor.exhausted_of_advance {cursor : Cursor} (h : cursor.advance.exhausted = false) :
    cursor.exhausted = false := by
  cases hexhausted : cursor.exhausted with
  | false => rfl
  | true =>
    change cursor.pull.2.exhausted = false at h
    rw [Cursor.pull_of_exhausted hexhausted, hexhausted] at h
    cases h

/-- A cursor that is a number of advances behind an earlier one, with the entries made on the way.
Until it is exhausted every advance has called the source. -/
structure Ahead (origin : Cursor) (steps : Nat) (entries : List Entry) (cursor : Cursor) :
    Prop where
  ahead : cursor.ahead = origin.ahead.drop steps
  after : cursor.after = origin.after.drop steps
  journal : cursor.journal.reverse = origin.journal.reverse ++ entries
  calls_le : entries.count .pulled ≤ steps
  calls_eq : cursor.exhausted = false → entries.count .pulled = steps
  ended : steps ≠ 0 → cursor.exhausted = true → cursor.after = []

theorem Ahead.advance {origin cursor : Cursor} {steps : Nat} {entries : List Entry}
    (h : Ahead origin steps entries cursor) (settled : cursor.Settled)
    (some : origin.current.kind ≠ .eof) :
    Ahead origin (steps + 1) (entries ++ if cursor.exhausted then [] else [.pulled])
      cursor.advance where
  ahead := by rw [Cursor.ahead_advance, h.after, Cursor.ahead_of_current some, List.drop_succ_cons]
  after := by rw [Cursor.after_advance settled, h.after, List.tail_drop]
  journal := by rw [Cursor.journal_advance, h.journal, List.append_assoc]
  calls_le := by
    have less := h.calls_le
    rw [List.count_append]
    split <;> simp <;> omega
  calls_eq running := by
    have before : cursor.exhausted = false := Cursor.exhausted_of_advance running
    rw [before, List.count_append, h.calls_eq before]
    rfl
  ended _ finished := Cursor.after_of_advance_exhausted finished

/-- How far a run has come that counts braces from the opening one of a block: it has the matching
brace at most as its current token, or it has left it behind, and then it had given up more closing
than opening braces. -/
def Stage (origin : Cursor) (target steps : Nat) (entries : List Entry) (cursor : Cursor)
    (depth : Int) : Prop :=
  steps ≤ target ∧
      depth = balance (origin.after.take steps) - errorWeight (errorsWithin target entries) ∨
    target < steps ∧ errorWeight (errorsWithin target entries) < 0 ∧
      (target < entries.count .pulled ∨ cursor.ahead = [] ∧ cursor.exhausted = true)

variable {origin cursor : Cursor} {target steps : Nat} {entries : List Entry} {depth : Int}

theorem Stage.advance (stage : Stage origin target steps entries cursor depth)
    (h : Ahead origin steps entries cursor) (settled : cursor.Settled) (positive : target ≠ 0)
    (closes : balance (origin.after.take target) = -1) (enough : 0 ≤ depth) :
    Stage origin target (steps + 1) (entries ++ if cursor.exhausted then [] else [.pulled])
      cursor.advance (depth + cursor.peek.kind.weight) := by
  have same : errorsWithin target (entries ++ if cursor.exhausted then [] else [.pulled]) =
      errorsWithin target entries := by
    split
    · rw [List.append_nil]
    · exact errorsWithin_append_pulled target entries
  have finished (hexhausted : cursor.exhausted = true) : cursor.advance.exhausted = true := by
    change cursor.pull.2.exhausted = true
    rw [Cursor.pull_of_exhausted hexhausted]
    exact hexhausted
  rw [Stage, same]
  rcases stage with ⟨near, hdepth⟩ | ⟨far, lost, later⟩
  · by_cases there : steps = target
    · subst there
      refine .inr ⟨by omega, by omega, ?_⟩
      cases hexhausted : cursor.exhausted with
      | true =>
        refine .inr ⟨?_, finished hexhausted⟩
        rw [Cursor.ahead_advance]
        exact h.ended positive hexhausted
      | false =>
        refine .inl ?_
        rw [List.count_append, h.calls_eq hexhausted]
        exact Nat.lt_succ_self steps
    · refine .inl ⟨by omega, ?_⟩
      rw [balance_take_succ, ← h.after, Cursor.headKind_after]
      omega
  · refine .inr ⟨by omega, lost, ?_⟩
    rcases later with later | ⟨ended, hexhausted⟩
    · refine .inl ?_
      rw [List.count_append]
      omega
    · refine .inr ⟨?_, finished hexhausted⟩
      have current : cursor.current.kind = .eof := by
        rw [← Cursor.headKind_ahead, ended]
        rfl
      rw [Cursor.ahead_advance, Cursor.after, if_pos (settled.peek_of_current current)]

theorem Stage.record (stage : Stage origin target steps entries cursor depth)
    (h : Ahead origin steps entries cursor) {error : ParseError}
    (present : error.weight ≠ 0 → cursor.current.kind ≠ .eof) :
    Stage origin target steps (entries ++ [.recorded error]) (cursor.record error)
      (depth - error.weight) := by
  have single : errorWeight [error] = error.weight := Int.add_zero _
  have none : errorWeight [] = 0 := rfl
  have calls := h.calls_le
  rw [Stage, errorsWithin_append_recorded, errorWeight_append]
  rcases stage with ⟨near, hdepth⟩ | ⟨far, lost, later⟩
  · refine .inl ⟨near, ?_⟩
    rw [if_pos (by omega), single]
    omega
  · refine .inr ⟨far, ?_, ?_⟩
    · rcases later with later | ⟨ended, -⟩
      · rw [if_neg (by omega), none]
        omega
      · -- At the end of the source no brace is there to be given up.
        have current : cursor.current.kind = .eof := by
          rw [← Cursor.headKind_ahead, ended]
          rfl
        have light : error.weight = 0 := by
          by_cases heavy : error.weight = 0
          · exact heavy
          · exact absurd current (present heavy)
        split
        · rw [single, light]
          omega
        · rw [none]
          omega
    · rw [List.count_append]
      exact later

theorem Walks.stage (walk : Walks 0 origin 0 cursor depth) (settled : origin.Settled)
    (some : origin.current.kind ≠ .eof) (positive : target ≠ 0)
    (closes : balance (origin.after.take target) = -1) :
    ∃ steps entries, Ahead origin steps entries cursor ∧
      Stage origin target steps entries cursor depth := by
  induction walk with
  | refl =>
    refine ⟨0, [], ⟨rfl, rfl, ?_, Nat.le_refl 0, fun _ => rfl, fun h => absurd rfl h⟩,
      .inl ⟨Nat.zero_le target, rfl⟩⟩
    rw [List.append_nil]
  | @advance last depth walk enough ih =>
    obtain ⟨steps, entries, h, stage⟩ := ih
    have hlast := walk.settled settled
    exact ⟨_, _, h.advance hlast some, stage.advance h hlast positive closes enough⟩
  | @record last depth error walk present ih =>
    obtain ⟨steps, entries, h, stage⟩ := ih
    refine ⟨steps, entries ++ [.recorded error], ⟨h.ahead, h.after, ?_, ?_, ?_, h.ended⟩,
      stage.record h present⟩
    · rw [Cursor.record, List.reverse_cons, h.journal, List.append_assoc]
    · rw [List.count_append]
      exact h.calls_le
    · intro running
      rw [List.count_append]
      exact h.calls_eq running
  | @reach last depth levels walk ih =>
    obtain ⟨steps, entries, h, stage⟩ := ih
    exact ⟨steps, entries, ⟨h.ahead, h.after, h.journal, h.calls_le, h.calls_eq, h.ended⟩, stage⟩

end Walking

section Blocks

variable {inner rest : List Token} {opening closing : Token}

theorem Matched.length_lt (matched : Matched inner) (rest : List Token) {count : Nat}
    (h : balance ((inner ++ rest).take count) = -1) : inner.length < count := by
  by_cases short : count ≤ inner.length
  · rw [List.take_append_of_le_length short] at h
    have inside := matched.nonneg count
    omega
  · omega

theorem Matched.balance_closing (matched : Matched inner) (closeKind : closing.kind = .closeCurly)
    (rest : List Token) :
    balance ((inner ++ closing :: rest).take (inner.length + 1)) = -1 := by
  have front : (inner ++ closing :: rest).take (inner.length + 1) = inner ++ [closing] := by
    rw [List.take_length_add_append]
    rfl
  have brace : balance [closing] = -1 := by simp [balance, closeKind, TokenKind.weight]
  rw [front, balance_append, matched.total, brace]
  rfl

/-- A run that begins at the opening brace of a block and ends at a closing brace or with the last
token ends at the matching brace exactly if the braces that were given up until then balance. -/
theorem Walks.ends_iff {cursor last : Cursor} {depth : Int}
    (hahead : cursor.ahead = opening :: (inner ++ closing :: rest))
    (closeKind : closing.kind = .closeCurly) (matched : Matched inner)
    (walk : Walks 0 cursor 0 last depth) (ends : last.ahead ≠ [] → depth = -1) :
    last.ahead = closing :: rest ↔
      errorWeight (errorsWithin (inner.length + 1) (last.entriesSince cursor)) = 0 := by
  obtain ⟨second, others, list⟩ := List.exists_cons_of_ne_nil
    (List.append_ne_nil_of_right_ne_nil inner (List.cons_ne_nil closing rest))
  have settled : cursor.Settled := Cursor.settled_of_ahead (by rw [hahead, list])
  have some : cursor.current.kind ≠ .eof := fun hend => by
    rw [Cursor.ahead_of_end hend] at hahead
    cases hahead
  have after := (Cursor.current_of_ahead hahead).2
  have closes := matched.balance_closing closeKind rest
  rw [← after] at closes
  have positive : inner.length + 1 ≠ 0 := Nat.succ_ne_zero _
  obtain ⟨steps, entries, h, stage⟩ := walk.stage settled some positive closes
  have since : last.entriesSince cursor = entries := by
    rw [Cursor.entriesSince, h.journal, ← List.length_reverse, List.drop_left]
  have place : last.ahead = (opening :: (inner ++ closing :: rest)).drop steps := by
    rw [h.ahead, hahead]
  have length := congrArg List.length place
  simp only [List.length_drop, List.length_cons, List.length_append] at length
  have target : (opening :: (inner ++ closing :: rest)).drop (inner.length + 1) =
      closing :: rest := by
    rw [List.drop_succ_cons, List.drop_left]
  rw [since]
  rcases stage with ⟨near, hdepth⟩ | ⟨far, lost, -⟩
  · have present : last.ahead ≠ [] := fun none => by
      rw [none] at length
      simp only [List.length_nil] at length
      omega
    rw [ends present] at hdepth
    constructor
    · intro there
      rw [there] at length
      obtain rfl : steps = inner.length + 1 := by
        simp only [List.length_cons] at length
        omega
      rw [closes] at hdepth
      omega
    · intro even
      rw [even, Int.sub_zero, after] at hdepth
      have long := matched.length_lt (closing :: rest) hdepth.symm
      obtain rfl : steps = inner.length + 1 := by omega
      rw [place, target]
  · constructor
    · intro there
      rw [there] at length
      simp only [List.length_cons] at length
      omega
    · intro even
      omega

/-- A block whose opening brace is matched either sinks with the fatal error, or it is read and the
parser stands at the matching brace exactly if, until the source was called once more than it takes
to get there, as many opening as closing braces were given up as operands. -/
theorem parseBlock_ends_iff {parser : Parser} (standard : parser.tables = Tables.standard)
    (hahead : parser.cursor.ahead = opening :: (inner ++ closing :: rest))
    (closeKind : closing.kind = .closeCurly) (matched : Matched inner) :
    parser.parseBlock.1 = .error (.nestingTooDeep maxNesting) ∨
      ((∃ body, parser.parseBlock.1 = .ok body) ∧
          parser.parseBlock.2.cursor.ahead = closing :: rest ↔
        (errorsWithin (inner.length + 1)
            (parser.parseBlock.2.cursor.entriesSince parser.cursor)).count
              (.noOperandForm .openCurly) =
          (errorsWithin (inner.length + 1)
            (parser.parseBlock.2.cursor.entriesSince parser.cursor)).count
              (.noOperandForm .closeCurly)) := by
  obtain ⟨tables, cursor, depth⟩ := parser
  obtain rfl : tables = Tables.standard := standard
  obtain ⟨second, others, list⟩ := List.exists_cons_of_ne_nil
    (List.append_ne_nil_of_right_ne_nil inner (List.cons_ne_nil closing rest))
  have settled : cursor.Settled := Cursor.settled_of_ahead (by rw [hahead, list])
  have block : Accounts (standardLevel (maxNesting - depth)).block cursor 0 0
      (fun _ last depth => last.current.kind = .closeCurly ∧ depth = 0 - 1) (Over 0) :=
    (level_accounts _).block 0 settled
  have counts (errors : List ParseError) : errorWeight errors = 0 ↔
      errors.count (.noOperandForm .openCurly) = errors.count (.noOperandForm .closeCurly) := by
    rw [errorWeight_eq_count]
    omega
  rw [← counts]
  cases run : (standardLevel (maxNesting - depth)).block cursor with
  | ok body last =>
    have result : Parser.parseBlock ⟨Tables.standard, cursor, depth⟩ =
        (.ok body, ⟨Tables.standard, last, depth⟩) := by
      simp only [Parser.parseBlock, Parser.run, Parser.levelsLeft, run]
    obtain ⟨final, walk, -, hfinal⟩ := block.ok body last run
    have ends := walk.ends_iff hahead closeKind matched fun _ => hfinal
    rw [result]
    refine .inr ⟨fun there => ends.1 there.2, fun even => ⟨⟨body, rfl⟩, ends.2 even⟩⟩
  | error error last =>
    have result : Parser.parseBlock ⟨Tables.standard, cursor, depth⟩ =
        (.error error, ⟨Tables.standard, last, depth⟩) := by
      simp only [Parser.parseBlock, Parser.run, Parser.levelsLeft, run]
    rw [result]
    by_cases fatal : error = .nestingTooDeep maxNesting
    · exact .inl (by rw [fatal])
    · obtain ⟨-, final, walk, ended, -, -⟩ := block.error error last run fatal
      have ends := walk.ends_iff hahead closeKind matched fun present => absurd ended present
      refine .inr ⟨fun there => ?_, fun even => ?_⟩
      · obtain ⟨⟨body, hbody⟩, -⟩ := there
        cases hbody
      · have there := ends.2 even
        rw [ended] at there
        cases there

def innerBlockGivenUp : Parser :=
  .ofSource ([⟨.openCurly, "\x7b"⟩, ⟨.openCurly, "\x7b"⟩, ⟨.returnKeyword, "return"⟩,
    ⟨.closeCurly, "\x7d"⟩, ⟨.closeCurly, "\x7d"⟩, ⟨.number, "1"⟩].map some)

theorem parseBlock_ends_innerBlockGivenUp :
    (∃ body, innerBlockGivenUp.parseBlock.1 = .ok body) ∧
      innerBlockGivenUp.parseBlock.2.cursor.ahead = [⟨.closeCurly, "\x7d"⟩, ⟨.number, "1"⟩] := by
  have matched : Matched [⟨.openCurly, "\x7b"⟩, ⟨.returnKeyword, "return"⟩,
      ⟨.closeCurly, "\x7d"⟩] := by
    refine ⟨fun count => ?_, rfl⟩
    rcases count with _ | _ | _ | count <;> simp [balance, TokenKind.weight]
  obtain fatal | ends :=
    parseBlock_ends_iff (rfl : innerBlockGivenUp.tables = Tables.standard) rfl rfl matched
  · have read : innerBlockGivenUp.parseBlock.1 = .ok [] := rfl
    rw [read] at fatal
    cases fatal
  · exact ends.2 rfl

def ownBraceGivenUp : Parser :=
  .ofSource ([⟨.openCurly, "\x7b"⟩, ⟨.returnKeyword, "return"⟩, ⟨.closeCurly, "\x7d"⟩,
    ⟨.number, "1"⟩].map some)

/-- The brace of a block is lost to a `return` in front of it. -/
theorem parseBlock_not_ends :
    ¬∀ (parser : Parser) (inner rest : List Token) (opening closing : Token),
      parser.tables = Tables.standard → opening.kind = .openCurly → closing.kind = .closeCurly →
      parser.cursor.ahead = opening :: (inner ++ closing :: rest) → Matched inner →
      parser.parseBlock.1 = .error (.nestingTooDeep maxNesting) ∨
        (∃ body, parser.parseBlock.1 = .ok body) ∧
          parser.parseBlock.2.cursor.ahead = closing :: rest := by
  intro ends
  have matched : Matched [⟨.returnKeyword, "return"⟩] := by
    refine ⟨fun count => ?_, rfl⟩
    rcases count with _ | count <;> simp [balance, TokenKind.weight]
  have unclosed : ownBraceGivenUp.parseBlock.1 =
      .error (.unexpectedToken .closeCurly .eof) := rfl
  rcases ends ownBraceGivenUp [⟨.returnKeyword, "return"⟩] [⟨.number, "1"⟩] ⟨.openCurly, "\x7b"⟩
    ⟨.closeCurly, "\x7d"⟩ rfl rfl rfl rfl matched with fatal | ⟨⟨body, read⟩, -⟩
  · rw [unclosed] at fatal
    cases fatal
  · rw [unclosed] at read
    cases read

end Blocks

end Monkey
