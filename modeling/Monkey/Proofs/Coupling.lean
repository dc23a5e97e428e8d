import Monkey.Proofs.Bounds

set_option autoImplicit false

/-!
# Runs and pairs of runs

`Visits` is the trail of the tokens that a run reads, rejects or names in an error. A coupling
relates two runs that take the same steps, and every action respects every coupling.
-/
namespace Monkey

open Parse

/-- How far a run is with the tokens in view. -/
inductive Place where
  /-- The current token is still to be read. -/
  | current
  /-- The current token has been read, and the next one is still to be read. -/
  | next
  /-- A statement has come to its end or was given up, and the next token is still to be read. -/
  | closed
  deriving DecidableEq

def Cursor.unread (cursor : Cursor) : Place → List Token
  | .current => cursor.ahead
  | .next => cursor.after
  | .closed => cursor.after

/-- The error that names a token because of the token alone. -/
def Token.flaw? (token : Token) : Option ParseError :=
  match token.kind with
  | .illegal => some (.illegalToken token.literal)
  | .number =>
    if (Integer.read? token.literal).isSome then none else some (.unreadableNumber token.literal)
  | _ => none

def Token.rejection (token : Token) : ParseError := token.flaw?.getD (.noOperandForm token.kind)

/-- A token that goes on within a statement. -/
structure Token.Readable (token : Token) : Prop where
  sound : token.flaw? = none
  kind_ne_semicolon : token.kind ≠ .semicolon
  kind_ne_eof : token.kind ≠ .eof

def TokenKind.plain : TokenKind → Bool
  | illegal | number | semicolon | eof => false
  | _ => true

theorem Token.readable_of_plain {token : Token} (h : token.kind.plain = true) : token.Readable := by
  refine ⟨?_, ?_, ?_⟩
  · unfold Token.flaw?
    split
    · rename_i kind
      rw [kind] at h
      cases h
    · rename_i kind
      rw [kind] at h
      cases h
    · rfl
  · intro kind
    rw [kind] at h
    cases h
  · intro kind
    rw [kind] at h
    cases h

theorem Token.rejection_of_eof {token : Token} (h : token.kind = .eof) :
    token.rejection = .noOperandForm .eof := by
  simp [Token.rejection, Token.flaw?, h]

theorem Cursor.errors_subset_record (cursor : Cursor) (error : ParseError) :
    cursor.errors ⊆ (cursor.record error).errors := by
  rw [errors_record]
  exact List.subset_append_left _ _

/-- The steps of a run from one place to another. -/
inductive Visits (origin : Cursor) (start : Place) : Cursor → Place → Prop where
  | refl : Visits origin start origin start
  | read {last : Cursor} (visit : Visits origin start last .current)
      (sound : last.current.flaw? = none) : Visits origin start last .next
  | close {last : Cursor} (visit : Visits origin start last .next) :
      Visits origin start last .closed
  | advance {last : Cursor} {place : Place} (visit : Visits origin start last place)
      (done : place ≠ .current) : Visits origin start last.advance .current
  | reach {last : Cursor} {place : Place} (visit : Visits origin start last place)
      (levels : Nat) : Visits origin start (last.reach levels) place
  | miss {last : Cursor} (visit : Visits origin start last .next) (expected : TokenKind) :
      Visits origin start (last.record (.unexpectedToken expected last.peek.kind)) .closed
  | reject {last : Cursor} (visit : Visits origin start last .current) :
      Visits origin start (last.record last.current.rejection) .closed
  | unclosed {last : Cursor} (visit : Visits origin start last .current)
      (ended : last.current.kind = .eof) :
      Visits origin start (last.record (.unexpectedToken .closeCurly .eof)) .closed
  | abandon {last : Cursor} {place : Place} (visit : Visits origin start last place) :
      Visits origin start (last.abandon.record (.nestingTooDeep maxNesting)) .closed

theorem Visits.trans {origin middle last : Cursor} {start mid stop : Place}
    (first : Visits origin start middle mid) (second : Visits middle mid last stop) :
    Visits origin start last stop := by
  induction second with
  | refl => exact first
  | read _ sound ih => exact ih.read sound
  | close _ ih => exact ih.close
  | advance _ done ih => exact ih.advance done
  | reach _ levels ih => exact ih.reach levels
  | miss _ expected ih => exact ih.miss expected
  | reject _ ih => exact ih.reject
  | unclosed _ ended ih => exact ih.unclosed ended
  | abandon _ ih => exact ih.abandon

theorem Visits.settled {origin last : Cursor} {start place : Place}
    (visit : Visits origin start last place) (settled : origin.Settled) : last.Settled := by
  induction visit with
  | refl => exact settled
  | read _ _ ih => exact ih
  | close _ ih => exact ih
  | advance _ _ ih => exact ih.advance
  | reach _ levels ih => exact ih.reach levels
  | miss _ _ ih => exact ih.record _
  | reject _ ih => exact ih.record _
  | unclosed _ _ ih => exact ih.record _
  | abandon _ _ => exact (Cursor.settled_abandon _).record _

theorem Visits.errors_subset {origin last : Cursor} {start place : Place}
    (visit : Visits origin start last place) : origin.errors ⊆ last.errors := by
  induction visit with
  | refl => exact List.Subset.refl _
  | read _ _ ih => exact ih
  | close _ ih => exact ih
  | advance _ _ ih => rwa [Cursor.errors_advance]
  | reach _ levels ih => exact ih
  | miss _ _ ih => exact List.Subset.trans ih (Cursor.errors_subset_record _ _)
  | reject _ ih => exact List.Subset.trans ih (Cursor.errors_subset_record _ _)
  | unclosed _ _ ih => exact List.Subset.trans ih (Cursor.errors_subset_record _ _)
  | abandon _ ih => exact List.Subset.trans ih (Cursor.errors_subset_record _ _)

def Cursor.Later (cursor last : Cursor) : Prop := ∃ trail, last = cursor.moves trail

namespace Cursor.Later

variable {cursor middle last : Cursor}

theorem refl (cursor : Cursor) : cursor.Later cursor := ⟨[], rfl⟩

theorem trans (first : cursor.Later middle) (second : middle.Later last) : cursor.Later last := by
  obtain ⟨early, rfl⟩ := first
  obtain ⟨late, rfl⟩ := second
  exact ⟨early ++ late, (cursor.moves_append early late).symm⟩

theorem advance (cursor : Cursor) : cursor.Later cursor.advance := ⟨[.advance], rfl⟩

theorem record (cursor : Cursor) (error : ParseError) : cursor.Later (cursor.record error) :=
  ⟨[.record error], rfl⟩

theorem deepest_le (h : cursor.Later last) : cursor.deepest ≤ last.deepest := by
  obtain ⟨trail, rfl⟩ := h
  exact cursor.deepest_le_moves trail

end Cursor.Later

namespace Parse

variable {α β : Type}

def endPlace (stop : Place) : EStateM.Result ParseError Cursor α → Place
  | .ok _ _ => stop
  | .error _ _ => .closed

theorem later_ended (action : Parse α) [h : Moves action] (cursor : Cursor) :
    cursor.Later (ended (action cursor)) := by
  obtain ⟨trail, htrail⟩ := h.trail cursor
  cases run : action cursor with
  | ok value last =>
    rw [run] at htrail
    exact ⟨trail, htrail⟩
  | error error last =>
    rw [run] at htrail
    exact Cursor.Later.trans ⟨trail, htrail⟩ (Cursor.Later.record last error)

theorem later_ended_bind (first : Parse α) (next : α → Parse β) [∀ value, Moves (next value)]
    (cursor : Cursor) : (ended (first cursor)).Later (ended ((first >>= next) cursor)) := by
  cases run : first cursor with
  | ok value middle =>
    rw [bind_of_ok run]
    exact later_ended (next value) middle
  | error error middle =>
    rw [bind_of_error run]
    exact Cursor.Later.refl _

end Parse

/-- Two runs side by side. -/
structure Coupling where
  /-- Both runs are at the same place. -/
  inStep : Place → Cursor → Cursor → Prop
  /-- Between two statements, the first run has come to its end and the second has not. -/
  parted : Cursor → Cursor → Prop
  /-- What is wanted of the two runs holds already, however they go on. -/
  lost : Place → Cursor → Cursor → Prop
  settled {place : Place} {c d : Cursor} : inStep place c d → c.Settled ∧ d.Settled
  head {c d : Cursor} : inStep .current c d → c.ahead.head? = d.ahead.head?
  next {c d : Cursor} : inStep .next c d → c.current = d.current ∧ c.peek.kind = d.peek.kind
  reach {place : Place} {c d : Cursor} (levels : Nat) : inStep place c d →
    inStep place (c.reach levels) (d.reach levels)
  read {c d : Cursor} : inStep .current c d → c.current.Readable → inStep .next c d ∨ lost .next c d
  close {c d : Cursor} : inStep .next c d → inStep .closed c d
  semicolon {c d : Cursor} : inStep .current c d → c.current.kind = .semicolon →
    inStep .closed c d ∨ lost .closed c d
  advance {c d : Cursor} : inStep .next c d → inStep .current c.advance d.advance
  goOn {c d : Cursor} : inStep .closed c d →
    inStep .current c.advance d.advance ∨ parted c.advance d.advance
  miss {c d : Cursor} (expected : TokenKind) : inStep .next c d →
    inStep .closed (c.record (.unexpectedToken expected c.peek.kind))
        (d.record (.unexpectedToken expected c.peek.kind)) ∨
      lost .closed (c.record (.unexpectedToken expected c.peek.kind))
        (d.record (.unexpectedToken expected c.peek.kind))
  reject {c d : Cursor} : inStep .current c d →
    inStep .closed (c.record c.current.rejection) (d.record c.current.rejection) ∨
      lost .closed (c.record c.current.rejection) (d.record c.current.rejection)
  unclosed {c d : Cursor} : inStep .current c d → c.current.kind = .eof →
    inStep .closed (c.record (.unexpectedToken .closeCurly .eof))
        (d.record (.unexpectedToken .closeCurly .eof)) ∨
      lost .closed (c.record (.unexpectedToken .closeCurly .eof))
        (d.record (.unexpectedToken .closeCurly .eof))
  abandon {place : Place} {c d : Cursor} : inStep place c d →
    inStep .closed (c.abandon.record (.nestingTooDeep maxNesting))
        (d.abandon.record (.nestingTooDeep maxNesting)) ∨
      lost .closed (c.abandon.record (.nestingTooDeep maxNesting))
        (d.abandon.record (.nestingTooDeep maxNesting))
  ahead_of_parted {c d : Cursor} : parted c d → c.ahead = []
  lost_of_parted {c d last : Cursor} : parted c d → d.Later last →
    lost .closed (c.record (.unexpectedToken .closeCurly .eof)) last
  keeps {place stop : Place} {c d first last : Cursor} : lost place c d →
    Visits c place first stop → d.Later last → lost stop first last

namespace Coupling

-- What a coupling owes for parted and lost runs, if it has none.
theorem ahead_of_unparted {c _d : Cursor} : False → c.ahead = [] := False.elim

theorem lost_of_unparted {_c d last : Cursor} : False → d.Later last → False := fun h _ => h

theorem keeps_none {place stop : Place} {c d first last : Cursor} :
    False → Visits c place first stop → d.Later last → False := fun h _ _ => h

def along (origin : Cursor) (start : Place) : Coupling where
  inStep place c d := c = d ∧ c.Settled ∧ Visits origin start c place
  parted _ _ := False
  lost _ _ _ := False
  settled := by
    rintro place c d ⟨rfl, settled, -⟩
    exact ⟨settled, settled⟩
  head := by
    rintro c d ⟨rfl, -, -⟩
    rfl
  next := by
    rintro c d ⟨rfl, -, -⟩
    exact ⟨rfl, rfl⟩
  reach := by
    rintro place c d levels ⟨rfl, settled, visit⟩
    exact ⟨rfl, settled.reach levels, visit.reach levels⟩
  read := by
    rintro c d ⟨rfl, settled, visit⟩ readable
    exact .inl ⟨rfl, settled, visit.read readable.sound⟩
  close := by
    rintro c d ⟨rfl, settled, visit⟩
    exact ⟨rfl, settled, visit.close⟩
  semicolon := by
    rintro c d ⟨rfl, settled, visit⟩ kind
    exact .inl ⟨rfl, settled, (visit.read (by simp [Token.flaw?, kind])).close⟩
  advance := by
    rintro c d ⟨rfl, settled, visit⟩
    exact ⟨rfl, settled.advance, visit.advance (by decide)⟩
  goOn := by
    rintro c d ⟨rfl, settled, visit⟩
    exact .inl ⟨rfl, settled.advance, visit.advance (by decide)⟩
  miss := by
    rintro c d expected ⟨rfl, settled, visit⟩
    exact .inl ⟨rfl, settled.record _, visit.miss expected⟩
  reject := by
    rintro c d ⟨rfl, settled, visit⟩
    exact .inl ⟨rfl, settled.record _, visit.reject⟩
  unclosed := by
    rintro c d ⟨rfl, settled, visit⟩ ended
    exact .inl ⟨rfl, settled.record _, visit.unclosed ended⟩
  abandon := by
    rintro place c d ⟨rfl, settled, visit⟩
    exact .inl ⟨rfl, (Cursor.settled_abandon c).record _, visit.abandon⟩
  ahead_of_parted := @ahead_of_unparted
  lost_of_parted := @lost_of_unparted
  keeps := @keeps_none

section Facts

variable (P : Coupling) {c d : Cursor}

theorem kind_of_current (h : P.inStep .current c d) : c.current.kind = d.current.kind := by
  have same := congrArg (fun token? => (token?.map Token.kind).getD .eof) (P.head h)
  have kind (cursor : Cursor) :
      (cursor.ahead.head?.map Token.kind).getD .eof = cursor.current.kind := by
    rw [← Cursor.headKind_ahead]
    cases cursor.ahead <;> rfl
  simpa only [kind] using same

theorem current_of_current (h : P.inStep .current c d) (some : c.current.kind ≠ .eof) :
    c.current = d.current := by
  have same := P.head h
  rw [Cursor.ahead_of_current some,
    Cursor.ahead_of_current (by rw [← P.kind_of_current h]; exact some)] at same
  simpa using same

end Facts

/-- The results of two runs that are coupled. -/
inductive Agree (P : Coupling) (stop : Place) {α : Type} :
    EStateM.Result ParseError Cursor α → EStateM.Result ParseError Cursor α → Prop where
  | ok {value : α} {c d : Cursor} (h : P.inStep stop c d) : Agree P stop (.ok value c) (.ok value d)
  | error {error : ParseError} {c d : Cursor}
      (h : P.inStep .closed (c.record error) (d.record error)) :
      Agree P stop (.error error c) (.error error d)
  | lost {first second : EStateM.Result ParseError Cursor α}
      (h : P.lost (endPlace stop first) (ended first) (ended second)) : Agree P stop first second

theorem Agree.of_or {P : Coupling} {stop : Place} {α : Type} {value : α} {c d : Cursor}
    (h : P.inStep stop c d ∨ P.lost stop c d) : P.Agree stop (.ok value c) (.ok value d) :=
  h.elim (fun h => .ok h) (fun h => .lost h)

theorem Agree.of_or_error {P : Coupling} {stop : Place} {α : Type} {error : ParseError}
    {c d : Cursor} (h : P.inStep .closed (c.record error) (d.record error) ∨
      P.lost .closed (c.record error) (d.record error)) :
    P.Agree stop (.error error c : EStateM.Result ParseError Cursor α) (.error error d) :=
  h.elim (fun h => .error h) (fun h => .lost h)

end Coupling

/-- Started in step at one place, an action gives its value in step at another one. -/
class Couples {α : Type} (action : Parse α) (start : Place) (stop : outParam Place) : Prop where
  agree (P : Coupling) {c d : Cursor} : P.inStep start c d → P.Agree stop (action c) (action d)

section Rules

variable {α β : Type} {start mid stop : Place}

/-- A run that is coupled with itself is a trail of visits. -/
theorem Coupling.Agree.visits {origin : Cursor} {result : EStateM.Result ParseError Cursor α}
    (h : (Coupling.along origin start).Agree stop result result) :
    Visits origin start (ended result) (endPlace stop result) := by
  cases h with
  | ok h => exact h.2.2
  | error h => exact h.2.2
  | lost h => exact h.elim

theorem Couples.visits (action : Parse α) [h : Couples action start stop] {cursor : Cursor}
    (settled : cursor.Settled) :
    Visits cursor start (ended (action cursor)) (endPlace stop (action cursor)) :=
  (h.agree (Coupling.along cursor start) ⟨rfl, settled, .refl⟩).visits

namespace Coupling

variable {P : Coupling} {c d : Cursor}

/-- A sequence agrees if its parts do, and a loss in the first part is not made up for later. -/
theorem Agree.bind {first second : Parse α} {next other : α → Parse β}
    [∀ value, Moves (other value)] (h : P.Agree mid (first c) (second d))
    (visits : ∀ value last, first c = .ok value last →
      Visits last mid (ended (next value last)) (endPlace stop (next value last)))
    (hnext : ∀ value last final, first c = .ok value last → P.inStep mid last final →
      P.Agree stop (next value last) (other value final)) :
    P.Agree stop ((first >>= next) c) ((second >>= other) d) := by
  have later := later_ended_bind second other d
  generalize hc : first c = one at h
  generalize hd : second d = two at h later
  cases h with
  | ok h =>
    rw [bind_of_ok hc, bind_of_ok hd]
    exact hnext _ _ _ hc h
  | error h =>
    rw [bind_of_error hc, bind_of_error hd]
    exact .error h
  | lost h =>
    apply Agree.lost
    cases one with
    | ok value last =>
      rw [bind_of_ok hc]
      exact P.keeps h (visits value last hc) later
    | error error last =>
      rw [bind_of_error hc]
      exact P.keeps h .refl later

theorem agree_read (P : Coupling) {action : Parse α} [h : Couples action .next stop] [Moves action]
    (step : P.inStep .current c d) (readable : c.current.Readable) :
    P.Agree stop (action c) (action d) := by
  rcases P.read step readable with step' | lost
  · exact h.agree P step'
  · exact .lost (P.keeps lost (Couples.visits action (P.settled step).1) (later_ended action d))

theorem agree_stepOver (P : Coupling) {action : Parse α} [Couples action .next stop] [Moves action]
    (step : P.inStep .next c d) (readable : c.peek.Readable) :
    P.Agree stop ((Parse.advance >>= fun _ => action) c)
      ((Parse.advance >>= fun _ => action) d) := by
  rw [bind_of_ok (rfl : Parse.advance c = _), bind_of_ok (rfl : Parse.advance d = _)]
  exact P.agree_read (P.advance step) readable

end Coupling

instance (value : α) (place : Place) : Couples (pure value : Parse α) place place :=
  ⟨fun _ _ _ step => .ok step⟩

instance : Couples current .next .next := by
  refine ⟨fun P c d step => ?_⟩
  rw [show current c = .ok c.current c from rfl, show current d = .ok d.current d from rfl,
    (P.next step).1]
  exact .ok step

instance : Couples advance .next .current := ⟨fun P _ _ step => .ok (P.advance step)⟩

instance (depth : Nat) (place : Place) : Couples (openLevel depth) place place :=
  ⟨fun P _ _ step => .ok (P.reach depth step)⟩

theorem couples_tooDeep (start stop : Place) : Couples (tooDeep : Parse α) start stop :=
  ⟨fun P _ _ step => .of_or_error (P.abandon step)⟩

class TokenKind.Plain (kind : TokenKind) : Prop where
  plain : kind.plain = true

instance : TokenKind.Plain .openParen := ⟨rfl⟩

instance : TokenKind.Plain .closeParen := ⟨rfl⟩

instance : TokenKind.Plain .openCurly := ⟨rfl⟩

instance : TokenKind.Plain .identifier := ⟨rfl⟩

instance : TokenKind.Plain .assignment := ⟨rfl⟩

instance : TokenKind.Plain .comma := ⟨rfl⟩

instance : TokenKind.Plain .elseKeyword := ⟨rfl⟩

instance (kind : TokenKind) [h : kind.Plain] : Couples (expectPeek kind) .next .next := by
  refine ⟨fun P c d step => ?_⟩
  have same := (P.next step).2
  by_cases hkind : c.peek.kind = kind
  · have readable : c.peek.Readable := Token.readable_of_plain (by rw [hkind]; exact h.plain)
    rw [expectPeek, expectPeek, if_pos hkind, if_pos (by rw [← same, hkind])]
    exact .of_or (P.read (P.advance step) readable)
  · rw [expectPeek, expectPeek, if_neg hkind, if_neg (by rw [← same]; exact hkind), ← same]
    exact .of_or_error (P.miss kind step)

instance : Couples skipSemicolon .next .closed := by
  refine ⟨fun P c d step => ?_⟩
  have same := (P.next step).2
  by_cases hkind : c.peek.kind = .semicolon
  · rw [skipSemicolon, skipSemicolon, if_pos hkind, if_pos (by rw [← same, hkind])]
    exact .of_or (P.semicolon (P.advance step) hkind)
  · rw [skipSemicolon, skipSemicolon, if_neg hkind, if_neg (by rw [← same]; exact hkind)]
    exact .ok (P.close step)

instance (first : Parse α) (next : α → Parse β) [hfirst : Couples first start mid] [Moves first]
    [hnext : ∀ value, Couples (next value) mid stop] [∀ value, Moves (next value)] :
    Couples (first >>= next) start stop := by
  refine ⟨fun P c d step => ?_⟩
  refine (hfirst.agree P step).bind (fun value last run => ?_) fun value _ _ _ =>
    (hnext value).agree P
  exact (hnext value).visits _ (settled_of_run first (P.settled step).1 run)

instance (kind : TokenKind) (first second : Parse α) [h : kind.Plain] [Couples first .next stop]
    [Moves first] [Couples second .next stop] :
    Couples (peekKind >>= fun next => if next = kind then advance >>= fun _ => first else second)
      .next stop := by
  refine ⟨fun P c d step => ?_⟩
  rw [bind_of_ok (rfl : peekKind c = _), bind_of_ok (rfl : peekKind d = _), ← (P.next step).2]
  by_cases same : c.peek.kind = kind
  · rw [if_pos same]
    exact P.agree_stepOver step (Token.readable_of_plain (by rw [same]; exact h.plain))
  · rw [if_neg same]
    exact Couples.agree P step

theorem ended_attempt (action : Parse α) (cursor : Cursor) :
    ended (attempt action cursor) = ended (action cursor) ∧
      endPlace .closed (attempt action cursor) = .closed := by
  unfold attempt
  cases action cursor with
  | ok value last => exact ⟨rfl, rfl⟩
  | error error last =>
    cases fatal : error.isFatal
    · simp [ended, endPlace, fatal]
    · simp [ended, endPlace, fatal]

theorem endPlace_closed (result : EStateM.Result ParseError Cursor α) :
    endPlace .closed result = .closed := by
  cases result <;> rfl

instance (action : Parse α) [h : Couples action start .closed] :
    Couples (attempt action) start .closed := by
  refine ⟨fun P c d step => ?_⟩
  have agree := h.agree P step
  have same : ∀ cursor, ended (attempt action cursor) = ended (action cursor) := fun cursor =>
    (ended_attempt action cursor).1
  generalize hc : action c = first at agree
  generalize hd : action d = second at agree
  cases agree with
  | ok h =>
    rw [attempt, attempt, hc, hd]
    exact .ok h
  | @error error _ _ h =>
    rw [attempt, attempt, hc, hd]
    cases fatal : error.isFatal
    · simpa [fatal] using .ok h
    · simpa [fatal] using .error h
  | lost h =>
    apply Coupling.Agree.lost
    rw [endPlace_closed, same, same, hc, hd]
    rwa [endPlace_closed] at h

end Rules

/-- Two runs on tokens that are the same up to a certain one, which both still have to read. -/
structure Abreast (last : Token) (first second : List Token) (place : Place) (c d : Cursor) :
    Prop where
  left : c.Settled
  right : d.Settled
  tokens : ∃ front, c.unread place = front ++ last :: first ∧
    d.unread place = front ++ last :: second
  current : place = .next → c.current = d.current

namespace Abreast

variable {last : Token} {first second : List Token} {place : Place} {c d : Cursor}

theorem same (h : Abreast last first second .current c d) :
    c.ahead = c.current :: c.after ∧ d.ahead = c.current :: d.after := by
  obtain ⟨front, hc, hd⟩ := h.tokens
  cases front with
  | nil =>
    obtain ⟨rfl, hafter⟩ := Cursor.current_of_ahead hc
    obtain ⟨-, hbehind⟩ := Cursor.current_of_ahead hd
    exact ⟨by rw [hafter]; exact hc, by rw [hbehind]; exact hd⟩
  | cons token front =>
    obtain ⟨rfl, hafter⟩ := Cursor.current_of_ahead hc
    obtain ⟨-, hbehind⟩ := Cursor.current_of_ahead hd
    exact ⟨by rw [hafter]; exact hc, by rw [hbehind]; exact hd⟩

theorem current_eq (h : Abreast last first second .current c d) : c.current = d.current :=
  (Cursor.current_of_ahead h.same.2).1.symm

theorem peek_kind (h : Abreast last first second .next c d) : c.peek.kind = d.peek.kind := by
  obtain ⟨front, hc, hd⟩ := h.tokens
  rw [← Cursor.headKind_after, ← Cursor.headKind_after, show c.after = _ from hc,
    show d.after = _ from hd]
  cases front <;> rfl

theorem past (h : Abreast last first second .current c d) {stop : Place} (done : stop ≠ .current) :
    Abreast last first second stop c d ∨
      c.current = last ∧ c.after = first ∧ d.after = second := by
  obtain ⟨front, hc, hd⟩ := h.tokens
  cases front with
  | nil =>
    obtain ⟨hcurrent, hafter⟩ := Cursor.current_of_ahead hc
    exact .inr ⟨hcurrent, hafter, (Cursor.current_of_ahead hd).2⟩
  | cons token front =>
    have hafter := (Cursor.current_of_ahead hc).2
    have hbehind := (Cursor.current_of_ahead hd).2
    refine .inl ⟨h.left, h.right, ⟨front, ?_⟩, fun _ => h.current_eq⟩
    cases stop with
    | current => exact absurd rfl done
    | next => exact ⟨hafter, hbehind⟩
    | closed => exact ⟨hafter, hbehind⟩

theorem advance (h : Abreast last first second place c d) (done : place ≠ .current) :
    Abreast last first second .current c.advance d.advance := by
  obtain ⟨front, hc, hd⟩ := h.tokens
  refine ⟨h.left.advance, h.right.advance, ⟨front, ?_⟩, nofun⟩
  rw [Cursor.unread, Cursor.unread, Cursor.ahead_advance, Cursor.ahead_advance]
  cases place with
  | current => exact absurd rfl done
  | next => exact ⟨hc, hd⟩
  | closed => exact ⟨hc, hd⟩

theorem closed (h : Abreast last first second .next c d) : Abreast last first second .closed c d :=
  ⟨h.left, h.right, h.tokens, nofun⟩

theorem record (h : Abreast last first second .closed c d) (error : ParseError) :
    Abreast last first second .closed (c.record error) (d.record error) :=
  ⟨h.left.record error, h.right.record error, h.tokens, nofun⟩

theorem reach (h : Abreast last first second place c d) (levels : Nat) :
    Abreast last first second place (c.reach levels) (d.reach levels) := by
  refine ⟨h.left.reach levels, h.right.reach levels, ?_, h.current⟩
  cases place <;> exact h.tokens

end Abreast

end Monkey
