import Monkey.Proofs.FirstError
import Monkey.Proofs.Lockstep

set_option autoImplicit false

/-!
# What is read before the first error can be completed

Whatever was read quietly derives, and what the parser was reading when it stopped can be completed
by the tokens that it was about to look for.
-/
namespace Monkey

open Parse

/-- Tokens that are the front of a list of a language. -/
def Viable (language : List Token → Prop) (front : List Token) : Prop :=
  ∃ more, language (front ++ more)

/-- A front of a part is a front of the whole, if the whole is there once the part is. -/
theorem Viable.within {part whole : List Token → Prop} {inner outer : List Token}
    (h : Viable part inner) (back : List Token)
    (build : ∀ more, part (inner ++ more) → whole (outer ++ (more ++ back))) :
    Viable whole outer := by
  obtain ⟨more, hpart⟩ := h
  exact ⟨more ++ back, build more hpart⟩

def IsExpression (layer : Layer) (tokens : List Token) : Prop :=
  ∃ value spine n, Derives (.expression layer value spine) tokens n

def IsBlock (tokens : List Token) : Prop := ∃ body n, Derives (.block body) tokens n

def IsAlternative (tokens : List Token) : Prop := ∃ body n, Derives (.alternative body) tokens n

def IsParameters (tokens : List Token) : Prop := ∃ names n, Derives (.parameters names) tokens n

def IsStatement (tokens : List Token) : Prop :=
  ∃ stmt closed n, Derives (.statement stmt closed) tokens n

/-- What the grammar derives as a program, at any number of levels. -/
def Sentence (tokens : List Token) : Prop := ∃ program n, Derives (.statements program) tokens n

def TokenKind.sample (kind : TokenKind) : Token := ⟨kind, ""⟩

section Samples

theorem isExpression_name (layer : Layer) : IsExpression layer [TokenKind.sample .identifier] :=
  ⟨_, _, _, (Derives.identifier rfl).loosen (by cases layer <;> decide)⟩

theorem isBlock_empty : IsBlock [TokenKind.sample .openCurly, TokenKind.sample .closeCurly] :=
  ⟨_, _, .block rfl rfl .noStatements⟩

theorem viable_expression_nil (layer : Layer) : Viable (IsExpression layer) [] :=
  ⟨_, isExpression_name layer⟩

theorem viable_block_nil : Viable IsBlock [] := ⟨_, isBlock_empty⟩

theorem isAlternative_nil : IsAlternative [] := ⟨_, _, .noAlternative⟩

theorem IsExpression.loosen {a b : Layer} {tokens : List Token} (h : IsExpression b tokens)
    (hle : a.power.rank ≤ b.power.rank) : IsExpression a tokens := by
  obtain ⟨value, spine, n, hvalue⟩ := h
  exact ⟨value, spine, n, hvalue.loosen hle⟩

end Samples

namespace Parse

/-- If an action records the first error of a run, what it has read before the token that the error
is about is the front of something. -/
def Trips {α : Type} (total : Nat) (action : Parse α) (start : Place) (cursor : Cursor)
    (front : List Token → Prop) : Prop :=
  ∀ error, (ended (action cursor)).errors.head? = some error → error.isFatal = false →
    ∃ tokens back, cursor.unread start = tokens ++ back ∧ front tokens ∧
      Stopped total error back (ended (action cursor))

section

variable {α β : Type} {total : Nat} {first : Parse α} {next : α → Parse β} {start mid : Place}
  {cursor middle : Cursor} {front weaker : List Token → Prop}

theorem Trips.imp_of_split (h : Trips total first start cursor front)
    (himp : ∀ tokens back, cursor.unread start = tokens ++ back → front tokens → weaker tokens) :
    Trips total first start cursor weaker := by
  intro error head notFatal
  obtain ⟨tokens, back, split, hfront, stopped⟩ := h error head notFatal
  exact ⟨tokens, back, split, himp tokens back split hfront, stopped⟩

theorem Trips.imp (h : Trips total first start cursor front)
    (himp : ∀ tokens, front tokens → weaker tokens) : Trips total first start cursor weaker :=
  h.imp_of_split fun tokens _ _ => himp tokens

theorem Trips.congr {other : Parse α} (h : Trips total other start cursor front)
    (same : first cursor = other cursor) : Trips total first start cursor front := by
  rw [Trips, same]
  exact h

theorem trips_of_quiet (quiet : (ended (first cursor)).errors = []) :
    Trips total first start cursor front := by
  intro error head
  rw [quiet] at head
  cases head

theorem trips_pure {value : α} (fresh : Fresh total cursor) :
    Trips total (pure value) start cursor front :=
  trips_of_quiet fresh.errors

theorem trips_tooDeep (fresh : Fresh total cursor) :
    Trips total (tooDeep : Parse α) start cursor front := by
  intro error head notFatal
  have only : (ended (tooDeep cursor : EStateM.Result ParseError Cursor α)).errors =
      [.nestingTooDeep maxNesting] := by
    change (cursor.abandon.record _).errors = _
    rw [Cursor.errors_record, Cursor.errors_abandon, fresh.errors]
    rfl
  rw [only] at head
  cases head
  cases notFatal

theorem trips_of_stopped {error : ParseError} {tokens back : List Token}
    (stopped : Stopped total error back (ended (first cursor)))
    (split : cursor.unread start = tokens ++ back) (hfront : front tokens) :
    Trips total first start cursor front := by
  intro other head _
  rw [stopped.head] at head
  cases head
  exact ⟨tokens, back, split, hfront, stopped⟩

theorem Trips.bind_of_visits [∀ value, Moves (next value)] {post : α → Cursor → Prop}
    (h : Trips total first start cursor front) (fresh : Fresh total cursor)
    (visits : Visits cursor start (ended (first cursor)) (endPlace mid (first cursor)))
    (ensures : Ensures first cursor post)
    (hnext : ∀ value last, Fresh total last → post value last →
      ∃ tokens, cursor.unread start = tokens ++ last.unread mid ∧
        Trips total (next value) mid last fun later => front (tokens ++ later)) :
    Trips total (first >>= next) start cursor front := by
  intro error head notFatal
  have later := later_ended_bind first next cursor
  cases recorded : (ended (first cursor)).errors with
  | cons other others =>
    -- The first error of the first action stays the first one.
    have early : (ended (first cursor)).errors.head? = some other := by rw [recorded]; rfl
    obtain rfl : other = error := by simpa [later.head_errors early] using head
    obtain ⟨tokens, back, split, hfront, stopped⟩ := h other early notFatal
    exact ⟨tokens, back, split, hfront, stopped.later later⟩
  | nil =>
    cases run : first cursor with
    | error other last =>
      rw [run] at recorded
      change (last.record other).errors = [] at recorded
      simp [Cursor.errors_record] at recorded
    | ok value last =>
      rw [run] at recorded visits
      rw [bind_of_ok run] at head ⊢
      obtain ⟨tokens, split, trips⟩ := hnext value last (visits.fresh fresh recorded)
        (ensures value last run (recorded.trans fresh.errors.symm))
      obtain ⟨others, back, rest, hfront, stopped⟩ := trips error head notFatal
      exact ⟨tokens ++ others, back, by rw [split, rest, List.append_assoc], hfront, stopped⟩

theorem Trips.bind [Couples first start mid] [∀ value, Moves (next value)]
    {post : α → Cursor → Prop} (h : Trips total first start cursor front)
    (fresh : Fresh total cursor) (ensures : Ensures first cursor post)
    (hnext : ∀ value last, Fresh total last → post value last →
      ∃ tokens, cursor.unread start = tokens ++ last.unread mid ∧
        Trips total (next value) mid last fun later => front (tokens ++ later)) :
    Trips total (first >>= next) start cursor front :=
  h.bind_of_visits fresh (Couples.visits first fresh.settled) ensures hnext

theorem Trips.map (h : Trips total first start cursor front) (f : α → β) :
    Trips total (first >>= fun value => pure (f value)) start cursor front := by
  have same : ended ((first >>= fun value => pure (f value)) cursor) = ended (first cursor) := by
    cases run : first cursor with
    | ok value last =>
      rw [bind_of_ok run]
      rfl
    | error error last =>
      rw [bind_of_error run]
      rfl
  rw [Trips, same]
  exact h

theorem Trips.of_ok {value : α} (run : first cursor = .ok value middle)
    (split : cursor.unread start = middle.unread mid)
    (h : Trips total (next value) mid middle front) :
    Trips total (first >>= next) start cursor front := by
  rw [Trips, bind_of_ok run, split]
  exact h

end

section

variable {β : Type} {total : Nat} {cursor : Cursor} {front : List Token → Prop}

theorem trips_current {next : Token → Parse β}
    (h : Trips total (next cursor.current) .next cursor front) :
    Trips total (current >>= next) .next cursor front :=
  Trips.of_ok rfl rfl h

theorem trips_peekKind {next : TokenKind → Parse β}
    (h : Trips total (next (headKind cursor.after)) .next cursor front) :
    Trips total (peekKind >>= next) .next cursor front := by
  rw [Cursor.headKind_after] at h
  exact Trips.of_ok rfl rfl h

theorem trips_advance {next : Unit → Parse β}
    (h : Trips total (next ()) .current cursor.advance front) :
    Trips total (advance >>= next) .next cursor front := by
  have split : cursor.unread .next = cursor.advance.unread .current :=
    (Cursor.ahead_advance cursor).symm
  exact Trips.of_ok rfl split h

theorem trips_openLevel {next : Unit → Parse β} {depth : Nat} {start : Place}
    (h : Trips total (next ()) start (cursor.reach depth) front) :
    Trips total (openLevel depth >>= next) start cursor front :=
  Trips.of_ok rfl (by cases start <;> rfl) h

theorem Trips.read {action : Parse β} (ahead : cursor.ahead = cursor.current :: cursor.after)
    (h : Trips total action .next cursor fun later => front (cursor.current :: later)) :
    Trips total action .current cursor front := by
  intro error head notFatal
  obtain ⟨tokens, back, split, hfront, stopped⟩ := h error head notFatal
  exact ⟨cursor.current :: tokens, back, ahead.trans (congrArg (cursor.current :: ·) split), hfront,
    stopped⟩

theorem Trips.bind_read {α : Type} {first : Parse α} {next : α → Parse β} {mid : Place}
    [Couples first .next mid] [∀ value, Moves (next value)] {post : α → Cursor → Prop}
    (h : Trips total first .next cursor fun later => front (cursor.current :: later))
    (fresh : Fresh total cursor) (readable : cursor.current.Readable)
    (ensures : Ensures first cursor post)
    (hnext : ∀ value last, Fresh total last → post value last →
      ∃ tokens, cursor.ahead = tokens ++ last.unread mid ∧
        Trips total (next value) mid last fun later => front (tokens ++ later)) :
    Trips total (first >>= next) .current cursor front := by
  have reads : Visits cursor .current cursor .next := .read .refl readable.sound
  exact (h.read (Cursor.ahead_of_current readable.kind_ne_eof)).bind_of_visits fresh
    (reads.trans (Couples.visits first fresh.settled)) ensures hnext

theorem trips_expectPeek {next : Unit → Parse β} {kind : TokenKind} (fresh : Fresh total cursor)
    (hkind : kind ≠ .eof) (stuck : front [])
    (h : ∀ token, token.kind = kind → cursor.after = token :: cursor.advance.after →
      cursor.advance.current = token →
      Trips total (next ()) .next cursor.advance fun later => front (token :: later)) :
    Trips total (expectPeek kind >>= next) .next cursor front := by
  by_cases hpeek : cursor.peek.kind = kind
  · have moved : expectPeek kind cursor = .ok () cursor.advance := by simp [expectPeek, hpeek]
    have behind : cursor.after = cursor.peek :: cursor.advance.after := by
      rw [Cursor.after_advance fresh.settled, Cursor.after, if_neg (by rw [hpeek]; exact hkind)]
      rfl
    intro error head notFatal
    rw [bind_of_ok moved] at head ⊢
    obtain ⟨tokens, back, split, hfront, stopped⟩ :=
      h cursor.peek hpeek behind rfl error head notFatal
    exact ⟨cursor.peek :: tokens, back, behind.trans (congrArg (cursor.peek :: ·) split), hfront,
      stopped⟩
  · have missed : expectPeek kind cursor =
        .error (.unexpectedToken kind cursor.peek.kind) cursor := by
      simp [expectPeek, hpeek]
    have stopped : Stopped total (.unexpectedToken kind cursor.peek.kind) cursor.after
        (ended ((expectPeek kind >>= next) cursor)) := by
      rw [bind_of_error missed]
      exact fresh.stopped_miss kind
    exact trips_of_stopped stopped (List.nil_append _).symm stuck

end

end Parse

/-- What is offered while a number of levels is left stops only behind the front of a phrase. -/
structure Level.Completable (offered : Level) (total left : Nat) : Prop where
  expression {power : BindingPower} {cursor : Cursor} : power ≠ .call → Fresh total cursor →
    Trips total (offered.expression power) .current cursor (Viable (IsExpression power.layer))
  operators {power : BindingPower} {cursor : Cursor} {layer : Layer} {value : Expr}
    {spine n : Nat} {front : List Token} : power ≠ .call → Fresh total cursor →
    Derives (.expression layer value spine) front n → n ≤ left + 1 + spine → Fits power layer →
    ¬ layer.power < Tables.standardPower (headKind cursor.after) →
    Trips total (offered.operators power value) .next cursor fun later =>
      Viable (IsExpression power.layer) (front ++ later)
  block {cursor : Cursor} : cursor.current.kind = .openCurly → Fresh total cursor →
    Trips total offered.block .next cursor fun later => Viable IsBlock (cursor.current :: later)

section Lists

variable {α : Type} {item : Parse α} [Moves item] [Couples item .next .next] {total : Nat}
  {cursor : Cursor} {reads : List Token → α → Prop}

def Closed (reads : List Token → α → Prop) (tokens : List Token) : Prop :=
  ∃ values inner closing, closing.kind = TokenKind.closeParen ∧ tokens = inner ++ [closing] ∧
    Listed reads values inner

theorem trips_afterCommas
    (hitem : ∀ cursor : Cursor, cursor.Settled → Ensures item cursor fun value last =>
      ∃ tokens, cursor.after = tokens ++ last.after ∧ reads tokens value)
    (trips : ∀ cursor, Fresh total cursor →
      Trips total item .next cursor (Viable fun tokens => ∃ value, reads tokens value))
    (fresh : Fresh total cursor) (bound : Nat) :
    Trips total (afterCommas item bound) .next cursor
      (Viable fun tokens => ∃ values, FollowOn reads values tokens) := by
  induction bound generalizing cursor with
  | zero => exact trips_pure fresh
  | succ bound ih =>
    apply trips_peekKind
    split
    · rename_i hcomma
      have kind : cursor.advance.current.kind = .comma := by
        rw [Cursor.current_advance, ← Cursor.headKind_after, hcomma]
      have fresh := fresh.advance
      refine trips_advance (Trips.read (Cursor.ahead_of_kind kind (by decide)) ?_)
      refine Trips.bind ((trips _ fresh).imp fun tokens viable => ?_) fresh
        (hitem _ fresh.settled) ?_
      · refine viable.within [] ?_
        rintro more ⟨value, hvalue⟩
        exact ⟨[value], _, tokens ++ more, [], kind, by simp, hvalue, rfl⟩
      rintro value last fresh ⟨tokens, hafter, hvalue⟩
      refine ⟨tokens, hafter, ((ih fresh).imp fun later viable => ?_).map _⟩
      refine viable.within [] ?_
      rintro more ⟨values, hvalues⟩
      exact ⟨value :: values, _, tokens, later ++ more, kind, by simp, hvalue, hvalues⟩
    · exact trips_pure fresh

theorem trips_bracketed
    (hitem : ∀ cursor : Cursor, cursor.Settled → Ensures item cursor fun value last =>
      ∃ tokens, cursor.after = tokens ++ last.after ∧ reads tokens value)
    (trips : ∀ cursor, Fresh total cursor →
      Trips total item .next cursor (Viable fun tokens => ∃ value, reads tokens value))
    (fresh : Fresh total cursor) :
    Trips total (bracketed item) .next cursor (Viable (Closed reads)) := by
  let closes := TokenKind.sample .closeParen
  apply trips_peekKind
  split
  · exact trips_advance (trips_pure fresh.advance)
  refine Trips.bind ((trips _ fresh).imp fun tokens viable => ?_) fresh (hitem _ fresh.settled) ?_
  · refine viable.within [closes] ?_
    rintro more ⟨value, hvalue⟩
    exact ⟨[value], tokens ++ more, closes, rfl, by simp, tokens ++ more, [], by simp, hvalue, rfl⟩
  rintro value middle fresh ⟨first, hfirst, hvalue⟩
  refine ⟨first, hfirst, Trips.of_ok (rfl : remaining middle = _) rfl ?_⟩
  refine Trips.bind ((trips_afterCommas hitem trips fresh _).imp fun tokens viable => ?_) fresh
    (ensures_afterCommas hitem fresh.settled _) ?_
  · refine viable.within [closes] ?_
    rintro more ⟨values, hvalues⟩
    exact ⟨value :: values, first ++ (tokens ++ more), closes, rfl, by simp, first, _, rfl, hvalue,
      hvalues⟩
  rintro values last fresh ⟨others, hothers, hvalues⟩
  refine ⟨others, hothers, ?_⟩
  refine trips_expectPeek fresh (by decide) ⟨[closes], ?_⟩ fun _ _ _ _ => trips_pure fresh.advance
  exact ⟨value :: values, first ++ others, closes, rfl, by simp, first, _, rfl, hvalue, hvalues⟩

end Lists

section Operands

variable {offered : Level} {total left : Nat} {cursor : Cursor}

theorem IsExpression.unary {operator : Token} {tokens : List Token}
    (kind : operator.kind = .not ∨ operator.kind = .dash) (h : IsExpression .unary tokens) :
    IsExpression .unary (operator :: tokens) := by
  obtain ⟨value, spine, n, hvalue⟩ := h
  exact ⟨_, _, _, .unary kind hvalue⟩

theorem IsExpression.grouping {opening closing : Token} {tokens : List Token}
    (openKind : opening.kind = .openParen) (closeKind : closing.kind = .closeParen)
    (h : IsExpression .equality tokens) :
    IsExpression .unary (opening :: (tokens ++ [closing])) := by
  obtain ⟨value, spine, n, hvalue⟩ := h
  exact ⟨_, _, _, .looser (.grouping openKind closeKind hvalue)⟩

theorem IsExpression.conditional {keyword opening closing : Token} {tokens body other : List Token}
    (kind : keyword.kind = .ifKeyword) (openKind : opening.kind = .openParen)
    (closeKind : closing.kind = .closeParen) (test : IsExpression .equality tokens)
    (first : IsBlock body) (second : IsAlternative other) :
    IsExpression .unary (keyword :: opening :: (tokens ++ closing :: (body ++ other))) := by
  obtain ⟨value, spine, n, hvalue⟩ := test
  obtain ⟨consequence, m, hfirst⟩ := first
  obtain ⟨alternative, k, hsecond⟩ := second
  exact ⟨_, _, _, .looser (.conditional kind openKind closeKind hvalue hfirst hsecond)⟩

theorem IsExpression.function {keyword opening closing : Token} {tokens body : List Token}
    (kind : keyword.kind = .fnKeyword) (openKind : opening.kind = .openParen)
    (closeKind : closing.kind = .closeParen) (names : IsParameters tokens) (inner : IsBlock body) :
    IsExpression .unary (keyword :: opening :: (tokens ++ closing :: body)) := by
  obtain ⟨parameters, n, hnames⟩ := names
  obtain ⟨block, m, hinner⟩ := inner
  exact ⟨_, _, _, .looser (.function kind openKind closeKind hnames hinner)⟩

theorem Level.Completable.unary (h : offered.Completable total left) (fresh : Fresh total cursor)
    (kind : cursor.current.kind = .not ∨ cursor.current.kind = .dash) :
    Trips total (OperandForm.parseUnary offered) .next cursor fun later =>
      Viable (IsExpression .unary) (cursor.current :: later) := by
  refine trips_current (trips_advance ?_)
  refine ((h.expression (by decide) fresh.advance).imp fun tokens viable => ?_).map _
  exact viable.within [] fun more inner => by simpa using inner.unary kind

variable [offered.Moves] [offered.Couples]

omit [offered.Moves] in
theorem Level.Completable.grouping (h : offered.Completable total left)
    (sound : offered.Sound left) (fresh : Fresh total cursor)
    (kind : cursor.current.kind = .openParen) :
    Trips total (OperandForm.parseGrouping offered) .next cursor fun later =>
      Viable (IsExpression .unary) (cursor.current :: later) := by
  let close := TokenKind.sample .closeParen
  have inside {tokens : List Token} (inner : IsExpression .equality tokens) :
      IsExpression .unary (cursor.current :: (tokens ++ [close])) := inner.grouping kind rfl
  apply trips_advance
  refine Trips.bind ((h.expression (by decide) fresh.advance).imp fun tokens viable => ?_)
    fresh.advance (sound.expression (by decide) fresh.advance.settled) ?_
  · exact viable.within [close] fun more inner => by simpa using inside inner
  · rintro value last fresh ⟨tokens, spine, n, hahead, hvalue, -, -⟩
    refine ⟨tokens, hahead, ?_⟩
    refine trips_expectPeek fresh (by decide) ⟨[close], ?_⟩ fun _ _ _ _ => trips_pure fresh.advance
    simpa using inside ⟨value, spine, n, hvalue⟩

omit [offered.Moves] in
theorem Level.Completable.blockBehind {α : Type} {next : Block → Parse α}
    [∀ body, Parse.Moves (next body)] {front : List Token → Prop}
    (h : offered.Completable total left) (sound : offered.Sound left) (fresh : Fresh total cursor)
    (hfront : ∀ later, Viable IsBlock later → front later)
    (hnext : ∀ body tokens n last, Fresh total last → cursor.after = tokens ++ last.after →
      Derives (.block body) tokens n →
      Trips total (next body) .next last fun later => front (tokens ++ later)) :
    Trips total (expectPeek .openCurly >>= fun _ => offered.block >>= next) .next cursor front := by
  refine trips_expectPeek fresh (by decide) (hfront [] viable_block_nil)
    fun opening hopening hafter hcurrent => ?_
  have kind : cursor.advance.current.kind = .openCurly := by rw [hcurrent, hopening]
  have start : headKind cursor.advance.ahead = .openCurly := by rw [Cursor.headKind_ahead, kind]
  have block := h.block kind fresh.advance
  rw [hcurrent] at block
  refine Trips.bind (block.imp fun tokens viable => hfront _ viable) fresh.advance
    (sound.block fresh.advance.settled start) ?_
  rintro body last fresh ⟨tokens, n, hahead, hbody, -⟩
  rw [Cursor.ahead_advance] at hahead
  have next := hnext body tokens n last fresh hahead hbody
  obtain ⟨first, others, -, rfl⟩ := exists_of_headKind hbody.begins (by decide)
  rw [hafter] at hahead
  obtain ⟨rfl, rest⟩ := List.cons.inj hahead
  exact ⟨others, rest, next⟩

omit [offered.Moves] in
theorem Level.Completable.alternative (h : offered.Completable total left)
    (sound : offered.Sound left) (fresh : Fresh total cursor) :
    Trips total (OperandForm.parseAlternative offered) .next cursor (Viable IsAlternative) := by
  apply trips_peekKind
  split
  · rename_i helse
    have kind : cursor.advance.current.kind = .elseKeyword := by
      rw [Cursor.current_advance, ← Cursor.headKind_after, helse]
    refine trips_advance (Trips.read (Cursor.ahead_of_kind kind (by decide)) ?_)
    refine h.blockBehind sound fresh.advance (fun later viable => ?_)
      fun body tokens n last fresh _ _ => trips_pure fresh
    refine viable.within [] fun more inner => ?_
    obtain ⟨body, n, hbody⟩ := inner
    rw [List.append_nil]
    exact ⟨_, _, .alternative kind hbody⟩
  · exact trips_pure fresh

-- Two blocks and five tokens stand in a row.
set_option synthInstance.maxSize 512 in
theorem Level.Completable.conditional (h : offered.Completable total left)
    (sound : offered.Sound left) (fresh : Fresh total cursor)
    (kind : cursor.current.kind = .ifKeyword) :
    Trips total (OperandForm.parseConditional offered) .next cursor fun later =>
      Viable (IsExpression .unary) (cursor.current :: later) := by
  let opens := TokenKind.sample .openParen
  let closes := TokenKind.sample .closeParen
  let empty := [TokenKind.sample .openCurly, TokenKind.sample .closeCurly]
  refine trips_expectPeek fresh (by decide) ?_ fun opening openKind _ _ => ?_
  · refine ⟨opens :: TokenKind.sample .identifier :: closes :: empty, ?_⟩
    exact .conditional kind rfl rfl (isExpression_name _) isBlock_empty isAlternative_nil
  have fresh := fresh.advance.advance
  apply trips_advance
  refine Trips.bind ((h.expression (by decide) fresh).imp fun tokens viable => ?_) fresh
    (sound.expression (by decide) fresh.settled) ?_
  · refine viable.within (closes :: empty) fun more test => ?_
    simpa using test.conditional kind openKind rfl isBlock_empty isAlternative_nil
  rintro condition middle fresh ⟨tokens, spine, n, hahead, hcondition, -, -⟩
  have test : IsExpression .equality tokens := ⟨condition, spine, n, hcondition⟩
  refine ⟨tokens, hahead, ?_⟩
  refine trips_expectPeek fresh (by decide) ?_ fun closing closeKind _ _ => ?_
  · refine ⟨closes :: empty, ?_⟩
    simpa using test.conditional kind openKind rfl isBlock_empty isAlternative_nil
  refine h.blockBehind sound fresh.advance (fun later viable => ?_)
    fun body first m last fresh hfirst hbody => ?_
  · refine viable.within [] fun more block => ?_
    simpa using test.conditional kind openKind closeKind block isAlternative_nil
  refine ((h.alternative sound fresh).imp fun later viable => ?_).map _
  refine viable.within [] fun more other => ?_
  simpa using test.conditional kind openKind closeKind ⟨body, m, hbody⟩ other

omit [offered.Moves] [offered.Couples] in
theorem trips_parseParameter (fresh : Fresh total cursor) :
    Trips total OperandForm.parseParameter .next cursor (Viable fun tokens => ∃ name,
      ∃ token : Token, token.kind = .identifier ∧ tokens = [token] ∧ name = token.literal) := by
  refine trips_expectPeek fresh (by decide) ?_ fun _ _ _ _ =>
    trips_current (trips_pure fresh.advance)
  exact ⟨[TokenKind.sample .identifier], _, _, rfl, rfl, rfl⟩

theorem Level.Completable.function (h : offered.Completable total left)
    (sound : offered.Sound left) (fresh : Fresh total cursor)
    (kind : cursor.current.kind = .fnKeyword) :
    Trips total (OperandForm.parseFunction offered) .next cursor fun later =>
      Viable (IsExpression .unary) (cursor.current :: later) := by
  let opens := TokenKind.sample .openParen
  let closes := TokenKind.sample .closeParen
  let empty := [TokenKind.sample .openCurly, TokenKind.sample .closeCurly]
  refine trips_expectPeek fresh (by decide) ?_ fun opening openKind _ _ => ?_
  · refine ⟨opens :: closes :: empty, ?_⟩
    exact .function kind rfl rfl ⟨_, _, .noParameters⟩ isBlock_empty
  have fresh := fresh.advance
  refine Trips.bind ((trips_bracketed (fun _ => ensures_parseParameter)
    (fun _ => trips_parseParameter) fresh).imp fun tokens viable => ?_) fresh
    (ensures_bracketed (fun _ => ensures_parseParameter) fresh.settled) ?_
  · refine viable.within empty ?_
    rintro more ⟨names, inner, closing, closeKind, htokens, hnames⟩
    have block := IsExpression.function kind openKind closeKind
      ⟨names, exists_parameters hnames⟩ isBlock_empty
    have same : tokens ++ (more ++ empty) = inner ++ closing :: empty := by
      rw [← List.append_assoc, htokens, List.append_assoc]
      rfl
    rw [List.cons_append, List.cons_append, same]
    exact block
  rintro names last fresh ⟨tokens, closing, closeKind, hafter, hnames⟩
  refine ⟨tokens ++ [closing], by rw [List.append_assoc]; exact hafter, ?_⟩
  refine h.blockBehind sound fresh (fun later viable => ?_)
    fun body inner m last fresh hinner hbody => trips_pure fresh
  refine viable.within [] fun more block => ?_
  simpa using IsExpression.function kind openKind closeKind ⟨names, exists_parameters hnames⟩ block

theorem Level.Completable.operand (h : offered.Completable total left)
    (sound : offered.Sound left) (fresh : Fresh total cursor) :
    Trips total (parseOperand Tables.standard offered) .current cursor
      (Viable (IsExpression .unary)) := by
  have stops {action : Parse Expr}
      (run : action cursor = .error cursor.current.rejection cursor) :
      Trips total action .current cursor (Viable (IsExpression .unary)) := by
    have stopped : Stopped total cursor.current.rejection cursor.ahead (ended (action cursor)) := by
      rw [run]
      exact fresh.stopped_reject
    exact trips_of_stopped stopped (List.nil_append _).symm (viable_expression_nil _)
  cases hform : Tables.standard.operand cursor.current.kind with
  | none => exact stops (parseOperand_of_none offered hform)
  | some form =>
    refine Trips.congr ?_ (parseOperand_of_some offered hform)
    have kind := mem_kinds_of_operand hform
    have some : cursor.current.kind ≠ .eof := by
      rintro ended
      rw [ended] at hform
      cases hform
    have reads := Cursor.ahead_of_current some
    cases form with
    | primary =>
      rcases parsePrimary_cases hform with ⟨-, value, run⟩ | run
      · refine trips_of_quiet ?_
        rw [OperandForm.parse, run cursor rfl]
        exact fresh.errors
      · exact stops (run cursor rfl)
    | unary =>
      simp only [OperandForm.kinds, List.mem_cons, List.not_mem_nil, or_false] at kind
      exact (h.unary fresh kind).read reads
    | grouping => exact (h.grouping sound fresh (List.mem_singleton.1 kind)).read reads
    | conditional => exact (h.conditional sound fresh (List.mem_singleton.1 kind)).read reads
    | function => exact (h.function sound fresh (List.mem_singleton.1 kind)).read reads

end Operands

section Operators

variable {offered : Level} {total left : Nat} {cursor : Cursor} {layer : Layer} {value : Expr}
  {spine n : Nat} {front : List Token} {power : BindingPower}

theorem trips_applyNext {apply : OperatorForm → BindingPower → Parse Expr}
    {viable : List Token → Prop} (fresh : Fresh total cursor)
    (hgo : ∀ form, Tables.standard.operator (headKind cursor.after) = some form →
      power < Tables.standardPower (headKind cursor.after) →
      Trips total (apply form (Tables.standardPower (headKind cursor.after))) .next cursor viable) :
    Trips total (applyNext Tables.standard power value apply) .next cursor viable := by
  apply trips_peekKind
  by_cases hpower : power < Tables.standardPower (headKind cursor.after)
  · rw [if_pos (by exact hpower)]
    cases hform : Tables.standard.operator (headKind cursor.after) with
    | none => exact trips_pure fresh
    | some form => exact hgo form hform hpower
  · rw [if_neg (by exact hpower)]
    exact trips_pure fresh

theorem Derives.isExpression (h : Derives (.expression layer value spine) front n)
    (fits : Fits power layer) : IsExpression power.layer front :=
  ⟨value, spine, n, h.loosen_fits fits⟩

variable [offered.Moves] [offered.Couples]

omit [offered.Moves] [offered.Couples] in
theorem Level.Completable.binary (h : offered.Completable total left) (fresh : Fresh total cursor)
    (hvalue : Derives (.expression layer value spine) front n)
    (hform : Tables.standard.operator cursor.current.kind = some .binary)
    (hpower : power < Tables.standardPower cursor.current.kind)
    (hstop : ¬ layer.power < Tables.standardPower cursor.current.kind) :
    Trips total (OperatorForm.parseBinary offered value (Tables.standardPower cursor.current.kind))
      .next cursor fun later =>
        Viable (IsExpression power.layer) (front ++ cursor.current :: later) := by
  obtain ⟨own, kind, hown, hlayer, hcall⟩ := Layer.exists_of_binary hform
  rw [hown] at hpower hstop
  have first : Derives (.expression own value spine) front n := hvalue.loosen (Nat.not_lt.1 hstop)
  refine trips_current (trips_advance ?_)
  refine ((h.expression hcall fresh.advance).imp fun tokens viable => ?_).map _
  refine viable.within [] ?_
  rw [hlayer]
  rintro more ⟨other, side, m, hother⟩
  simpa using (Derives.binary kind first hother).isExpression (.inl hpower)

omit [offered.Moves] [offered.Couples] in
theorem ensures_argument (sound : offered.Sound left) (settled : cursor.Settled) :
    Ensures (OperatorForm.parseArgument offered) cursor (fun value last => ∃ tokens,
      cursor.after = tokens ++ last.after ∧ ReadsArgument (fun _ => True) tokens value) := by
  refine (ensures_parseArgument sound settled).imp ?_
  rintro value last ⟨tokens, hafter, spine, n, hvalue, -⟩
  exact ⟨tokens, hafter, spine, n, hvalue, trivial⟩

omit [offered.Moves] [offered.Couples] in
theorem trips_parseArgument (h : offered.Completable total left) (fresh : Fresh total cursor) :
    Trips total (OperatorForm.parseArgument offered) .next cursor
      (Viable fun tokens => ∃ value, ReadsArgument (fun _ => True) tokens value) := by
  refine trips_advance ((h.expression (by decide) fresh.advance).imp fun tokens viable => ?_)
  refine viable.within [] ?_
  rintro more ⟨value, spine, n, hvalue⟩
  rw [List.append_nil]
  exact ⟨value, spine, n, hvalue, trivial⟩

theorem Level.Completable.call (h : offered.Completable total left) (sound : offered.Sound left)
    (fresh : Fresh total cursor) (hvalue : Derives (.expression layer value spine) front n)
    (kind : cursor.current.kind = .openParen)
    (hpower : power < Tables.standardPower cursor.current.kind)
    (hstop : ¬ layer.power < Tables.standardPower cursor.current.kind) :
    Trips total (OperatorForm.parseCall offered value) .next cursor fun later =>
      Viable (IsExpression power.layer) (front ++ cursor.current :: later) := by
  rw [kind] at hpower hstop
  have first : Derives (.expression .call value spine) front n := hvalue.loosen (Nat.not_lt.1 hstop)
  refine ((trips_bracketed (fun _ => ensures_argument sound) (fun _ => trips_parseArgument h)
    fresh).imp fun tokens viable => ?_).map _
  refine viable.within [] ?_
  rintro more ⟨values, inner, closing, closeKind, htokens, hvalues⟩
  obtain ⟨m, hvalues, -⟩ := exists_arguments trivial (fun _ _ _ _ => trivial) hvalues
  have whole := (Derives.call kind closeKind first hvalues).isExpression (.inl hpower)
  rw [← htokens] at whole
  simpa using whole

theorem Level.Completable.applied (h : offered.Completable total left)
    (sound : offered.Sound left) (fresh : Fresh total cursor) {form : OperatorForm}
    (hvalue : Derives (.expression layer value spine) front n)
    (hform : Tables.standard.operator cursor.current.kind = some form)
    (hpower : power < Tables.standardPower cursor.current.kind)
    (hstop : ¬ layer.power < Tables.standardPower cursor.current.kind) :
    Trips total (form.parse offered value (Tables.standardPower cursor.current.kind)) .next cursor
      fun later => Viable (IsExpression power.layer) (front ++ cursor.current :: later) := by
  cases form with
  | binary => exact h.binary fresh hvalue hform hpower hstop
  | call => exact h.call sound fresh hvalue (kind_of_call hform) hpower hstop

end Operators

section Statements

variable {offered : Level} {total left : Nat} {cursor : Cursor}

theorem Terminates.open : Terminates false [] := rfl

theorem IsStatement.expression {tokens : List Token} (h : IsExpression .equality tokens) :
    IsStatement tokens := by
  obtain ⟨value, spine, n, hvalue⟩ := h
  have stmt := Derives.expression hvalue Terminates.open
  rw [List.append_nil] at stmt
  exact ⟨_, _, _, stmt⟩

theorem IsStatement.returning {keyword : Token} {tokens : List Token}
    (kind : keyword.kind = .returnKeyword) (h : IsExpression .equality tokens) :
    IsStatement (keyword :: tokens) := by
  obtain ⟨value, spine, n, hvalue⟩ := h
  have stmt := Derives.returning kind hvalue Terminates.open
  rw [List.append_nil] at stmt
  exact ⟨_, _, _, stmt⟩

theorem IsStatement.letBinding {keyword name assign : Token} {tokens : List Token}
    (kind : keyword.kind = .letKeyword) (nameKind : name.kind = .identifier)
    (assignKind : assign.kind = .assignment) (h : IsExpression .equality tokens) :
    IsStatement (keyword :: name :: assign :: tokens) := by
  obtain ⟨value, spine, n, hvalue⟩ := h
  have stmt := Derives.letBinding kind nameKind assignKind hvalue Terminates.open
  rw [List.append_nil] at stmt
  exact ⟨_, _, _, stmt⟩

theorem IsStatement.sentence {tokens : List Token} (h : IsStatement tokens) : Sentence tokens := by
  obtain ⟨stmt, closed, n, hstmt⟩ := h
  have program := Derives.moreStatements hstmt .noStatements fun _ => ⟨by decide, by decide⟩
  rw [List.append_nil] at program
  exact ⟨_, _, program⟩

/-- What can be completed behind a statement can be completed together with it: it does not begin
with anything that goes on from the statement. -/
theorem ReadsStatement.viable {stmt : Stmt} {last : Cursor}
    (h : ReadsStatement left cursor stmt last) : ∃ tokens, cursor.ahead = tokens ++ last.after ∧
      ∀ later back, last.after = later ++ back → Viable Sentence later →
        Viable Sentence (tokens ++ later) := by
  obtain ⟨tokens, closed, n, hahead, hstmt, -, hopen⟩ := h
  refine ⟨tokens, hahead, fun later back hafter viable => ?_⟩
  cases later with
  | nil =>
    refine ⟨[], ?_⟩
    rw [List.append_nil, List.append_nil]
    exact IsStatement.sentence ⟨stmt, closed, n, hstmt⟩
  | cons first later =>
    obtain ⟨more, program, m, hprogram⟩ := viable
    have boundary (hclosed : closed = false) : headKind (first :: later ++ more) ≠ .dash ∧
        headKind (first :: later ++ more) ≠ .openParen := by
      have weak := hopen hclosed
      rw [hafter, List.cons_append, headKind_cons] at weak
      rw [List.cons_append, headKind_cons]
      constructor <;> intro kind <;> rw [kind] at weak <;> exact weak (by decide)
    have whole := Derives.moreStatements hstmt hprogram boundary
    rw [← List.append_assoc] at whole
    exact ⟨more, _, _, whole⟩

variable [offered.Moves] [offered.Couples]

omit [offered.Moves] in
theorem Level.Completable.terminated (h : offered.Completable total left)
    (sound : offered.Sound left) (fresh : Fresh total cursor) (build : Expr → Stmt) :
    Trips total (offered.expression .lowest >>= fun value => skipSemicolon >>= fun _ =>
      pure (build value)) .current cursor (Viable (IsExpression .equality)) := by
  refine Trips.bind (h.expression (by decide) fresh) fresh
    (sound.expression (by decide) fresh.settled) ?_
  rintro value last fresh ⟨tokens, spine, n, hahead, -⟩
  refine ⟨tokens, hahead, trips_of_quiet ?_⟩
  rw [bind_of_ok (rfl : skipSemicolon last = _)]
  change Cursor.errors (if _ then _ else _) = []
  split
  · rw [Cursor.errors_advance, fresh.errors]
  · exact fresh.errors

omit [offered.Moves] in
theorem Level.Completable.statement (h : offered.Completable total left)
    (sound : offered.Sound left) (fresh : Fresh total cursor) :
    Trips total (parseStmt Tables.standard offered) .current cursor (Viable IsStatement) := by
  apply Trips.of_ok (rfl : currentKind cursor = _) rfl
  split
  · rename_i form hform
    have some : cursor.current.kind ≠ .eof := by
      rintro ended
      rw [ended] at hform
      cases hform
    have kind := mem_kinds_of_statement hform
    refine Trips.read (Cursor.ahead_of_current some) ?_
    cases form with
    | letBinding =>
      have kind := List.mem_singleton.1 kind
      let name := TokenKind.sample .identifier
      let assign := TokenKind.sample .assignment
      refine trips_expectPeek fresh (by decide) ?_ fun first nameKind _ _ => ?_
      · exact ⟨[name, assign, name], .letBinding kind rfl rfl (isExpression_name _)⟩
      refine trips_current (trips_expectPeek fresh.advance (by decide) ?_
        fun second assignKind _ _ => ?_)
      · exact ⟨[assign, name], .letBinding kind nameKind rfl (isExpression_name _)⟩
      refine trips_advance ((h.terminated sound fresh.advance.advance.advance _).imp
        fun tokens viable => viable.within [] fun more inner => ?_)
      simpa using IsStatement.letBinding kind nameKind assignKind inner
    | returning =>
      have kind := List.mem_singleton.1 kind
      refine trips_advance ((h.terminated sound fresh.advance _).imp
        fun tokens viable => viable.within [] fun more inner => ?_)
      simpa using IsStatement.returning kind inner
    | block => cases kind
  · refine (h.terminated sound fresh _).imp
      fun tokens viable => viable.within [] fun more inner => ?_
    simpa using IsStatement.expression inner

theorem Level.Completable.statements (h : offered.Completable total left)
    (sound : offered.Sound left) (fresh : Fresh total cursor) (bound : Nat) :
    Trips total (parseStmts Tables.standard offered bound) .current cursor
      (Viable Sentence) := by
  induction bound generalizing cursor with
  | zero => exact trips_pure fresh
  | succ bound ih =>
    apply Trips.of_ok (rfl : currentKind cursor = _) rfl
    split
    · exact trips_pure fresh
    have trips : Trips total (attempt (parseStmt Tables.standard offered)) .current cursor
        (Viable Sentence) := by
      rw [Trips, (ended_attempt _ cursor).1]
      refine (h.statement sound fresh).imp fun tokens viable => ?_
      exact viable.within [] fun more inner => by simpa using inner.sentence
    refine trips.bind fresh (ensures_attempt (sound.statement fresh.settled)) ?_
    rintro stmt? last fresh ⟨stmt, rfl, reads⟩
    obtain ⟨tokens, hahead, viable⟩ := reads.viable
    have split : last.unread .closed = last.advance.unread .current :=
      (Cursor.ahead_advance last).symm
    refine ⟨tokens, hahead, Trips.of_ok (rfl : advance last = _) split (Trips.map ?_ _)⟩
    refine (ih fresh.advance).imp_of_split fun later back hlater => viable later back ?_
    rw [← hlater]
    exact split

theorem IsBlock.of_sentence {opening closing : Token} {tokens : List Token}
    (openKind : opening.kind = .openCurly) (closeKind : closing.kind = .closeCurly)
    (h : Sentence tokens) : IsBlock (opening :: (tokens ++ [closing])) := by
  obtain ⟨program, n, hprogram⟩ := h
  exact ⟨_, _, .block openKind closeKind hprogram⟩

theorem Level.Completable.body (h : offered.Completable total left) (sound : offered.Sound left)
    (fresh : Fresh total cursor) (kind : cursor.current.kind = .openCurly) :
    Trips total (parseBody Tables.standard offered) .next cursor fun later =>
      Viable IsBlock (cursor.current :: later) := by
  let closes := TokenKind.sample .closeCurly
  have block {tokens : List Token} (inner : Sentence tokens) :
      IsBlock (cursor.current :: (tokens ++ [closes])) := IsBlock.of_sentence kind rfl inner
  have fresh := fresh.advance
  have enough := Cursor.ahead_length_le_remaining cursor.advance
  refine trips_advance (Trips.of_ok (rfl : remaining cursor.advance = _) rfl ?_)
  have visits := (agree_parseStmts (P := .along cursor.advance .current) offered
    cursor.advance.remaining ⟨rfl, fresh.settled, .refl⟩).visits
  have ensures : Ensures (parseStmts Tables.standard offered cursor.advance.remaining)
      cursor.advance fun body last => (∃ tokens n, cursor.advance.ahead = tokens ++ last.ahead ∧
        Derives (.statements body) tokens n ∧ n ≤ left) ∧
        (last.current.kind = .closeCurly ∨ last.current.kind = .eof) :=
    fun body last run quiet => ⟨sound.statements fresh.settled _ body last run quiet,
      parseStmts_stops _ offered fresh.settled enough run⟩
  have trips : Trips total (parseStmts Tables.standard offered cursor.advance.remaining) .current
      cursor.advance fun later => Viable IsBlock (cursor.current :: later) :=
    (h.statements sound fresh _).imp fun tokens viable =>
      viable.within [closes] fun more inner => by simpa using block inner
  change Trips total (_ >>= closeBlock) .current _ _
  refine trips.bind_of_visits fresh visits ensures ?_
  rintro body last fresh ⟨⟨tokens, n, hahead, hbody, -⟩, stops⟩
  refine ⟨tokens, hahead, ?_⟩
  rcases stops with stops | finished
  · refine trips_of_quiet ?_
    rw [closeBlock, bind_of_ok (rfl : currentKind last = _), if_pos stops]
    exact fresh.errors
  · have none := Cursor.ahead_of_end finished
    have stopped : Stopped total (.unexpectedToken .closeCurly .eof) []
        (ended (closeBlock body last)) := by
      rw [closeBlock_of_nil body none]
      exact fresh.stopped_unclosed finished
    refine trips_of_stopped stopped (show last.ahead = [] ++ [] from none) ⟨[closes], ?_⟩
    simpa using block ⟨body, n, hbody⟩

end Statements

/-- With any number of levels left, the parser of Monkey stops only behind fronts of phrases. -/
theorem level_completable (total left : Nat) : (standardLevel left).Completable total left := by
  induction left with
  | zero =>
    refine ⟨fun _ fresh => trips_tooDeep fresh, fun _ fresh _ _ _ _ => ?_,
      fun _ fresh => trips_tooDeep fresh⟩
    rw [operators_zero]
    exact trips_applyNext fresh fun _ _ _ => trips_tooDeep fresh
  | succ below ih =>
    have sound := level_sound below
    refine ⟨fun {power cursor} hpower fresh => ?_,
      fun {power cursor layer value spine n front} hpower fresh hvalue hn fits hlayer => ?_,
      fun {cursor} kind fresh => ?_⟩
    · have fresh := fresh.reach (maxNesting - below)
      have looser : power.layer.power.rank ≤ Layer.unary.power.rank := by
        revert hpower
        cases power <;> decide
      refine trips_openLevel (Trips.bind ((ih.operand sound fresh).imp fun tokens viable => ?_)
        fresh (sound.operand fresh.settled) ?_)
      · exact viable.within [] fun more inner => by simpa using inner.loosen looser
      rintro value middle fresh ⟨layer, front, n, hahead, hvalue, hn, hlayer⟩
      obtain ⟨fits, ends⟩ := fits_of_operand hpower hlayer
      exact ⟨front, hahead, ih.operators hpower fresh hvalue hn fits ends⟩
    · rw [operators_succ]
      refine trips_applyNext fresh fun form hform hkind => ?_
      have fresh := (fresh.reach (maxNesting - below)).advance
      have current : headKind cursor.after =
          (cursor.reach (maxNesting - below)).advance.current.kind := Cursor.headKind_after cursor
      rw [current] at hform hkind hlayer ⊢
      have readable := Token.readable_of_plain (plain_of_operator hform)
      have applied := ih.applied sound fresh hvalue hform hkind hlayer
      have ensures := sound.applied fresh.settled hvalue (by omega) hform hlayer
      refine trips_openLevel (trips_advance (applied.bind_read fresh readable ensures ?_))
      rintro whole middle fresh ⟨own, tokens, m, hahead, hwhole, hm, hbound, hstop⟩
      rw [hbound] at hkind
      refine ⟨tokens, hahead, (ih.operators hpower fresh hwhole (by omega) (.inl hkind) hstop).imp
        fun later viable => ?_⟩
      rwa [← List.append_assoc]
    · exact trips_openLevel (ih.body sound (fresh.reach _) kind)

/-- What a program is read from up to its first error is the front of a sentence. -/
theorem viable_parseStmtsToEnd {total left bound : Nat} {cursor : Cursor} {error : ParseError}
    (fresh : Fresh total cursor)
    (head : (parseStmtsToEnd Tables.standard (standardLevel left) bound cursor).2.errors.head? =
      some error) (notFatal : error.isFatal = false) :
    ∃ tokens back, cursor.ahead = tokens ++ back ∧ Viable Sentence tokens ∧
      Stopped total error back
        (parseStmtsToEnd Tables.standard (standardLevel left) bound cursor).2 := by
  induction bound generalizing cursor with
  | zero =>
    change cursor.errors.head? = _ at head
    rw [fresh.errors] at head
    cases head
  | succ bound ih =>
    by_cases stops : cursor.current.kind = .eof
    · rw [parseStmtsToEnd_of_end _ _ _ stops, fresh.errors] at head
      cases head
    have sound := level_sound left
    have statement := (level_completable total left).statement sound fresh
    have visits : Visits cursor .current _ _ :=
      Couples.visits (parseStmt Tables.standard (standardLevel left)) fresh.settled
    have reads := sound.statement fresh.settled
    rw [parseStmtsToEnd_succ stops] at head ⊢
    have later := (Cursor.Later.advance (ended (parseStmt Tables.standard (standardLevel left)
      cursor))).trans (later_parseStmtsToEnd (standardLevel left) bound _)
    cases recorded : (ended (parseStmt Tables.standard (standardLevel left) cursor)).errors with
    | cons other others =>
      -- The statement has recorded the first error.
      have early : (ended (parseStmt Tables.standard (standardLevel left) cursor)).errors.head? =
          some other := by rw [recorded]; rfl
      obtain rfl : other = error := by simpa [later.head_errors early] using head
      obtain ⟨tokens, back, split, ⟨more, inner⟩, stopped⟩ := statement other early notFatal
      exact ⟨tokens, back, split, ⟨more, inner.sentence⟩, stopped.later later⟩
    | nil =>
      cases run : parseStmt Tables.standard (standardLevel left) cursor with
      | error other last =>
        rw [run] at recorded
        change (last.record other).errors = [] at recorded
        simp [Cursor.errors_record] at recorded
      | ok stmt last =>
        rw [run] at recorded visits head
        obtain ⟨tokens, hahead, viable⟩ :=
          (reads stmt last run (recorded.trans fresh.errors.symm)).viable
        obtain ⟨rest, back, split, hrest, stopped⟩ :=
          ih (visits.fresh fresh recorded).advance head
        change last.advance.ahead = _ at split
        rw [Cursor.ahead_advance] at split
        refine ⟨tokens ++ rest, back, ?_, viable rest back split hrest, stopped⟩
        rw [hahead, split, List.append_assoc]

end Monkey
