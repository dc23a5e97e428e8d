import Monkey.Proofs.Viability

set_option autoImplicit false

namespace Monkey

open Parse

section Past

variable {total rest : Nat} {place stop : Place} {cursor last : Cursor}

/-- A run that has come past a token, with a number of tokens behind it, and has not recorded an
error about that token first. -/
inductive Past (total rest : Nat) (place : Place) (cursor : Cursor) : Prop where
  | quiet (fresh : Fresh total cursor) (short : (cursor.unread place).length ≤ rest)
  | fatal {error : ParseError} (head : cursor.errors.head? = some error)
      (h : error.isFatal = true)
  | stopped {error : ParseError} {back : List Token} (h : Stopped total error back cursor)
      (short : back.length ≤ rest)

theorem Fresh.past_abandon (fresh : Fresh total cursor) :
    Past total rest place (cursor.abandon.record (.nestingTooDeep maxNesting)) := by
  have head : (cursor.abandon.record (.nestingTooDeep maxNesting)).errors.head? =
      some (.nestingTooDeep maxNesting) := by
    rw [Cursor.errors_record, Cursor.errors_abandon, fresh.errors]
    rfl
  exact .fatal head rfl

theorem Past.step (h : Past total rest place cursor) (later : cursor.Later last)
    (step : Fresh total cursor → (cursor.unread place).length ≤ rest → Past total rest stop last) :
    Past total rest stop last := by
  cases h with
  | quiet fresh short => exact step fresh short
  | fatal head h => exact .fatal (later.head_errors head) h
  | stopped h short => exact .stopped (h.later later) short

theorem Visits.past {origin : Cursor} {start : Place} (visit : Visits origin start last place)
    (h : Past total rest start origin) : Past total rest place last := by
  induction visit with
  | refl => exact h
  | read visit sound ih =>
    exact ih.step (.refl _) fun fresh short =>
      .quiet fresh (Nat.le_trans (Cursor.after_length_le_ahead fresh.settled) short)
  | close visit ih => exact ih.step (.refl _) fun fresh short => .quiet fresh short
  | @advance last place visit done ih =>
    refine ih.step (.advance _) fun fresh short => .quiet fresh.advance ?_
    rw [Cursor.unread, Cursor.ahead_advance]
    cases place with
    | current => exact absurd rfl done
    | next => exact short
    | closed => exact short
  | @reach last place visit levels ih =>
    refine ih.step ⟨[.reach levels], rfl⟩ fun fresh short => .quiet (fresh.reach levels) ?_
    cases place <;> exact short
  | miss visit expected ih =>
    exact ih.step (.record _ _) fun fresh short => .stopped (fresh.stopped_miss expected) short
  | reject visit ih =>
    exact ih.step (.record _ _) fun fresh short => .stopped fresh.stopped_reject short
  | unclosed visit ended ih =>
    exact ih.step (.record _ _) fun fresh _ =>
      .stopped (fresh.stopped_unclosed ended) (Nat.zero_le _)
  | @abandon last place visit ih =>
    have later : last.Later (last.abandon.record (.nestingTooDeep maxNesting)) :=
      ⟨[.abandon, .record _], rfl⟩
    exact ih.step later fun fresh _ => fresh.past_abandon

end Past

def Cursor.Fails (cursor : Cursor) : Prop :=
  ∃ error, cursor.errors.head? = some error ∧ error.isFatal = false

theorem Cursor.fails_record {cursor : Cursor} {error : ParseError} (quiet : cursor.errors = [])
    (h : error.isFatal = false) : (cursor.record error).Fails := by
  refine ⟨error, ?_, h⟩
  rw [errors_record, quiet]
  rfl

theorem Token.isFatal_rejection (token : Token) : token.rejection.isFatal = false := by
  obtain ⟨kind, literal⟩ := token
  unfold Token.rejection Token.flaw?
  cases kind with
  | number => cases Integer.read? literal <;> rfl
  | _ => rfl

/-- Two runs without an error that are the same up to a token. -/
structure Shared (total : Nat) (token : Token) (first second : List Token) (place : Place)
    (c d : Cursor) : Prop where
  abreast : Abreast token first second place c d
  fresh : Fresh total c
  quiet : d.errors = []

namespace Shared

variable {total : Nat} {token : Token} {first second : List Token} {place : Place} {c d : Cursor}

theorem past (h : Shared total token first second .current c d) {stop : Place}
    (done : stop ≠ .current) :
    Shared total token first second stop c d ∨ Past total first.length stop c := by
  rcases h.abreast.past done with abreast | ⟨-, hafter, -⟩
  · exact .inl ⟨abreast, h.fresh, h.quiet⟩
  · refine .inr (.quiet h.fresh ?_)
    cases stop with
    | current => exact absurd rfl done
    | next => exact Nat.le_of_eq (congrArg List.length hafter)
    | closed => exact Nat.le_of_eq (congrArg List.length hafter)

theorem advance (h : Shared total token first second place c d) (done : place ≠ .current) :
    Shared total token first second .current c.advance d.advance :=
  ⟨h.abreast.advance done, h.fresh.advance, (Cursor.errors_advance d).trans h.quiet⟩

end Shared

def Coupling.shared (total : Nat) (token : Token) (first second : List Token) : Coupling where
  inStep := Shared total token first second
  parted _ _ := False
  lost place c d := d.Fails ∨ Past total first.length place c
  settled h := ⟨h.abreast.left, h.abreast.right⟩
  head h := by
    rw [h.abreast.same.1, h.abreast.same.2]
    rfl
  next h := ⟨h.abreast.current rfl, h.abreast.peek_kind⟩
  reach levels h := ⟨h.abreast.reach levels, h.fresh.reach levels, h.quiet⟩
  read h _ := (h.past (by decide)).imp_right .inr
  close h := ⟨h.abreast.closed, h.fresh, h.quiet⟩
  semicolon h _ := (h.past (by decide)).imp_right .inr
  advance h := h.advance (by decide)
  goOn h := .inl (h.advance (by decide))
  miss _ h := .inr (.inl (Cursor.fails_record h.quiet rfl))
  reject {c d} h := .inr (.inl (Cursor.fails_record h.quiet c.current.isFatal_rejection))
  unclosed h _ := .inr (.inl (Cursor.fails_record h.quiet rfl))
  abandon h := .inr (.inr h.fresh.past_abandon)
  ahead_of_parted := @ahead_of_unparted
  lost_of_parted := False.elim
  keeps := by
    rintro place stop c d first last (⟨error, head, h⟩ | past) visit later
    · exact .inl ⟨error, later.head_errors head, h⟩
    · exact .inr (visit.past past)

/-- A sentence is parsed without an error, or gives up at the nesting limit. -/
theorem not_fails_of_derives (left : Nat) {program : Program} {tokens : List Token} {n : Nat}
    (h : Derives (.statements program) tokens n) {cursor : Cursor} {bound : Nat}
    (settled : cursor.Settled) (quiet : cursor.errors = []) (hahead : cursor.ahead = tokens)
    (hbound : tokens.length ≤ bound) :
    ¬ (parseStmtsToEnd Tables.standard (standardLevel left) bound cursor).2.Fails := by
  induction program generalizing tokens n cursor bound with
  | nil =>
    obtain rfl : tokens = [] := h.begins
    rw [parseStmtsToEnd_of_nil _ _ _ hahead]
    rintro ⟨error, head, -⟩
    rw [quiet] at head
    cases head
  | cons stmt stmts ih =>
    cases h with
    | @moreStatements _ _ closed n m front others first rest boundary =>
      have separates : closed = false → Separates others := fun hopen => by
        have apart := rest.separates (boundary hopen) separates_nil
        rwa [List.append_nil] at apart
      have long := length_pos_of_headKind (ne_eof_of_startsStatement first.begins)
      rw [List.length_append] at hbound
      obtain ⟨bound, rfl⟩ : ∃ fewer, bound = fewer + 1 := ⟨bound - 1, by omega⟩
      by_cases hn : n ≤ left
      · obtain ⟨next, hsettled, herrors, hnext, run⟩ :=
          parseStmtsToEnd_of_le first hn settled hahead separates bound
        rw [run]
        exact ih rest hsettled (herrors.trans quiet) hnext (by omega)
      · obtain ⟨last, herrors, run⟩ :=
          parseStmtsToEnd_of_not_le first hn settled hahead separates bound
        rw [run]
        rintro ⟨error, head, notFatal⟩
        rw [herrors, quiet] at head
        cases head
        cases notFatal

theorem Stopped.not_past {total : Nat} {error : ParseError} {token : Token} {rest : List Token}
    {place : Place} {cursor : Cursor} (h : Stopped total error (token :: rest) cursor)
    (notFatal : error.isFatal = false) : ¬ Past total rest.length place cursor := by
  intro past
  have head := h.head
  cases past with
  | quiet fresh short =>
    rw [fresh.errors] at head
    cases head
  | fatal other fatal =>
    rw [head] at other
    cases other
    rw [notFatal] at fatal
    cases fatal
  | stopped other short =>
    have same := other.head
    rw [head] at same
    cases same
    have here := h.index_add
    have there := other.index_add
    rw [List.length_cons] at here
    omega

/-- No sentence begins with the tokens up to the one that the first error is about. -/
theorem not_viable_of_stopped {front rest : List Token} {token : Token} {error : ParseError}
    {bound : Nat} (noEnd : ∀ other ∈ front ++ token :: rest, other.kind ≠ .eof)
    (enough : (front ++ token :: rest).length ≤ bound) (notFatal : error.isFatal = false)
    (stopped : Stopped (front ++ token :: rest).length error (token :: rest)
      (parseStmtsToEnd Tables.standard (standardLevel maxNesting) bound
        (Cursor.ofSource ((front ++ token :: rest).map some))).2) :
    ¬ Viable Sentence (front ++ [token]) := by
  rintro ⟨more, program, n, derives⟩
  rw [List.append_assoc, List.singleton_append] at derives
  have hc := Cursor.ahead_ofSource ((front ++ token :: rest).map some)
  have hd := Cursor.ahead_ofSource ((front ++ token :: more).map some)
  rw [untilEnd_map_some _ noEnd] at hc
  rw [untilEnd_map_some _ derives.kind_ne_eof] at hd
  have fresh := Fresh.ofSource _ noEnd
  have settled := Cursor.settled_ofSource ((front ++ token :: more).map some)
  have quiet := Cursor.errors_ofSource ((front ++ token :: more).map some)
  have start : (Coupling.shared _ token rest more).inStep .current _ _ :=
    ⟨⟨fresh.settled, settled, ⟨front, hc, hd⟩, nofun⟩, fresh, quiet⟩
  obtain ⟨large, hlarge, both⟩ : ∃ large, bound ≤ large ∧ (front ++ token :: more).length ≤ large :=
    ⟨_, Nat.le_max_left _ _, Nat.le_max_right _ _⟩
  rw [← hc] at enough
  rw [← parseStmtsToEnd_of_length_le fresh.settled enough hlarge] at stopped
  have ends := ahead_parseStmtsToEnd Tables.standard (standardLevel maxNesting) fresh.settled
    (Nat.le_trans enough hlarge)
  have accord := accord_parseStmtsToEnd (standardLevel maxNesting) large start (by
    rw [hd]
    omega)
  have passes := not_fails_of_derives maxNesting derives settled quiet hd both
  generalize parseStmtsToEnd _ _ large
    (Cursor.ofSource ((front ++ token :: rest).map some)) = one at *
  generalize parseStmtsToEnd _ _ large
    (Cursor.ofSource ((front ++ token :: more).map some)) = two at *
  cases accord with
  | same h =>
    rw [h.abreast.same.1] at ends
    cases ends
  | lost h => exact h.elim passes (stopped.not_past notFatal)
  | parted h => exact h.elim

/-- The index of the token that the first error of a parse is about. -/
def errorIndex (source : List (Option Token)) (error : ParseError) : Nat :=
  error.index (Parser.ofSource source).parseProgram.2.cursor.callsToError

/-- The first error of a parse, unless it is that of the nesting limit, is about the first token
with which no sentence begins: the tokens before it begin one and together with it they do not. If
it is about the end of the source, the whole begins a sentence and is none. -/
theorem firstError_earliest {tokens : List Token} (noEnd : ∀ token ∈ tokens, token.kind ≠ .eof)
    {error : ParseError} {others : List ParseError}
    (reported : (parse (tokens.map some)).2 = error :: others)
    (notDeep : ∀ limit, error ≠ .nestingTooDeep limit) :
    let k := errorIndex (tokens.map some) error
    k ≤ tokens.length ∧ error.About tokens[k]? ∧ Viable Sentence (tokens.take k) ∧
      (k < tokens.length → ¬ Viable Sentence (tokens.take (k + 1))) ∧ ¬ Sentence tokens := by
  intro k
  have notFatal : error.isFatal = false := by
    cases error with
    | nestingTooDeep limit => exact absurd rfl (notDeep limit)
    | _ => rfl
  have hahead := Cursor.ahead_ofSource (tokens.map some)
  rw [untilEnd_map_some tokens noEnd] at hahead
  have fresh := Fresh.ofSource tokens noEnd
  have enough := Cursor.ahead_length_le_remaining (Cursor.ofSource (tokens.map some))
  have head : (parseStmtsToEnd Tables.standard (standardLevel maxNesting)
      (Cursor.ofSource (tokens.map some)).remaining
      (Cursor.ofSource (tokens.map some))).2.errors.head? = some error := by
    rw [parse_source] at reported
    exact congrArg List.head? reported
  obtain ⟨front, back, split, viable, stopped⟩ := viable_parseStmtsToEnd fresh head notFatal
  rw [hahead] at split
  subst split
  have hk : k = front.length := by
    have sum : k + back.length = (front ++ back).length := stopped.index_add
    rw [List.length_append] at sum
    omega
  have begins : (front ++ back).take k = front := by rw [hk, List.take_left]
  have there : (front ++ back)[k]? = back.head? := by
    rw [hk, List.getElem?_append_right (Nat.le_refl _), Nat.sub_self, List.head?_eq_getElem?]
  rw [hahead] at enough
  refine ⟨?_, ?_, ?_, ?_, ?_⟩
  · rw [hk, List.length_append]
    exact Nat.le_add_right _ _
  · rw [there]
    exact stopped.about
  · rwa [begins]
  · intro inside
    cases back with
    | nil => simp [hk] at inside
    | cons token rest =>
      have upTo : (front ++ token :: rest).take (k + 1) = front ++ [token] := by
        rw [hk, List.take_length_add_append]
        rfl
      rw [upTo]
      exact not_viable_of_stopped noEnd enough notFatal stopped
  · rintro ⟨program, n, derives⟩
    exact not_fails_of_derives maxNesting derives fresh.settled fresh.errors hahead enough
      ⟨error, head, notFatal⟩

theorem firstError_earliest_brokenSum :
    let tokens : List Token := [⟨.identifier, "a"⟩, ⟨.plus, "+"⟩, ⟨.closeParen, ")"⟩, ⟨.dash, "-"⟩]
    (parse (tokens.map some)).2 = [.noOperandForm .closeParen, .noOperandForm .eof] ∧
      errorIndex (tokens.map some) (.noOperandForm .closeParen) = 2 ∧
      Viable Sentence (tokens.take 2) ∧ ¬ Viable Sentence (tokens.take 3) := by
  intro tokens
  have reported : (parse (tokens.map some)).2 = [.noOperandForm .closeParen, .noOperandForm .eof] :=
    rfl
  have index : errorIndex (tokens.map some) (.noOperandForm .closeParen) = 2 := rfl
  have noEnd : ∀ token ∈ tokens, token.kind ≠ .eof := by decide
  obtain ⟨-, -, viable, ends, -⟩ := firstError_earliest noEnd reported nofun
  rw [index] at viable ends
  exact ⟨reported, index, viable, ends (by decide)⟩

end Monkey
