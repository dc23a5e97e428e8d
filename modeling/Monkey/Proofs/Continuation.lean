import Monkey.Proofs.Lockstep

set_option autoImplicit false

namespace Monkey

open Parse

/-- The errors after which a source cannot be gone on with. -/
def ParseError.Breaks (error : ParseError) : Prop :=
  error = .unexpectedToken .closeCurly .eof ∨ error.isFatal = true

/-- A run on tokens up to a semicolon and one on tokens that go on behind it. -/
structure Continuing (semicolon : Token) (others : List Token) (place : Place) (c d : Cursor) :
    Prop where
  settled : c.Settled ∧ d.Settled
  errors : c.errors = d.errors
  tokens : Abreast semicolon [] others place c d ∨
    place = .closed ∧ c.after = [] ∧ d.after = others

namespace Continuing

variable {semicolon : Token} {others : List Token} {place : Place} {c d : Cursor}

theorem abreast (h : Continuing semicolon others place c d) (open' : place ≠ .closed) :
    Abreast semicolon [] others place c d :=
  h.tokens.resolve_right fun behind => open' behind.1

theorem record_eq (h : Continuing semicolon others place c d) (error : ParseError) :
    (c.record error).errors = (d.record error).errors := by
  rw [Cursor.errors_record, Cursor.errors_record, h.errors]

theorem past (h : Continuing semicolon others .current c d) :
    Continuing semicolon others .closed c d :=
  ⟨h.settled, h.errors, ((h.abreast (by decide)).past (by decide)).imp_right
    fun behind => ⟨rfl, behind.2⟩⟩

theorem record (h : Continuing semicolon others .closed c d) (error : ParseError) :
    Continuing semicolon others .closed (c.record error) (d.record error) :=
  ⟨⟨h.settled.1.record error, h.settled.2.record error⟩, h.record_eq error,
    h.tokens.imp (fun abreast => abreast.record error) id⟩

end Continuing

def Coupling.continued (semicolon : Token) (kind : semicolon.kind = .semicolon)
    (others : List Token) : Coupling where
  inStep := Continuing semicolon others
  parted c d := c.ahead = [] ∧ d.ahead = others ∧ d.Settled ∧ c.errors = d.errors
  lost _ c _ := ∃ error ∈ c.errors, error.Breaks
  settled h := h.settled
  head h := by
    have same := (h.abreast (by decide)).same
    rw [same.1, same.2]
    rfl
  next h := ⟨(h.abreast (by decide)).current rfl, (h.abreast (by decide)).peek_kind⟩
  reach levels h :=
    ⟨⟨h.settled.1.reach levels, h.settled.2.reach levels⟩, h.errors,
      h.tokens.imp (fun abreast => abreast.reach levels) id⟩
  read h readable := by
    refine .inl ⟨h.settled, h.errors, .inl ?_⟩
    refine ((h.abreast (by decide)).past (by decide)).resolve_right fun behind => ?_
    exact readable.kind_ne_semicolon (by rw [behind.1, kind])
  close h := ⟨h.settled, h.errors, .inl (h.abreast (by decide)).closed⟩
  semicolon h _ := .inl h.past
  advance h :=
    ⟨⟨h.settled.1.advance, h.settled.2.advance⟩,
      by rw [Cursor.errors_advance, Cursor.errors_advance, h.errors],
      .inl ((h.abreast (by decide)).advance (by decide))⟩
  goOn {c d} h := by
    have errors : c.advance.errors = d.advance.errors := by
      rw [Cursor.errors_advance, Cursor.errors_advance, h.errors]
    have settled := And.intro h.settled.1.advance h.settled.2.advance
    rcases h.tokens with abreast | ⟨-, hc, hd⟩
    · exact .inl ⟨settled, errors, .inl (abreast.advance (by decide))⟩
    · exact .inr ⟨(Cursor.ahead_advance c).trans hc, (Cursor.ahead_advance d).trans hd, settled.2,
        errors⟩
  miss expected h :=
    .inl (Continuing.record ⟨h.settled, h.errors, .inl (h.abreast (by decide)).closed⟩ _)
  reject h := .inl (h.past.record _)
  unclosed h ended := by
    have some := (h.abreast (by decide)).same.1
    rw [Cursor.ahead_of_end ended] at some
    cases some
  abandon {place c d} _ := by
    refine .inr ⟨.nestingTooDeep maxNesting, ?_, .inr rfl⟩
    rw [Cursor.errors_record]
    exact List.mem_append_right _ (List.mem_singleton_self _)
  ahead_of_parted h := h.1
  lost_of_parted {c _ _} _ _ := by
    refine ⟨.unexpectedToken .closeCurly .eof, ?_, .inl rfl⟩
    rw [Cursor.errors_record]
    exact List.mem_append_right _ (List.mem_singleton_self _)
  keeps := by
    rintro place stop c d first last ⟨error, member, breaks⟩ visit -
    exact ⟨error, visit.errors_subset member, breaks⟩

/-- A run and one that has recorded other errors before. -/
structure Shifted (before : List ParseError) (place : Place) (c d : Cursor) : Prop where
  settled : c.Settled ∧ d.Settled
  errors : d.errors = before ++ c.errors
  tokens : c.unread place = d.unread place
  current : place = .next → c.current = d.current

namespace Shifted

variable {before : List ParseError} {place : Place} {c d : Cursor}

theorem past (h : Shifted before .current c d) (stop : Place) (done : stop ≠ .current)
    (current : stop = .next → c.current = d.current) : Shifted before stop c d := by
  have behind : c.after = d.after := by
    have same : c.ahead = d.ahead := h.tokens
    by_cases ended : c.ahead = []
    · rw [Cursor.ahead_eq_nil_of_after ended h.settled.1,
        Cursor.ahead_eq_nil_of_after (same ▸ ended) h.settled.2]
    · obtain ⟨token, rest, hc⟩ := List.exists_cons_of_ne_nil ended
      rw [(Cursor.current_of_ahead hc).2, (Cursor.current_of_ahead (same ▸ hc)).2]
  refine ⟨h.settled, h.errors, ?_, current⟩
  cases stop with
  | current => exact absurd rfl done
  | next => exact behind
  | closed => exact behind

theorem advance (h : Shifted before place c d) (done : place ≠ .current) :
    Shifted before .current c.advance d.advance := by
  refine ⟨⟨h.settled.1.advance, h.settled.2.advance⟩, ?_, ?_, nofun⟩
  · rw [Cursor.errors_advance, Cursor.errors_advance, h.errors]
  · rw [Cursor.unread, Cursor.unread, Cursor.ahead_advance, Cursor.ahead_advance]
    cases place with
    | current => exact absurd rfl done
    | next => exact h.tokens
    | closed => exact h.tokens

theorem closed (h : Shifted before .next c d) : Shifted before .closed c d :=
  ⟨h.settled, h.errors, h.tokens, nofun⟩

theorem record (h : Shifted before .closed c d) (error : ParseError) :
    Shifted before .closed (c.record error) (d.record error) := by
  refine ⟨⟨h.settled.1.record error, h.settled.2.record error⟩, ?_, h.tokens, nofun⟩
  rw [Cursor.errors_record, Cursor.errors_record, h.errors, List.append_assoc]

end Shifted

def Coupling.shifted (before : List ParseError) : Coupling where
  inStep := Shifted before
  parted _ _ := False
  lost _ _ _ := False
  settled h := h.settled
  head h := congrArg List.head? h.tokens
  next {c d} h := by
    refine ⟨h.current rfl, ?_⟩
    rw [← Cursor.headKind_after, ← Cursor.headKind_after]
    exact congrArg headKind h.tokens
  reach {place _ _} levels h := by
    refine ⟨⟨h.settled.1.reach levels, h.settled.2.reach levels⟩, h.errors, ?_, h.current⟩
    cases place <;> exact h.tokens
  read {c d} h readable := by
    refine .inl (h.past .next (by decide) fun _ => ?_)
    have same : c.ahead = d.ahead := h.tokens
    rw [Cursor.ahead_of_current readable.kind_ne_eof] at same
    exact (Cursor.current_of_ahead same.symm).1.symm
  close h := h.closed
  semicolon h _ := .inl (h.past .closed (by decide) nofun)
  advance h := h.advance (by decide)
  goOn h := .inl (h.advance (by decide))
  miss _ h := .inl (h.closed.record _)
  reject h := .inl ((h.past .closed (by decide) nofun).record _)
  unclosed h _ := .inl ((h.past .closed (by decide) nofun).record _)
  abandon {place c d} h := by
    have settled := And.intro (Cursor.settled_abandon c) (Cursor.settled_abandon d)
    exact .inl (.record ⟨settled, h.errors, rfl, nofun⟩ _)
  ahead_of_parted := @ahead_of_unparted
  lost_of_parted := @lost_of_unparted
  keeps := @keeps_none

theorem parseProgram_of_length_le {source : List (Option Token)} {bound : Nat}
    (enough : (untilEnd source).length ≤ bound) :
    parseStmtsToEnd Tables.standard (standardLevel maxNesting)
        (Cursor.ofSource source).remaining (Cursor.ofSource source) =
      parseStmtsToEnd Tables.standard (standardLevel maxNesting) bound
        (Cursor.ofSource source) := by
  have settled := Cursor.settled_ofSource source
  have fits := Cursor.ahead_length_le_remaining (Cursor.ofSource source)
  rw [← Cursor.ahead_ofSource] at enough
  rw [parseStmtsToEnd_of_length_le settled (Nat.le_refl _) fits,
    parseStmtsToEnd_of_length_le settled (Nat.le_refl _) enough]

theorem parse_of_length_le {source : List (Option Token)} (bound : Nat)
    (enough : (untilEnd source).length ≤ bound) :
    parse source =
      ((parseStmtsToEnd Tables.standard (standardLevel maxNesting) bound
          (Cursor.ofSource source)).1,
        (parseStmtsToEnd Tables.standard (standardLevel maxNesting) bound
          (Cursor.ofSource source)).2.errors) := by
  rw [parse_source, parseProgram_of_length_le enough]

/-- From where a run shows what a source answers, it goes on like a new run on that source. -/
theorem parse_of_ahead {source : List (Option Token)} {cursor : Cursor} {bound : Nat}
    (settled : cursor.Settled) (hahead : cursor.ahead = untilEnd source)
    (enough : cursor.ahead.length ≤ bound) :
    (parseStmtsToEnd Tables.standard (standardLevel maxNesting) bound cursor).1 =
        (parse source).1 ∧
      (parseStmtsToEnd Tables.standard (standardLevel maxNesting) bound cursor).2.errors =
        cursor.errors ++ (parse source).2 := by
  have start : (Coupling.shifted cursor.errors).inStep .current (Cursor.ofSource source)
      cursor := by
    refine ⟨⟨Cursor.settled_ofSource source, settled⟩, ?_, ?_, nofun⟩
    · rw [Cursor.errors_ofSource, List.append_nil]
    · exact (Cursor.ahead_ofSource source).trans hahead.symm
  have both : max (Cursor.ofSource source).ahead.length cursor.ahead.length ≤ bound := by
    rwa [Cursor.ahead_ofSource, ← hahead, Nat.max_self]
  rw [parse_of_length_le bound (by rwa [← hahead])]
  have accord := accord_parseStmtsToEnd (standardLevel maxNesting) bound start both
  generalize parseStmtsToEnd Tables.standard (standardLevel maxNesting) bound cursor = one at *
  generalize parseStmtsToEnd Tables.standard (standardLevel maxNesting) bound _ = two at *
  cases accord with
  | same h => exact ⟨rfl, h.errors⟩
  | lost h => exact h.elim
  | parted h => exact h.elim

/-- A source that ends in a semicolon is gone on with as if the rest stood alone, whatever errors
it has, unless it ends in an open block or exceeds the nesting limit. -/
theorem parse_append {first : List Token} (noEnd : ∀ token ∈ first, token.kind ≠ .eof)
    (closed : first.getLast?.map Token.kind = some .semicolon)
    (complete : .unexpectedToken .closeCurly .eof ∉ (parse (first.map some)).2)
    (shallow : ∀ limit, .nestingTooDeep limit ∉ (parse (first.map some)).2)
    (second : List (Option Token)) :
    parse (first.map some ++ second) =
      ((parse (first.map some)).1 ++ (parse second).1,
        (parse (first.map some)).2 ++ (parse second).2) := by
  obtain ⟨semicolon, hlast, kind⟩ := Option.map_eq_some_iff.1 closed
  obtain ⟨front, hfirst⟩ := List.getLast?_eq_some_iff.1 hlast
  have short := untilEnd_map_some first noEnd
  have long := untilEnd_append first noEnd second
  have hc := Cursor.settled_ofSource (first.map some)
  have hd := Cursor.settled_ofSource (first.map some ++ second)
  have start : (Coupling.continued semicolon kind (untilEnd second)).inStep .current
      (Cursor.ofSource (first.map some)) (Cursor.ofSource (first.map some ++ second)) := by
    refine ⟨⟨hc, hd⟩, by rw [Cursor.errors_ofSource, Cursor.errors_ofSource],
      .inl ⟨hc, hd, ⟨front, ?_, ?_⟩, nofun⟩⟩
    · rw [Cursor.unread, Cursor.ahead_ofSource, short, hfirst]
    · rw [Cursor.unread, Cursor.ahead_ofSource, long, hfirst, List.append_assoc]
      rfl
  obtain ⟨bound, hbound⟩ : ∃ bound, bound = (untilEnd (first.map some ++ second)).length := ⟨_, rfl⟩
  have fits : first.length ≤ bound := by
    rw [hbound, long, List.length_append]
    omega
  have both : max (Cursor.ofSource (first.map some)).ahead.length
      (Cursor.ofSource (first.map some ++ second)).ahead.length ≤ bound := by
    rw [Cursor.ahead_ofSource, Cursor.ahead_ofSource, short, ← hbound]
    omega
  have accord := accord_parseStmtsToEnd (standardLevel maxNesting) bound start both
  have ends := ahead_parseStmtsToEnd Tables.standard (standardLevel maxNesting) hc
    (by omega : _ ≤ bound)
  rw [parse_of_length_le bound (by omega)]
  rw [parse_of_length_le bound (by rwa [short])] at complete shallow ⊢
  generalize parseStmtsToEnd _ _ bound (Cursor.ofSource (first.map some)) = one at *
  generalize parseStmtsToEnd _ _ bound (Cursor.ofSource (first.map some ++ second)) = two at *
  cases accord with
  | same h => exact absurd ends (by
      have some := (h.abreast (by decide)).same.1
      rw [some]
      exact List.cons_ne_nil _ _)
  | lost h =>
    obtain ⟨error, member, rfl | fatal⟩ := h
    · exact absurd member complete
    · cases error with
      | nestingTooDeep limit => exact absurd member (shallow limit)
      | _ => cases fatal
  | parted h enough =>
    obtain ⟨-, hahead, settled, errors⟩ := h
    obtain ⟨hprogram, herrors⟩ := parse_of_ahead settled hahead enough
    rw [hprogram, herrors, errors]

theorem parse_append_missingAssignment :
    parse ([⟨.letKeyword, "let"⟩, ⟨.identifier, "a"⟩, ⟨.identifier, "b"⟩,
        ⟨.semicolon, ";"⟩].map some ++ [some ⟨.closeParen, ")"⟩, some ⟨.identifier, "c"⟩, none]) =
      ([.expression (.identifier "b"), .expression (.identifier "c")],
        [.unexpectedToken .assignment .identifier, .noOperandForm .closeParen]) := by
  have front : parse ([⟨.letKeyword, "let"⟩, ⟨.identifier, "a"⟩, ⟨.identifier, "b"⟩,
      ⟨.semicolon, ";"⟩].map some) =
      ([.expression (.identifier "b")], [.unexpectedToken .assignment .identifier]) := rfl
  have back : parse [some ⟨.closeParen, ")"⟩, some ⟨.identifier, "c"⟩, none] =
      ([.expression (.identifier "c")], [.noOperandForm .closeParen]) := rfl
  rw [parse_append (by decide) rfl (by rw [front]; decide) (by rw [front]; simp), front, back]
  rfl

end Monkey
