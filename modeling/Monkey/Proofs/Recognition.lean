import Monkey.Parser
import Monkey.Proofs.Soundness

set_option autoImplicit false

namespace Monkey

open Parse

section Rounds

variable {left : Nat} {cursor : Cursor} {stmt : Stmt} {closed : Bool} {n : Nat}
  {tokens rest : List Token}

theorem parseStmtsToEnd_of_nil (tables : Tables) (offered : Level) (bound : Nat)
    (hahead : cursor.ahead = []) :
    parseStmtsToEnd tables offered bound cursor = ([], cursor) := by
  have ended : cursor.atEnd = true := (Cursor.ahead_eq_nil_iff cursor).1 hahead
  cases bound with
  | zero => rfl
  | succ bound => simp [parseStmtsToEnd, ended]

theorem parseStmtsToEnd_of_end (tables : Tables) (offered : Level) (bound : Nat)
    (ended : cursor.current.kind = .eof) :
    parseStmtsToEnd tables offered bound cursor = ([], cursor) :=
  parseStmtsToEnd_of_nil tables offered bound (Cursor.ahead_of_end ended)

theorem atEnd_of_derives (h : Derives (.statement stmt closed) tokens n)
    (hahead : cursor.ahead = tokens ++ rest) : cursor.atEnd = false := by
  have start := ne_eof_of_startsStatement h.begins
  have kind : cursor.current.kind = headKind tokens := by
    rw [← Cursor.headKind_ahead, hahead, headKind_append start]
  rw [Cursor.atEnd, kind]
  exact beq_eq_false_iff_ne.2 start

theorem parseStmtsToEnd_of_le (h : Derives (.statement stmt closed) tokens n) (hn : n ≤ left)
    (settled : cursor.Settled) (hahead : cursor.ahead = tokens ++ rest)
    (hrest : closed = false → Separates rest) (bound : Nat) :
    ∃ next : Cursor, next.Settled ∧ next.errors = cursor.errors ∧ next.ahead = rest ∧
      parseStmtsToEnd Tables.standard (standardLevel left) (bound + 1) cursor =
        (stmt :: (parseStmtsToEnd Tables.standard (standardLevel left) bound next).1,
          (parseStmtsToEnd Tables.standard (standardLevel left) bound next).2) := by
  have run : Meets (parseStmt Tables.standard (standardLevel left)) cursor (n ≤ left) _ :=
    h.completes left cursor rest settled hahead hrest
  obtain ⟨_, last, hrun, hsettled, herrors, rfl, hafter⟩ := run.gives hn
  refine ⟨last.advance, hsettled.advance, ?_, ?_, ?_⟩
  · rw [Cursor.errors_advance, herrors]
  · rw [Cursor.ahead_advance, hafter]
  · simp [parseStmtsToEnd, atEnd_of_derives h hahead, hrun]

/-- One round on a statement that needs more levels than are left: nothing is read after it. -/
theorem parseStmtsToEnd_of_not_le (h : Derives (.statement stmt closed) tokens n) (hn : ¬ n ≤ left)
    (settled : cursor.Settled) (hahead : cursor.ahead = tokens ++ rest)
    (hrest : closed = false → Separates rest) (bound : Nat) :
    ∃ last : Cursor, last.errors = cursor.errors ++ [.nestingTooDeep maxNesting] ∧
      parseStmtsToEnd Tables.standard (standardLevel left) (bound + 1) cursor = ([], last) := by
  have run : Meets (parseStmt Tables.standard (standardLevel left)) cursor (n ≤ left) _ :=
    h.completes left cursor rest settled hahead hrest
  obtain ⟨last, hrun, hsettled, herrors, hnone⟩ := run.sinks hn
  have ended : last.current.kind = .eof := by
    rw [← Cursor.headKind_ahead, hnone]
    rfl
  have finished : (last.record (.nestingTooDeep maxNesting)).advance.ahead = [] := by
    rw [Cursor.ahead_advance, Cursor.after_record, Cursor.after,
      if_pos (hsettled.peek_of_current ended)]
  refine ⟨(last.record (.nestingTooDeep maxNesting)).advance, ?_, ?_⟩
  · rw [Cursor.errors_advance, Cursor.errors_record, herrors]
  · have later := parseStmtsToEnd_of_nil Tables.standard (standardLevel left) bound finished
    simp [parseStmtsToEnd, atEnd_of_derives h hahead, hrun, later]

end Rounds

/-- What derives is read to its end without an error, if the levels suffice. -/
theorem parseStmtsToEnd_of_derives {program : Program} {tokens : List Token} {n left : Nat}
    (h : Derives (.statements program) tokens n) (hn : n ≤ left) {cursor : Cursor} {bound : Nat}
    (settled : cursor.Settled) (hahead : cursor.ahead = tokens) (hbound : tokens.length ≤ bound) :
    (parseStmtsToEnd Tables.standard (standardLevel left) bound cursor).1 = program ∧
      (parseStmtsToEnd Tables.standard (standardLevel left) bound cursor).2.errors =
        cursor.errors := by
  induction program generalizing tokens n cursor bound with
  | nil =>
    obtain rfl : tokens = [] := h.begins
    rw [parseStmtsToEnd_of_nil _ _ _ hahead]
    exact ⟨rfl, rfl⟩
  | cons stmt stmts ih =>
    cases h with
    | @moreStatements _ _ closed n m front others first rest boundary =>
      have separates : closed = false → Separates others := fun hopen => by
        have apart := rest.separates (boundary hopen) separates_nil
        rwa [List.append_nil] at apart
      have long := length_pos_of_headKind (ne_eof_of_startsStatement first.begins)
      rw [List.length_append] at hbound
      obtain ⟨bound, rfl⟩ : ∃ fewer, bound = fewer + 1 := ⟨bound - 1, by omega⟩
      have hfront : n ≤ left := by omega
      have hothers : m ≤ left := by omega
      have shorter : others.length ≤ bound := by omega
      obtain ⟨next, hsettled, herrors, hnext, hrun⟩ :=
        parseStmtsToEnd_of_le first hfront settled hahead separates bound
      obtain ⟨hprogram, hquiet⟩ := ih rest hothers hsettled hnext shorter
      rw [hrun, hprogram, hquiet]
      exact ⟨rfl, herrors⟩

section Quiet

variable (offered : Level) [offered.Moves]

theorem errors_parseStmtsToEnd (tables : Tables) (bound : Nat) (cursor : Cursor) :
    ∃ new, (parseStmtsToEnd tables offered bound cursor).2.errors = cursor.errors ++ new := by
  induction bound generalizing cursor with
  | zero => exact ⟨[], by simp [parseStmtsToEnd]⟩
  | succ bound ih =>
    unfold parseStmtsToEnd
    split
    · exact ⟨[], by simp⟩
    · obtain ⟨first, hfirst⟩ := errors_of_run (parseStmt tables offered) cursor
      cases run : parseStmt tables offered cursor with
      | ok stmt last =>
        obtain ⟨later, hlater⟩ := ih last.advance
        rw [run] at hfirst
        change last.errors = _ at hfirst
        exact ⟨first ++ later, by rw [hlater, Cursor.errors_advance, hfirst, List.append_assoc]⟩
      | error error last =>
        obtain ⟨later, hlater⟩ := ih (last.record error).advance
        rw [run] at hfirst
        change last.errors = _ at hfirst
        refine ⟨first ++ [error] ++ later, ?_⟩
        rw [hlater, Cursor.errors_advance, Cursor.errors_record, hfirst]
        simp

/-- What is read to the end of its source without an error derives. -/
theorem derives_of_parseStmtsToEnd {left : Nat} (h : offered.Sound left) {cursor : Cursor}
    {bound : Nat} (settled : cursor.Settled) (hbound : cursor.ahead.length ≤ bound)
    (quiet : (parseStmtsToEnd Tables.standard offered bound cursor).2.errors = cursor.errors) :
    ∃ n, Derives (.statements (parseStmtsToEnd Tables.standard offered bound cursor).1)
      cursor.ahead n ∧ n ≤ left := by
  induction bound generalizing cursor with
  | zero =>
    have none : cursor.ahead = [] := List.length_eq_zero_iff.1 (by omega)
    rw [none]
    exact ⟨0, .noStatements, Nat.zero_le left⟩
  | succ bound ih =>
    by_cases ended : cursor.atEnd = true
    · have none : cursor.ahead = [] := (Cursor.ahead_eq_nil_iff cursor).2 ended
      rw [parseStmtsToEnd_of_nil _ _ _ none, none]
      exact ⟨0, .noStatements, Nat.zero_le left⟩
    · obtain ⟨first, hfirst⟩ := errors_of_run (parseStmt Tables.standard offered) cursor
      cases run : parseStmt Tables.standard offered cursor with
      | ok stmt last =>
        have whole : parseStmtsToEnd Tables.standard offered (bound + 1) cursor =
            (stmt :: (parseStmtsToEnd Tables.standard offered bound last.advance).1,
              (parseStmtsToEnd Tables.standard offered bound last.advance).2) := by
          simp [parseStmtsToEnd, ended, run]
        obtain ⟨later, hlater⟩ :=
          errors_parseStmtsToEnd offered Tables.standard bound last.advance
        rw [whole] at quiet ⊢
        rw [run] at hfirst
        change last.errors = _ at hfirst
        have none : first = [] ∧ later = [] := by
          rw [hlater, Cursor.errors_advance, hfirst, List.append_assoc] at quiet
          simpa using quiet
        have quietFirst : last.errors = cursor.errors := by rw [hfirst, none.1, List.append_nil]
        have reads := h.statement settled stmt last run quietFirst
        have shorter : last.after.length ≤ bound := by
          obtain ⟨tokens, closed, n, hahead, hstmt, -⟩ := reads
          have long := length_pos_of_headKind (ne_eof_of_startsStatement hstmt.begins)
          rw [hahead, List.length_append] at hbound
          omega
        have hsettled := (settled_of_run _ settled run).advance
        obtain ⟨m, hothers, hm⟩ := ih hsettled (by rwa [Cursor.ahead_advance])
          (by rw [hlater, none.2, List.append_nil])
        rw [Cursor.ahead_advance] at hothers
        have hafter : last.after = last.after ++ [] := (List.append_nil _).symm
        obtain ⟨tokens, n, hahead, hwhole, hn⟩ := reads.more hafter hothers hm
        rw [List.append_nil] at hahead
        rw [hahead]
        exact ⟨n, hwhole, hn⟩
      | error error last =>
        -- A statement that failed left its error behind.
        have whole : parseStmtsToEnd Tables.standard offered (bound + 1) cursor =
            parseStmtsToEnd Tables.standard offered bound (last.record error).advance := by
          simp [parseStmtsToEnd, ended, run]
        obtain ⟨later, hlater⟩ :=
          errors_parseStmtsToEnd offered Tables.standard bound
            (last.record error).advance
        rw [run] at hfirst
        change last.errors = _ at hfirst
        rw [whole, hlater, Cursor.errors_advance, Cursor.errors_record, hfirst] at quiet
        simp at quiet

end Quiet

theorem parse_source (source : List (Option Token)) :
    parse source =
      ((parseStmtsToEnd Tables.standard (standardLevel maxNesting)
          (Cursor.ofSource source).remaining (Cursor.ofSource source)).1,
        (parseStmtsToEnd Tables.standard (standardLevel maxNesting)
          (Cursor.ofSource source).remaining (Cursor.ofSource source)).2.errors) := rfl

theorem parse_iff_derives (source : List (Option Token)) (program : Program) :
    parse source = (program, []) ↔
      ∃ levels, Derives (.statements program) (untilEnd source) levels ∧ levels ≤ maxNesting := by
  have settled := Cursor.settled_ofSource source
  have ahead := Cursor.ahead_ofSource source
  have none := Cursor.errors_ofSource source
  have enough := Cursor.ahead_length_le_remaining (Cursor.ofSource source)
  rw [parse_source]
  constructor
  · intro h
    obtain ⟨hprogram, hquiet⟩ := Prod.mk.inj h
    have derived := derives_of_parseStmtsToEnd _ (level_sound maxNesting) settled enough
      (hquiet.trans none.symm)
    rwa [hprogram, ahead] at derived
  · rintro ⟨levels, hderives, hlevels⟩
    rw [ahead] at enough
    obtain ⟨hprogram, hquiet⟩ :=
      parseStmtsToEnd_of_derives hderives hlevels settled ahead enough
    rw [hprogram, hquiet, none]

/-- The parser accepts exactly what its grammar derives within the nesting limit, and builds
exactly the trees of the derivations. -/
theorem parse_eq_iff_derives (tokens : List Token) (h : ∀ token ∈ tokens, token.kind ≠ .eof)
    (program : Program) : parse (tokens.map some) = (program, []) ↔
      ∃ levels, Derives (.statements program) tokens levels ∧ levels ≤ maxNesting := by
  rw [parse_iff_derives, untilEnd_map_some tokens h]

theorem parse_eq_iff_derives_difference :
    parse ([⟨.identifier, "a"⟩, ⟨.dash, "-"⟩, ⟨.identifier, "b"⟩, ⟨.dash, "-"⟩,
        ⟨.identifier, "c"⟩].map some) =
      ([.expression (.binary (.binary (.identifier "a") "-" (.identifier "b")) "-"
        (.identifier "c"))], []) := by
  have name (text : String) : Derives (.expression .call (.identifier text) 0)
      [⟨.identifier, text⟩] 1 := @Derives.identifier ⟨.identifier, text⟩ rfl
  have right (text : String) : Derives (.expression .product (.identifier text) 0)
      [⟨.identifier, text⟩] 1 := (name text).loosen (by decide)
  have left : Derives (.expression .sum (.identifier "a") 0) [⟨.identifier, "a"⟩] 1 :=
    (name "a").loosen (by decide)
  have inner := @Derives.binary .sum ⟨.dash, "-"⟩ _ _ _ _ _ _ _ _ (by decide) left (right "b")
  have value := @Derives.binary .sum ⟨.dash, "-"⟩ _ _ _ _ _ _ _ _ (by decide) inner (right "c")
  have stmt := @Derives.expression _ false _ _ _ [] (value.loosen (by decide)) rfl
  have program := Derives.moreStatements stmt .noStatements (by decide)
  exact (parse_eq_iff_derives _ (by decide) _).2 ⟨_, program, by decide⟩

end Monkey
