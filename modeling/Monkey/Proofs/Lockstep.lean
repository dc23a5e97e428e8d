import Monkey.Proofs.Coupling

set_option autoImplicit false

namespace Monkey

open Parse

section Lists

variable {α β : Type} (item : Parse α) [Couples item .next .next] [Moves item] {stop : Place}

instance (bound : Nat) : Couples (afterCommas item bound) .next .next := by
  induction bound with
  | zero => exact inferInstanceAs (Couples (pure []) .next .next)
  | succ bound ih => unfold afterCommas; infer_instance

omit [Couples item .next .next] in
theorem remaining_afterCommas {next : List α → Parse β} {cursor : Cursor} {bound : Nat}
    (settled : cursor.Settled) (h : cursor.remaining ≤ bound) :
    (remaining >>= fun bound => afterCommas item bound >>= next) cursor =
      (afterCommas item bound >>= next) cursor :=
  remaining_bind (afterCommas_of_length_le item settled (Cursor.after_length_le_remaining cursor) h)

instance (next : List α → Parse β) [∀ values, Couples (next values) .next stop]
    [∀ values, Moves (next values)] :
    Couples (remaining >>= fun bound => afterCommas item bound >>= next) .next stop := by
  refine ⟨fun P c d step => ?_⟩
  obtain ⟨hc, hd⟩ := P.settled step
  rw [remaining_afterCommas item hc (Nat.le_max_left _ d.remaining),
    remaining_afterCommas item hd (Nat.le_max_right c.remaining _)]
  exact Couples.agree P step

instance : Couples (bracketed item) .next .next := by
  unfold bracketed
  infer_instance

end Lists

class Level.Couples (level : Level) : Prop where
  expression (power : BindingPower) : Monkey.Couples (level.expression power) .current .next
  operators (power : BindingPower) (left : Expr) :
    Monkey.Couples (level.operators power left) .next .next
  block : Monkey.Couples level.block .next .next

section Forms

variable (offered : Level) [offered.Moves] [h : offered.Couples]

instance (power : BindingPower) : Couples (offered.expression power) .current .next :=
  h.expression power

instance (power : BindingPower) (left : Expr) :
    Couples (offered.operators power left) .next .next := h.operators power left

instance : Couples offered.block .next .next := h.block

instance : Couples (OperandForm.parseAlternative offered) .next .next := by
  unfold OperandForm.parseAlternative
  infer_instance

instance : Couples OperandForm.parseParameter .next .next := by
  unfold OperandForm.parseParameter
  infer_instance

-- The longest form is a sequence of eight actions.
set_option synthInstance.maxSize 512 in
theorem couples_operandForm {form : OperandForm} (h : form ≠ .primary) :
    Couples (form.parse offered) .next .next := by
  cases form with
  | primary => exact absurd rfl h
  | unary => unfold OperandForm.parse OperandForm.parseUnary; infer_instance
  | grouping => unfold OperandForm.parse OperandForm.parseGrouping; infer_instance
  | conditional => unfold OperandForm.parse OperandForm.parseConditional; infer_instance
  | function => unfold OperandForm.parse OperandForm.parseFunction; infer_instance

instance : Couples (OperatorForm.parseArgument offered) .next .next := by
  unfold OperatorForm.parseArgument
  infer_instance

instance (form : OperatorForm) (left : Expr) (power : BindingPower) :
    Couples (form.parse offered left power) .next .next := by
  cases form with
  | binary => unfold OperatorForm.parse OperatorForm.parseBinary; infer_instance
  | call => unfold OperatorForm.parse OperatorForm.parseCall; infer_instance

end Forms

section Operands

theorem plain_of_operand {kind : TokenKind} {form : OperandForm}
    (h : Tables.standard.operand kind = some form) (hform : form ≠ .primary) :
    kind.plain = true := by
  cases kind <;> cases h <;> first | rfl | exact absurd rfl hform

theorem plain_of_operator {kind : TokenKind} {form : OperatorForm}
    (h : Tables.standard.operator kind = some form) : kind.plain = true := by
  cases kind <;> cases h <;> rfl

theorem plain_of_statement {kind : TokenKind} {form : StatementForm}
    (h : Tables.standard.statement kind = some form) : kind.plain = true := by
  cases kind <;> cases h <;> rfl

theorem Token.rejection_of_operand {token : Token}
    (h : Tables.standard.operand token.kind = none) :
    token.rejection =
      if token.kind = .illegal then .illegalToken token.literal else .noOperandForm token.kind := by
  unfold Token.rejection Token.flaw?
  revert h
  cases token.kind <;> simp [Tables.standard]

theorem Token.rejection_of_number {token : Token} (kind : token.kind = .number)
    (h : Integer.read? token.literal = none) :
    token.rejection = .unreadableNumber token.literal := by
  simp [Token.rejection, Token.flaw?, kind, h]

theorem Token.readable_of_number {token : Token} {value : Int64} (kind : token.kind = .number)
    (h : Integer.read? token.literal = some value) : token.Readable := by
  refine ⟨?_, ?_, ?_⟩
  · simp [Token.flaw?, kind, h]
  · rw [kind]
    decide
  · rw [kind]
    decide

theorem parsePrimary_cases {token : Token}
    (primary : Tables.standard.operand token.kind = some .primary) :
    (token.Readable ∧ ∃ value, ∀ cursor : Cursor, cursor.current = token →
        OperandForm.parsePrimary cursor = .ok value cursor) ∨
      ∀ cursor : Cursor, cursor.current = token →
        OperandForm.parsePrimary cursor = .error token.rejection cursor := by
  have kind := mem_kinds_of_operand primary
  simp only [OperandForm.kinds, List.mem_cons, List.not_mem_nil, or_false] at kind
  rcases kind with kind | kind | kind | kind
  · refine .inl ⟨Token.readable_of_plain (by rw [kind]; rfl), .identifier token.literal, ?_⟩
    rintro cursor rfl
    rw [OperandForm.parsePrimary, bind_of_ok (rfl : current cursor = _), kind]
    rfl
  · cases read : Integer.read? token.literal with
    | some value =>
      refine .inl ⟨Token.readable_of_number kind read, .integer value, ?_⟩
      rintro cursor rfl
      rw [OperandForm.parsePrimary, bind_of_ok (rfl : current cursor = _), kind]
      simp only [read]
      rfl
    | none =>
      right
      rintro cursor rfl
      rw [OperandForm.parsePrimary, bind_of_ok (rfl : current cursor = _), kind,
        Token.rejection_of_number kind read]
      simp only [read]
      rfl
  · refine .inl ⟨Token.readable_of_plain (by rw [kind]; rfl), .boolean true, ?_⟩
    rintro cursor rfl
    rw [OperandForm.parsePrimary, bind_of_ok (rfl : current cursor = _), kind]
    rfl
  · refine .inl ⟨Token.readable_of_plain (by rw [kind]; rfl), .boolean false, ?_⟩
    rintro cursor rfl
    rw [OperandForm.parsePrimary, bind_of_ok (rfl : current cursor = _), kind]
    rfl

theorem parseOperand_of_none (offered : Level) {cursor : Cursor}
    (h : Tables.standard.operand cursor.current.kind = none) :
    parseOperand Tables.standard offered cursor = .error cursor.current.rejection cursor := by
  rw [parseOperand, bind_of_ok (rfl : current cursor = _), h, Token.rejection_of_operand h]
  by_cases illegal : cursor.current.kind = .illegal
  · rw [if_pos illegal, if_pos illegal]
    rfl
  · rw [if_neg illegal, if_neg illegal]
    rfl

theorem parseOperand_of_some (offered : Level) {cursor : Cursor} {form : OperandForm}
    (h : Tables.standard.operand cursor.current.kind = some form) :
    parseOperand Tables.standard offered cursor = form.parse offered cursor := by
  rw [parseOperand, bind_of_ok (rfl : current cursor = _), h]

instance (offered : Level) [offered.Moves] [offered.Couples] :
    Couples (parseOperand Tables.standard offered) .current .next := by
  refine ⟨fun P c d step => ?_⟩
  have kinds := P.kind_of_current step
  cases hform : Tables.standard.operand c.current.kind with
  | none =>
    have rejection : c.current.rejection = d.current.rejection := by
      by_cases ended : c.current.kind = .eof
      · rw [Token.rejection_of_eof ended, Token.rejection_of_eof (kinds ▸ ended)]
      · rw [P.current_of_current step ended]
    rw [parseOperand_of_none offered hform, parseOperand_of_none offered (kinds ▸ hform),
      ← rejection]
    exact .of_or_error (P.reject step)
  | some form =>
    have same : c.current = d.current := P.current_of_current step fun ended => by
      rw [ended] at hform
      cases hform
    rw [parseOperand_of_some offered hform, parseOperand_of_some offered (kinds ▸ hform)]
    by_cases primary : form = .primary
    · rw [primary] at hform ⊢
      rcases parsePrimary_cases hform with ⟨readable, value, reads⟩ | rejects
      · rw [OperandForm.parse, reads c rfl, reads d same.symm]
        exact .of_or (P.read step readable)
      · rw [OperandForm.parse, rejects c rfl, rejects d same.symm]
        exact .of_or_error (P.reject step)
    · have readable := Token.readable_of_plain (plain_of_operand hform primary)
      have := couples_operandForm offered primary
      exact P.agree_read step readable

end Operands

section Statements

variable (offered : Level) [offered.Moves] [offered.Couples] {P : Coupling} {c d : Cursor}

instance : Couples (parseExpressionStmt offered) .current .closed := by
  unfold parseExpressionStmt
  infer_instance

set_option synthInstance.maxSize 512 in
theorem couples_statementForm {form : StatementForm} (h : form ≠ .block) :
    Couples (form.parse offered) .next .closed := by
  cases form with
  | letBinding => unfold StatementForm.parse StatementForm.parseLetBinding; infer_instance
  | returning => unfold StatementForm.parse StatementForm.parseReturning; infer_instance
  | block => exact absurd rfl h

instance : Couples (parseStmt Tables.standard offered) .current .closed := by
  refine ⟨fun P c d step => ?_⟩
  rw [parseStmt, bind_of_ok (rfl : currentKind c = _), bind_of_ok (rfl : currentKind d = _),
    ← P.kind_of_current step]
  cases hform : Tables.standard.statement c.current.kind with
  | none =>
    change P.Agree .closed (parseExpressionStmt offered c) (parseExpressionStmt offered d)
    exact Couples.agree P step
  | some form =>
    have known : form ≠ .block := fun block => by
      rw [block] at hform
      cases mem_kinds_of_statement hform
    have := couples_statementForm offered known
    change P.Agree .closed (form.parse offered c) (form.parse offered d)
    exact P.agree_read step (Token.readable_of_plain (plain_of_statement hform))

end Statements

section Blocks

variable {tables : Tables} {offered : Level} {cursor middle last : Cursor} {bound : Nat}

theorem parseStmts_of_stops
    (stops : cursor.current.kind = .closeCurly ∨ cursor.current.kind = .eof) :
    parseStmts tables offered (bound + 1) cursor = .ok [] cursor := by
  rw [parseStmts, bind_of_ok (rfl : currentKind cursor = _), if_pos stops]
  rfl

variable (stays : ¬ (cursor.current.kind = .closeCurly ∨ cursor.current.kind = .eof))

include stays

theorem parseStmts_of_ok {stmt? : Option Stmt}
    (run : attempt (parseStmt tables offered) cursor = .ok stmt? middle) :
    parseStmts tables offered (bound + 1) cursor =
      (parseStmts tables offered bound >>= fun rest => pure (stmt?.toList ++ rest))
        middle.advance := by
  rw [parseStmts, bind_of_ok (rfl : currentKind cursor = _), if_neg stays, bind_of_ok run,
    bind_of_ok (rfl : advance middle = _)]

theorem parseStmts_of_error {error : ParseError}
    (run : attempt (parseStmt tables offered) cursor = .error error last) :
    parseStmts tables offered (bound + 1) cursor = .error error last := by
  rw [parseStmts, bind_of_ok (rfl : currentKind cursor = _), if_neg stays, bind_of_error run]

theorem later_parseStmts [offered.Moves] (bound : Nat) :
    (ended (attempt (parseStmt tables offered) cursor)).Later
      (ended (parseStmts tables offered (bound + 1) cursor)) := by
  cases run : attempt (parseStmt tables offered) cursor with
  | ok stmt? middle =>
    rw [parseStmts_of_ok stays run]
    exact (Cursor.Later.advance middle).trans (later_ended _ _)
  | error error last =>
    rw [parseStmts_of_error stays run]
    exact Cursor.Later.refl _

end Blocks

/-- Two runs of the statements of a block stay together, or the first one ends before the second. -/
def Coupling.AgreeOrPart (P : Coupling)
    (first second : EStateM.Result ParseError Cursor (List Stmt)) : Prop :=
  P.Agree .current first second ∨
    ∃ body c d, first = .ok body c ∧ P.parted c d ∧ d.Later (ended second)

namespace Coupling.AgreeOrPart

variable {P : Coupling} {c d : Cursor} {action : Parse (List Stmt)}

theorem front (h : P.AgreeOrPart (action c) (action d)) (front : List Stmt) :
    P.AgreeOrPart ((action >>= fun rest => pure (front ++ rest)) c)
      ((action >>= fun rest => pure (front ++ rest)) d) := by
  rcases h with agree | ⟨body, first, second, run, parted, later⟩
  · exact .inl (agree.bind (fun _ _ _ => .refl) fun _ _ _ _ step => .ok step)
  · refine .inr ⟨front ++ body, first, second, by rw [bind_of_ok run]; rfl, parted, ?_⟩
    exact later.trans (later_ended_bind action _ d)

theorem visits {origin : Cursor} {result : EStateM.Result ParseError Cursor (List Stmt)}
    (h : (Coupling.along origin .current).AgreeOrPart result result) :
    Visits origin .current (ended result) (endPlace .current result) := by
  rcases h with agree | ⟨_, _, _, _, parted, _⟩
  · exact agree.visits
  · exact parted.elim

end Coupling.AgreeOrPart

section Blocks

variable (offered : Level) [offered.Moves] [offered.Couples] {P : Coupling} {c d : Cursor}

/-- The statements of a block are parsed in step until the first run comes to its end. -/
theorem agree_parseStmts (bound : Nat) (step : P.inStep .current c d) :
    P.AgreeOrPart (parseStmts Tables.standard offered bound c)
      (parseStmts Tables.standard offered bound d) := by
  induction bound generalizing P c d with
  | zero => exact .inl (.ok step)
  | succ bound ih =>
    have kinds := P.kind_of_current step
    by_cases stops : c.current.kind = .closeCurly ∨ c.current.kind = .eof
    · rw [parseStmts_of_stops stops, parseStmts_of_stops (kinds ▸ stops)]
      exact .inl (.ok step)
    · have stops' := stops
      rw [kinds] at stops'
      have agree : P.Agree .closed (attempt (parseStmt Tables.standard offered) c)
          (attempt (parseStmt Tables.standard offered) d) := Couples.agree P step
      generalize hc : attempt (parseStmt Tables.standard offered) c = one at agree
      generalize hd : attempt (parseStmt Tables.standard offered) d = two at agree
      cases agree with
      | @ok stmt? middle other h =>
        rw [parseStmts_of_ok stops hc, parseStmts_of_ok stops' hd]
        rcases P.goOn h with step | parted
        · exact (ih step).front stmt?.toList
        · have none := P.ahead_of_parted parted
          refine .inr ⟨stmt?.toList ++ [], _, _, ?_, parted, later_ended _ _⟩
          rw [bind_of_ok (parseStmts_of_nil Tables.standard offered bound none)]
          rfl
      | error h =>
        rw [parseStmts_of_error stops hc, parseStmts_of_error stops' hd]
        exact .inl (.error h)
      | lost h =>
        refine .inl (.lost (P.keeps h ?_ (hd ▸ later_parseStmts stops' bound)))
        cases one with
        | ok stmt? middle =>
          have settled := (settled_of_run _ (P.settled step).1 hc).advance
          have arrives : Visits middle .closed middle.advance .current := .advance .refl (by decide)
          have goesOn := ih (P := .along middle.advance .current) ⟨rfl, settled, .refl⟩
          rw [parseStmts_of_ok stops hc]
          exact arrives.trans (goesOn.front stmt?.toList).visits
        | error error last =>
          rw [parseStmts_of_error stops hc]
          exact .refl

def closeBlock (body : Block) : Parse Block := do
  let kind ← currentKind
  if kind = .closeCurly then return body
  else throw (.unexpectedToken .closeCurly kind)

instance (body : Block) : Moves (closeBlock body) := by
  unfold closeBlock
  infer_instance

theorem agree_closeBlock (step : P.inStep .current c d) (body : Block)
    (stops : c.current.kind = .closeCurly ∨ c.current.kind = .eof) :
    P.Agree .next (closeBlock body c) (closeBlock body d) := by
  rw [closeBlock, bind_of_ok (rfl : currentKind c = _), bind_of_ok (rfl : currentKind d = _),
    ← P.kind_of_current step]
  rcases stops with closes | ended
  · rw [if_pos closes]
    exact P.agree_read step (Token.readable_of_plain (by rw [closes]; rfl))
  · rw [ended, if_neg (by decide)]
    exact .of_or_error (P.unclosed step ended)

theorem closeBlock_of_nil (body : Block) (h : c.ahead = []) :
    closeBlock body c = .error (.unexpectedToken .closeCurly .eof) c := by
  have ended : c.current.kind = .eof := by
    rw [← Cursor.headKind_ahead, h]
    rfl
  rw [closeBlock, bind_of_ok (rfl : currentKind c = _), ended]
  rfl

omit [offered.Couples] in
/-- With every bound that is enough for the tokens in view, a block is its statements and its
end. -/
theorem parseBody_of_le (tables : Tables) {bound : Nat} (settled : c.Settled)
    (h : c.advance.remaining ≤ bound) :
    parseBody tables offered c = (parseStmts tables offered bound >>= closeBlock) c.advance :=
  remaining_bind (parseStmts_of_length_le tables offered settled.advance
    (Cursor.ahead_length_le_remaining c.advance) h)

instance : Couples (parseBody Tables.standard offered) .next .next := by
  refine ⟨fun P c d step => ?_⟩
  obtain ⟨hc, hd⟩ := P.settled step
  have start := P.advance step
  obtain ⟨bound, henoughc, henoughd⟩ : ∃ bound, c.advance.remaining ≤ bound ∧
    d.advance.remaining ≤ bound := ⟨_, Nat.le_max_left _ _, Nat.le_max_right _ _⟩
  have enough := Nat.le_trans (Cursor.ahead_length_le_remaining c.advance) henoughc
  rw [parseBody_of_le offered _ hc henoughc, parseBody_of_le offered _ hd henoughd]
  have stops : ∀ body last, parseStmts Tables.standard offered bound c.advance = .ok body last →
      last.current.kind = .closeCurly ∨ last.current.kind = .eof :=
    fun _ _ run => parseStmts_stops _ offered hc.advance enough run
  rcases agree_parseStmts offered bound start with agree | ⟨body, first, second, run, parted, later⟩
  · refine agree.bind (fun body last run => ?_) fun body last _ run step =>
      agree_closeBlock step body (stops body last run)
    have settled := settled_of_run _ hc.advance run
    exact (agree_closeBlock (P := .along last .current) ⟨rfl, settled, .refl⟩ body
      (stops body last run)).visits
  · apply Coupling.Agree.lost
    rw [bind_of_ok run, closeBlock_of_nil body (P.ahead_of_parted parted)]
    exact P.lost_of_parted parted (later.trans (later_ended_bind _ closeBlock _))

end Blocks

section Levels

variable {P : Coupling} {c d : Cursor} {power : BindingPower} {value : Expr}

theorem agree_applyNext {apply : OperatorForm → BindingPower → Parse Expr}
    (step : P.inStep .next c d)
    (h : ∀ form, Tables.standard.operator c.peek.kind = some form →
      P.Agree .next (apply form (Tables.standardPower c.peek.kind) c)
        (apply form (Tables.standardPower c.peek.kind) d)) :
    P.Agree .next (applyNext Tables.standard power value apply c)
      (applyNext Tables.standard power value apply d) := by
  rw [applyNext, bind_of_ok (rfl : peekKind c = _), bind_of_ok (rfl : peekKind d = _),
    ← (P.next step).2]
  by_cases goes : power < Tables.standard.power c.peek.kind
  · rw [if_pos goes]
    cases hform : Tables.standard.operator c.peek.kind with
    | none => exact .ok step
    | some form => exact h form hform
  · rw [if_neg goes]
    exact .ok step

instance level_couples (left : Nat) : (standardLevel left).Couples := by
  induction left with
  | zero =>
    refine ⟨fun _ => couples_tooDeep _ _, fun power value => ⟨fun P c d step => ?_⟩,
      couples_tooDeep _ _⟩
    rw [operators_zero]
    exact agree_applyNext step fun _ _ => (couples_tooDeep _ _).agree P step
  | succ below ih =>
    refine ⟨fun power => ?_, fun power value => ⟨fun P c d step => ?_⟩, ?_⟩
    · exact inferInstanceAs (Couples (openLevel _ >>= fun _ =>
        parseOperand Tables.standard (standardLevel below) >>= fun left =>
          (standardLevel below).operators power left) .current .next)
    · rw [operators_succ]
      refine agree_applyNext step fun form hform => ?_
      rw [bind_of_ok (rfl : openLevel _ c = _), bind_of_ok (rfl : openLevel _ d = _)]
      exact P.agree_stepOver (P.reach _ step) (Token.readable_of_plain (plain_of_operator hform))
    · exact inferInstanceAs (Couples (openLevel _ >>= fun _ =>
        parseBody Tables.standard (standardLevel below)) .next .next)

end Levels

section Programs

variable {offered : Level} {c d : Cursor}

theorem later_parseStmtsToEnd (offered : Level) [offered.Moves] (bound : Nat) (cursor : Cursor) :
    cursor.Later (parseStmtsToEnd Tables.standard offered bound cursor).2 := by
  induction bound generalizing cursor with
  | zero => exact .refl cursor
  | succ bound ih =>
    by_cases stops : cursor.current.kind = .eof
    · rw [parseStmtsToEnd_of_end _ _ _ stops]
      exact .refl cursor
    · rw [parseStmtsToEnd_succ stops]
      exact ((later_ended _ cursor).trans (.advance _)).trans (ih _)

/-- Two programs from where their runs were in step. -/
inductive Coupling.Accord (P : Coupling) (offered : Level) :
    List Stmt × Cursor → List Stmt × Cursor → Prop where
  | same {stmts : List Stmt} {c d : Cursor} (h : P.inStep .current c d) :
      Accord P offered (stmts, c) (stmts, d)
  | lost {first second : List Stmt × Cursor} (h : P.lost .current first.2 second.2) :
      Accord P offered first second
  /-- The second run goes on where the first one ends. -/
  | parted {stmts : List Stmt} {c d : Cursor} {bound : Nat} (h : P.parted c d)
      (enough : d.ahead.length ≤ bound) :
      Accord P offered (stmts, c)
        (stmts ++ (parseStmtsToEnd Tables.standard offered bound d).1,
          (parseStmtsToEnd Tables.standard offered bound d).2)

namespace Coupling.Accord

variable {P : Coupling} {first second : List Stmt × Cursor}

theorem front (h : P.Accord offered first second) (front : List Stmt) :
    P.Accord offered (front ++ first.1, first.2) (front ++ second.1, second.2) := by
  cases h with
  | same h => exact .same h
  | lost h => exact .lost h
  | parted h enough =>
    rw [← List.append_assoc]
    exact .parted h enough

theorem visits {origin : Cursor}
    (h : (Coupling.along origin .current).Accord offered first second) :
    Visits origin .current first.2 .current := by
  cases h with
  | same h => exact h.2.2
  | lost h => exact h.elim
  | parted h => exact h.elim

end Coupling.Accord

/-- Programs are parsed in step until the first run comes to its end. -/
theorem accord_parseStmtsToEnd (offered : Level) [offered.Moves] [offered.Couples]
    {P : Coupling} (bound : Nat) (step : P.inStep .current c d)
    (enough : max c.ahead.length d.ahead.length ≤ bound) :
    P.Accord offered (parseStmtsToEnd Tables.standard offered bound c)
      (parseStmtsToEnd Tables.standard offered bound d) := by
  induction bound generalizing P c d with
  | zero => exact .same step
  | succ bound ih =>
    have kinds := P.kind_of_current step
    by_cases stops : c.current.kind = .eof
    · rw [parseStmtsToEnd_of_end _ _ _ stops,
        parseStmtsToEnd_of_end _ _ _ (kinds ▸ stops)]
      exact .same step
    · have stops' := stops
      rw [kinds] at stops'
      obtain ⟨hc, hd⟩ := P.settled step
      have fewer := advance_length_of_round Tables.standard offered hc stops
      have fewer' := advance_length_of_round Tables.standard offered hd stops'
      have agree : P.Agree .closed (parseStmt Tables.standard offered c)
          (parseStmt Tables.standard offered d) := Couples.agree P step
      have settled := settled_ended (parseStmt Tables.standard offered) hc
      rw [parseStmtsToEnd_succ stops, parseStmtsToEnd_succ stops']
      generalize parseStmt Tables.standard offered c = one at *
      generalize parseStmt Tables.standard offered d = two at *
      have goesOn (h : P.inStep .closed (ended one) (ended two)) (front : List Stmt) :
          P.Accord offered
            (front ++ (parseStmtsToEnd Tables.standard offered bound (ended one).advance).1,
              (parseStmtsToEnd Tables.standard offered bound (ended one).advance).2)
            (front ++ (parseStmtsToEnd Tables.standard offered bound (ended two).advance).1,
              (parseStmtsToEnd Tables.standard offered bound (ended two).advance).2) := by
        rcases P.goOn h with step | parted
        · exact (ih step (by omega)).front front
        · rw [parseStmtsToEnd_of_nil _ _ _ (P.ahead_of_parted parted), List.append_nil]
          exact .parted parted (by omega)
      cases agree with
      | ok h => exact goesOn h _
      | error h => exact goesOn h _
      | lost h =>
        rw [endPlace_closed] at h
        have arrives : Visits (ended one) .closed (ended one).advance .current :=
          .advance .refl (by decide)
        have rest := ih (P := .along (ended one).advance .current) ⟨rfl, settled.advance, .refl⟩
          (by omega)
        exact .lost (P.keeps h (arrives.trans rest.visits)
          ((Cursor.Later.advance _).trans (later_parseStmtsToEnd offered bound _)))

theorem visits_parseStmtsToEnd (offered : Level) [offered.Moves] [offered.Couples] {bound : Nat}
    (settled : c.Settled) (enough : c.ahead.length ≤ bound) :
    Visits c .current (parseStmtsToEnd Tables.standard offered bound c).2 .current :=
  (accord_parseStmtsToEnd (P := .along c .current) offered bound ⟨rfl, settled, .refl⟩
    (by rwa [Nat.max_self])).visits

end Programs

end Monkey
