import Monkey.Proofs.Bounds
import Monkey.Proofs.Frame

set_option autoImplicit false

namespace Monkey

namespace Parser

variable {α : Type} {parser : Parser} {action : Parse α} {cursor : Cursor}

theorem run_bind {β : Type} {next : α → Parse β} {value : α}
    (h : action parser.cursor = .ok value cursor) :
    (parser.run fun _ => action >>= next) =
      Parser.run { parser with cursor } fun _ => next value := by
  simp only [run, Parse.bind_of_ok h]

def opened (parser : Parser) : Parser :=
  { parser with cursor := parser.cursor.reach (parser.depth + 1), depth := parser.depth + 1 }

theorem enterNesting_of_lt (room : parser.depth < maxNesting) :
    parser.enterNesting = (.ok (), parser.opened) :=
  if_neg (Nat.not_le_of_lt room)

theorem enterNesting_of_le (full : maxNesting ≤ parser.depth) : parser.enterNesting =
    (.error (.nestingTooDeep maxNesting), { parser with cursor := parser.cursor.abandon }) :=
  if_pos full

theorem run_opened (parser : Parser) (action : Parse α) :
    ((parser.opened.run fun _ => action).1,
        (parser.opened.run fun _ => action).2.restoreNesting parser.depth) =
      Parser.run { parser with cursor := parser.cursor.reach (parser.depth + 1) }
        fun _ => action := by
  cases ran : action (parser.cursor.reach (parser.depth + 1)) with
  | ok value last => simp only [run, opened, ran, restoreNesting]
  | error error last => simp only [run, opened, ran, restoreNesting]

end Parser

namespace Procedure

variable {α β : Type}

/-- What a procedure ends with, once the depth is put back. -/
def closed (depth : Nat) :
    EStateM.Result ParseError History α → Except ParseError α × Parser
  | .ok value after => (.ok value, after.now.restoreNesting depth)
  | .error error after => (.error error, after.now.restoreNesting depth)

def outcome : EStateM.Result ParseError History α → Except ParseError α × Parser
  | .ok value after => (.ok value, after.now)
  | .error error after => (.error error, after.now)

theorem outcome_snd (result : EStateM.Result ParseError History α) :
    (outcome result).2 = (leaves result).now := by
  cases result <;> rfl

theorem outcome_eq_closed {result : EStateM.Result ParseError History α} {depth : Nat}
    (kept : (leaves result).now.depth = depth) : outcome result = closed depth result := by
  subst kept
  cases result <;> rfl

/-- With certain tables and a certain number of levels left, a procedure does what an action does,
but for levels that it leaves open. -/
def Renders (tables : Tables) (left : Nat) (procedure : Procedure α) (action : Parse α) : Prop :=
  ∀ history : History, history.now.tables = tables → history.now.levelsLeft = left →
    closed history.now.depth (procedure history) = history.now.run fun _ => action

variable {tables : Tables} {left : Nat} {procedure : Procedure α} {action : Parse α}
  {next : α → Procedure β} {further : α → Parse β}

theorem renders_pure (value : α) : Renders tables left (pure value) (pure value) :=
  fun _ _ _ => rfl

theorem renders_throw (error : ParseError) :
    Renders tables left (throw error : Procedure α) (throw error) := fun _ _ _ => rfl

theorem renders_act (action : Parse α) : Renders tables left (act action) action := by
  intro history _ _
  cases ran : action history.now.cursor with
  | ok value cursor => rw [act, step, Parser.run_of_ok ran]; rfl
  | error error cursor => rw [act, step, Parser.run_of_error ran]; rfl

theorem Renders.ends [kept : Restores procedure] (h : Renders tables left procedure action)
    {history : History} (same : history.now.tables = tables)
    (levels : history.now.levelsLeft = left) :
    (∃ value cursor after, action history.now.cursor = .ok value cursor ∧
      procedure history = .ok value after ∧ after.now = { history.now with cursor }) ∨
    ∃ error cursor after, action history.now.cursor = .error error cursor ∧
      procedure history = .error error after ∧ after.now = { history.now with cursor } := by
  have ended : outcome (procedure history) = history.now.run fun _ => action :=
    (outcome_eq_closed (kept.depth history)).trans (h history same levels)
  cases ran : action history.now.cursor with
  | ok value cursor =>
    rw [Parser.run_of_ok ran] at ended
    cases run : procedure history with
    | ok other after =>
      rw [run, outcome] at ended
      obtain ⟨answer, last⟩ := Prod.mk.inj ended
      cases answer
      exact .inl ⟨value, cursor, after, rfl, rfl, last⟩
    | error error after =>
      rw [run, outcome] at ended
      cases (Prod.mk.inj ended).1
  | error error cursor =>
    rw [Parser.run_of_error ran] at ended
    cases run : procedure history with
    | ok value after =>
      rw [run, outcome] at ended
      cases (Prod.mk.inj ended).1
    | error other after =>
      rw [run, outcome] at ended
      obtain ⟨answer, last⟩ := Prod.mk.inj ended
      cases answer
      exact .inr ⟨error, cursor, after, rfl, rfl, last⟩

theorem Renders.bind [Restores procedure] (hfirst : Renders tables left procedure action)
    (hnext : ∀ value, Renders tables left (next value) (further value)) :
    Renders tables left (procedure >>= next) (action >>= further) := by
  intro history same levels
  rcases hfirst.ends same levels with
    ⟨value, cursor, middle, ran, run, last⟩ | ⟨error, cursor, middle, ran, run, last⟩
  · have later := hnext value middle (by rw [last]; exact same) (by rw [last]; exact levels)
    rw [last] at later
    rw [bind_of_ok run, Parser.run_bind ran]
    exact later
  · rw [bind_of_error run, Parser.run_of_error (Parse.bind_of_error ran), closed, last]
    rfl

theorem renders_tables {next : Tables → Procedure β} {further : Parse β}
    (h : Renders tables left (next tables) further) :
    Renders tables left (Procedure.tables >>= next) further := by
  intro history same levels
  rw [bind_of_ok (rfl : Procedure.tables history = _), same]
  exact h history same levels

theorem Renders.ite (condition : Prop) [Decidable condition] {other : Procedure α}
    {another : Parse α} (hfirst : Renders tables left procedure action)
    (hsecond : Renders tables left other another) :
    Renders tables left (if condition then procedure else other)
      (if condition then action else another) := by
  split
  · exact hfirst
  · exact hsecond

def attemptUnless (stops : ParseError → Bool) (action : Parse α) : Parse (Option α) :=
  fun cursor =>
    match action cursor with
    | .ok value after => .ok (some value) after
    | .error error after =>
      if stops error then .error error after else .ok none (after.record error)

theorem Renders.attempt [Restores procedure] (h : Renders tables left procedure action)
    (stops : ParseError → Bool) :
    Renders tables left (attempt stops procedure) (attemptUnless stops action) := by
  intro history same levels
  rcases h.ends same levels with
    ⟨value, cursor, after, ran, run, last⟩ | ⟨error, cursor, after, ran, run, last⟩
  · simp only [Procedure.attempt, run, closed, Parser.run, attemptUnless, ran, last]
    rfl
  · cases stopped : stops error with
    | true =>
      simp only [Procedure.attempt, run, stopped, if_true, closed, Parser.run, attemptUnless, ran,
        last]
      rfl
    | false =>
      simp only [Procedure.attempt, run, stopped, Bool.false_eq_true, if_false, closed, Parser.run,
        attemptUnless, ran, last]
      rfl

theorem Renders.afterCommas [Restores procedure] (h : Renders tables left procedure action)
    (bound : Nat) :
    Renders tables left (afterCommas procedure bound) (Parse.afterCommas action bound) := by
  induction bound with
  | zero => exact renders_pure []
  | succ bound ih =>
    refine (renders_act _).bind fun kind => Renders.ite _ ?_ (renders_pure [])
    exact (renders_act _).bind fun _ => h.bind fun first => ih.bind fun rest => renders_pure _

theorem Renders.bracketed [Restores procedure] (h : Renders tables left procedure action) :
    Renders tables left (bracketed procedure) (Parse.bracketed action) := by
  refine (renders_act _).bind fun kind =>
    Renders.ite _ ((renders_act _).bind fun _ => renders_pure []) ?_
  refine h.bind fun first => (renders_act _).bind fun bound => (h.afterCommas bound).bind ?_
  exact fun rest => (renders_act _).bind fun _ => renders_pure _

theorem renders_applyNext (power : BindingPower) (value : Expr)
    {apply : OperatorForm → BindingPower → Procedure Expr}
    {action : OperatorForm → BindingPower → Parse Expr}
    (h : ∀ form bound, Renders tables left (apply form bound) (action form bound)) :
    Renders tables left (applyNext power value apply)
      (Monkey.applyNext tables power value action) := by
  refine (renders_act _).bind fun kind => renders_tables (Renders.ite _ ?_ (renders_pure value))
  cases tables.operator kind with
  | some form => exact h form _
  | none => exact renders_pure value

theorem closed_closed (depth inner : Nat) (result : EStateM.Result ParseError History α) :
    closed depth result =
      ((closed inner result).1, (closed inner result).2.restoreNesting depth) := by
  cases result <;> rfl

theorem renders_enter (h : Renders tables left procedure action) :
    Renders tables (left + 1) (enter >>= fun _ => procedure)
      (Parse.openLevel (maxNesting - left) >>= fun _ => action) := by
  intro history same levels
  have room : maxNesting - history.now.depth = left + 1 := levels
  have depth : maxNesting - left = history.now.depth + 1 := by omega
  have run : enter history = .ok () (history.goOn history.now.opened) := by
    rw [enter, step, Parser.enterNesting_of_lt (by omega)]
  have opens : Parse.openLevel (maxNesting - left) history.now.cursor =
      .ok () (history.now.cursor.reach (history.now.depth + 1)) := by
    rw [depth]
    rfl
  have later := h (history.goOn history.now.opened) same
    (show maxNesting - (history.now.depth + 1) = left by omega)
  rw [bind_of_ok run, Parser.run_bind opens, closed_closed _ (history.now.depth + 1)]
  exact (congrArg (fun ended => (ended.1, ended.2.restoreNesting history.now.depth)) later).trans
    (history.now.run_opened action)

theorem renders_enter_full :
    Renders tables 0 (enter >>= fun _ => procedure) Parse.tooDeep := by
  intro history _ levels
  have full : maxNesting - history.now.depth = 0 := levels
  have run : enter history = .error (.nestingTooDeep maxNesting)
      (history.goOn { history.now with cursor := history.now.cursor.abandon }) := by
    rw [enter, step, Parser.enterNesting_of_le (by omega)]
  rw [bind_of_error run]
  rfl

theorem Renders.restoring (h : Renders tables left procedure action) :
    Renders tables left (restoring procedure) action := by
  intro history same levels
  rw [← h history same levels, Procedure.restoring]
  cases procedure history <;> rfl

end Procedure

open Procedure

/-- The calls do what a level offers, where its number of levels is left. -/
structure Calls.Render (tables : Tables) (left : Nat) (calls : Calls) : Prop where
  expression (power : BindingPower) :
    Renders tables left (calls.expression power) ((level tables left).expression power)
  block : Renders tables left calls.block (level tables left).block

namespace Calls.Render

variable {tables : Tables} {left : Nat} {calls : Calls} [calls.Restores]
  (h : calls.Render tables left)

include h

theorem unary : Renders tables left calls.unary (OperandForm.parseUnary (level tables left)) :=
  (renders_act _).bind fun _ => (renders_act _).bind fun _ =>
    (h.expression _).bind fun _ => renders_pure _

theorem grouping :
    Renders tables left calls.grouping (OperandForm.parseGrouping (level tables left)) :=
  (renders_act _).bind fun _ => (h.expression _).bind fun _ =>
    (renders_act _).bind fun _ => renders_pure _

theorem alternative :
    Renders tables left calls.alternative (OperandForm.parseAlternative (level tables left)) := by
  refine (renders_act _).bind fun kind => Renders.ite _ ?_ (renders_pure none)
  exact (renders_act _).bind fun _ => (renders_act _).bind fun _ =>
    h.block.bind fun _ => renders_pure _

theorem conditional :
    Renders tables left calls.conditional (OperandForm.parseConditional (level tables left)) := by
  refine (renders_act _).bind fun _ => (renders_act _).bind fun _ => ?_
  refine (h.expression _).bind fun condition => (renders_act _).bind fun _ => ?_
  refine (renders_act _).bind fun _ => h.block.bind fun consequence => ?_
  exact h.alternative.bind fun _ => renders_pure _

theorem function :
    Renders tables left calls.function (OperandForm.parseFunction (level tables left)) :=
  (renders_act _).bind fun _ => (renders_act _).bind fun _ => (renders_act _).bind fun _ =>
    h.block.bind fun _ => renders_pure _

theorem operandForm (form : OperandForm) :
    Renders tables left (calls.operandForm form) (form.parse (level tables left)) := by
  cases form with
  | primary => exact renders_act _
  | unary => exact h.unary
  | grouping => exact h.grouping
  | conditional => exact h.conditional
  | function => exact h.function

theorem operand :
    Renders tables left calls.operand (parseOperand tables (level tables left)) := by
  refine (renders_act _).bind fun token => renders_tables ?_
  cases tables.operand token.kind with
  | some form => exact h.operandForm form
  | none =>
    exact Renders.ite (token.kind = .illegal) (renders_throw (.illegalToken token.literal))
      (renders_throw (.noOperandForm token.kind))

theorem binary (value : Expr) (power : BindingPower) :
    Renders tables left (calls.binary value power)
      (OperatorForm.parseBinary (level tables left) value power) :=
  (renders_act _).bind fun _ => (renders_act _).bind fun _ =>
    (h.expression _).bind fun _ => renders_pure _

omit [calls.Restores] in
theorem argument :
    Renders tables left calls.argument (OperatorForm.parseArgument (level tables left)) :=
  (renders_act _).bind fun _ => h.expression _

theorem operatorForm (form : OperatorForm) (value : Expr) (power : BindingPower) :
    Renders tables left (calls.operatorForm form value power)
      (form.parse (level tables left) value power) := by
  cases form with
  | binary => exact h.binary value power
  | call => exact h.argument.bracketed.bind fun _ => renders_pure _

theorem statementForm (form : StatementForm) :
    Renders tables left (calls.statementForm form) (form.parse (level tables left)) := by
  cases form with
  | letBinding =>
    exact (renders_act _).bind fun _ => (renders_act _).bind fun _ => (renders_act _).bind fun _ =>
      (renders_act _).bind fun _ => (h.expression _).bind fun _ =>
      (renders_act _).bind fun _ => renders_pure _
  | returning =>
    exact (renders_act _).bind fun _ => (h.expression _).bind fun _ =>
      (renders_act _).bind fun _ => renders_pure _
  | block => exact h.block.bind fun _ => renders_pure _

theorem stmt : Renders tables left calls.stmt (parseStmt tables (level tables left)) := by
  refine (renders_act _).bind fun kind => renders_tables ?_
  cases tables.statement kind with
  | some form => exact h.statementForm form
  | none => exact (h.expression _).bind fun _ => (renders_act _).bind fun _ => renders_pure _

theorem stmts (bound : Nat) :
    Renders tables left (calls.stmts bound) (parseStmts tables (level tables left) bound) := by
  induction bound with
  | zero => exact renders_pure []
  | succ bound ih =>
    refine (renders_act _).bind fun kind => Renders.ite _ (renders_pure []) ?_
    refine (h.stmt.attempt ParseError.isFatal).bind fun stmt? => (renders_act _).bind fun _ => ?_
    exact ih.bind fun rest => renders_pure _

theorem body : Renders tables left calls.body (parseBody tables (level tables left)) := by
  refine (renders_act _).bind fun _ => (renders_act _).bind fun bound => ?_
  refine (h.stmts bound).bind fun body => (renders_act _).bind fun kind => ?_
  exact Renders.ite _ (renders_pure body) (renders_throw (.unexpectedToken .closeCurly kind))

end Calls.Render

section

variable {tables : Tables} {calls : Calls} [calls.Restores]

theorem renders_operators {left : Nat} (h : ∀ below < left, calls.Render tables below)
    {rounds : Nat} (enough : left < rounds) (power : BindingPower) (value : Expr) :
    Renders tables left (calls.operators power rounds value)
      ((level tables left).operators power value) := by
  induction rounds generalizing left value with
  | zero => exact absurd enough (Nat.not_lt_zero left)
  | succ rounds ih =>
    cases left with
    | zero => exact renders_applyNext power value fun form bound => renders_enter_full
    | succ below =>
      have inner := h below (Nat.lt_succ_self below)
      rw [operators_succ]
      refine renders_applyNext power value fun form bound => renders_enter ?_
      refine (renders_act _).bind fun _ => ?_
      refine (inner.operatorForm form value bound).bind fun whole => ?_
      exact ih (fun lower within => h lower (Nat.lt_succ_of_lt within))
        (Nat.lt_of_succ_lt_succ enough) whole

theorem renders_levels {left : Nat} (h : ∀ below < left, calls.Render tables below)
    (within : left ≤ maxNesting) (power : BindingPower) :
    Renders tables left (calls.levels power) ((level tables left).expression power) := by
  cases left with
  | zero => exact renders_enter_full
  | succ below =>
    refine renders_enter ((h below (Nat.lt_succ_self below)).operand.bind fun value => ?_)
    exact renders_operators (fun lower inside => h lower (Nat.lt_succ_of_lt inside)) within power
      value

theorem renders_block {left : Nat} (h : ∀ below < left, calls.Render tables below) :
    Renders tables left (do enter; calls.body) (level tables left).block := by
  cases left with
  | zero => exact renders_enter_full
  | succ below => exact renders_enter (h below (Nat.lt_succ_self below)).body

end

theorem callsWithin_render (tables : Tables) {number left : Nat} (within : left < number)
    (limit : number ≤ maxNesting + 1) : (callsWithin number).Render tables left := by
  induction number generalizing left with
  | zero => exact absurd within (Nat.not_lt_zero left)
  | succ number ih =>
    have inner (below : Nat) (inside : below < left) : (callsWithin number).Render tables below :=
      ih (by omega) (by omega)
    exact ⟨fun power => (renders_levels inner (by omega) power).restoring,
      (renders_block inner).restoring⟩

theorem allCalls_render (parser : Parser) : allCalls.Render parser.tables parser.levelsLeft :=
  callsWithin_render parser.tables (Nat.lt_succ_of_le (Nat.sub_le _ _)) (Nat.le_refl _)

/-- Statements to the end of the source, as an action that never fails. -/
def toEnd (tables : Tables) (offered : Level) (bound : Nat) : Parse Program := fun cursor =>
  .ok (parseStmtsToEnd tables offered bound cursor).1
    (parseStmtsToEnd tables offered bound cursor).2

theorem toEnd_succ (tables : Tables) (offered : Level) (bound : Nat) :
    toEnd tables offered (bound + 1) = (do
      let kind ← Parse.currentKind
      if kind = .eof then return []
      else
        let stmt? ← attemptUnless (fun _ => false) (parseStmt tables offered)
        Parse.advance
        let rest ← toEnd tables offered bound
        return stmt?.toList ++ rest) := by
  funext cursor
  rw [Parse.bind_of_ok (rfl : Parse.currentKind cursor = _), toEnd]
  by_cases stops : cursor.current.kind = .eof
  · rw [if_pos stops, parseStmtsToEnd_of_end _ _ _ stops]
    rfl
  · have caught : attemptUnless (fun _ => false) (parseStmt tables offered) cursor =
        .ok (Parse.given (parseStmt tables offered cursor))
          (Parse.ended (parseStmt tables offered cursor)) := by
      unfold attemptUnless
      cases parseStmt tables offered cursor <;> rfl
    rw [if_neg stops, parseStmtsToEnd_succ stops, Parse.bind_of_ok caught]
    rfl

section

variable {tables : Tables} {left : Nat} {calls : Calls} [calls.Restores]
  (h : calls.Render tables left)

include h

theorem Calls.Render.stmtsToEnd (bound : Nat) :
    Renders tables left (calls.stmtsToEnd bound) (toEnd tables (level tables left) bound) := by
  induction bound with
  | zero => exact renders_pure []
  | succ bound ih =>
    rw [toEnd_succ]
    refine (renders_act _).bind fun kind => Renders.ite _ (renders_pure []) ?_
    refine (h.stmt.attempt _).bind fun stmt? => (renders_act _).bind fun _ => ?_
    exact ih.bind fun rest => renders_pure _

theorem Calls.Render.program : Renders tables left calls.program
    (Parse.remaining >>= toEnd tables (level tables left)) :=
  (renders_act _).bind fun bound => h.stmtsToEnd bound

end

/-- A procedure and the operation that it performs for a parser: what they end with is the same, the
depth is that of the beginning and the tables are, no error is taken back, and at no moment of the
procedure is the depth above both its beginning and the limit. -/
structure Parser.Restored {α : Type} (parser : Parser) (procedure : Procedure α)
    (performed : Except ParseError α × Parser) : Prop where
  performs : outcome (procedure (.start parser)) = performed
  depth : performed.2.depth = parser.depth
  errors : parser.errors <+: performed.2.errors
  tables : performed.2.tables = parser.tables
  within : ∀ moment ∈ (leaves (procedure (.start parser))).moments,
    parser.depth ≤ moment.depth ∧ moment.depth ≤ max parser.depth maxNesting

theorem Parser.restored {α : Type} (parser : Parser) {procedure : Procedure α} {action : Parse α}
    [kept : Restores procedure]
    (h : Renders parser.tables parser.levelsLeft procedure action) :
    parser.Restored procedure (parser.run fun _ => action) := by
  have frame := kept.frame (.start parser)
  have depth := kept.depth (.start parser)
  have same : outcome (procedure (.start parser)) = parser.run fun _ => action :=
    (outcome_eq_closed depth).trans (h (.start parser) rfl rfl)
  have last : (leaves (procedure (.start parser))).now = (parser.run fun _ => action).2 := by
    rw [← same, outcome_snd]
  obtain ⟨passed, whole, within⟩ := frame.passed
  refine ⟨same, last ▸ depth, last ▸ frame.errors, last ▸ frame.tables, ?_⟩
  rw [History.moments, whole, History.start, List.append_nil]
  exact within

/-- Every operation leaves a parser at the depth at which it found it, with a value or with an
error, though levels are left open wherever an error leaves them. Nothing that was recorded is taken
back, the tables are not touched, and no moment in between is deeper than both the beginning and the
limit. -/
theorem Parser.operations_restored (parser : Parser) :
    (∀ power, parser.Restored (allCalls.expression power) (parser.parseExpression power)) ∧
    parser.Restored allCalls.stmt parser.parseStmt ∧
    parser.Restored allCalls.block parser.parseBlock ∧
    parser.Restored allCalls.program (parser.parseProgram.map .ok id) ∧
    (∀ form, parser.Restored (allCalls.operandForm form) (parser.parseOperandForm form)) ∧
    (∀ form left power, parser.Restored (allCalls.operatorForm form left power)
      (parser.parseOperatorForm form left power)) ∧
    ∀ form, parser.Restored (allCalls.statementForm form) (parser.parseStatementForm form) := by
  have render := allCalls_render parser
  refine ⟨fun power => ?_, ?_, ?_, ?_, fun form => ?_, fun form left power => ?_, fun form => ?_⟩
  · exact parser.restored (render.expression power)
  · exact parser.restored render.stmt
  · exact parser.restored render.block
  · exact parser.restored render.program
  · exact parser.restored (render.operandForm form)
  · exact parser.restored (render.operatorForm form left power)
  · exact parser.restored (render.statementForm form)

end Monkey
