import Mathlib.Algebra.GroupWithZero.Nat
import Monkey.Proofs.Loops

set_option autoImplicit false

/-!
# A token for every statement and every error

No two attempts at a statement begin at the same token, and each ends in one statement or in one
error. So the tokens to come and the errors so far pay for all statements.
-/
namespace Monkey

open Parse

mutual

/-- How many statements stand in the blocks of an expression, at all depths. -/
def Expr.stmts : Expr → Nat
  | .identifier _ => 0
  | .integer _ => 0
  | .boolean _ => 0
  | .unary _ operand => operand.stmts
  | .binary left _ right => left.stmts + right.stmts
  | .conditional condition consequence alternative =>
    condition.stmts + Block.stmts consequence + Block.stmtsElse alternative
  | .function _ body => Block.stmts body
  | .call callee arguments => callee.stmts + Expr.stmtsEach arguments

def Expr.stmtsEach : List Expr → Nat
  | [] => 0
  | value :: values => value.stmts + Expr.stmtsEach values

/-- How many statements stand within a statement, which does not count itself. -/
def Stmt.inner : Stmt → Nat
  | .letBinding _ value => value.stmts
  | .returning value => value.stmts
  | .expression value => value.stmts
  | .block body => Block.stmts body

def Block.stmts : List Stmt → Nat
  | [] => 0
  | stmt :: rest => 1 + stmt.inner + Block.stmts rest

def Block.stmtsElse : Option (List Stmt) → Nat
  | none => 0
  | some body => Block.stmts body

end

theorem Block.stmts_append (early late : List Stmt) :
    Block.stmts (early ++ late) = Block.stmts early + Block.stmts late := by
  induction early with
  | nil => rw [List.nil_append, Block.stmts, Nat.zero_add]
  | cons stmt rest ih => rw [List.cons_append, Block.stmts, Block.stmts, ih, Nat.add_assoc (1 + _)]

namespace Cursor

/-- The errors so far, and the tokens behind the current one. -/
def reserve (cursor : Cursor) : Nat := cursor.errors.length + cursor.after.length

def balance (cursor : Cursor) : Nat := cursor.errors.length + cursor.ahead.length

variable {cursor : Cursor}

theorem balance_advance (cursor : Cursor) : cursor.advance.balance = cursor.reserve := by
  rw [balance, reserve, errors_advance, ahead_advance]

theorem reserve_advance_le (settled : cursor.Settled) :
    cursor.advance.reserve ≤ cursor.reserve := by
  rw [reserve, reserve, errors_advance, after_advance settled, List.length_tail]
  omega

theorem reserve_le_balance (settled : cursor.Settled) : cursor.reserve ≤ cursor.balance := by
  rw [reserve, balance]
  by_cases ended : cursor.current.kind = .eof
  · have none := Cursor.ahead_of_end ended
    have behind := (ahead_eq_nil_of_after none settled).trans none.symm
    exact Nat.le_of_eq (congrArg (fun tokens => cursor.errors.length + tokens.length) behind)
  · rw [ahead_of_current ended, List.length_cons]
    omega

theorem balance_of_token (token : cursor.current.kind ≠ .eof) :
    cursor.balance = 1 + cursor.reserve := by
  rw [balance, reserve, ahead_of_current token, List.length_cons]
  omega

theorem reserve_record (cursor : Cursor) (error : ParseError) :
    (cursor.record error).reserve = 1 + cursor.reserve := by
  rw [reserve, reserve, errors_record, List.length_append, after_record, List.length_singleton]
  omega

theorem reserve_abandon_le (cursor : Cursor) : cursor.abandon.reserve ≤ cursor.reserve :=
  Nat.le_add_right _ _

end Cursor

namespace Parse

/-- What an action has used up: the size of its value, and the reserve that it leaves. -/
def spent {α : Type} (size : α → Nat) : EStateM.Result ParseError Cursor α → Nat
  | .ok value last => size value + last.reserve
  | .error _ last => last.reserve

/-- What an action gives is paid from the reserve, and from what is owed for the parts of it that
were read before. -/
def Pays {α : Type} (action : Parse α) (owed : Nat) (size : α → Nat) : Prop :=
  ∀ cursor : Cursor, cursor.Settled → spent size (action cursor) ≤ owed + cursor.reserve

section

variable {α β : Type} {first second : Parse α} {next : α → Parse β} {owed : Nat} {size : α → Nat}
  {goal : β → Nat}

theorem pays_pure {value : α} (h : size value = owed) : Pays (pure value) owed size :=
  fun cursor _ => Nat.le_of_eq (congrArg (· + cursor.reserve) h)

theorem pays_throw (error : ParseError) : Pays (throw error) owed size :=
  fun _ _ => Nat.le_add_left _ _

theorem pays_tooDeep : Pays (tooDeep : Parse α) owed size := fun cursor _ =>
  Nat.le_trans (Cursor.reserve_abandon_le cursor) (Nat.le_add_left _ _)

theorem Pays.bind [Moves first] (hfirst : Pays first owed size)
    (hnext : ∀ value, Pays (next value) (size value) goal) : Pays (first >>= next) owed goal := by
  intro cursor settled
  have early := hfirst cursor settled
  cases run : first cursor with
  | error error last =>
    rw [run] at early
    rwa [bind_of_error run]
  | ok value middle =>
    rw [run] at early
    rw [bind_of_ok run]
    exact Nat.le_trans (hnext value middle (settled_of_run first settled run)) early

theorem Pays.owing (h : Pays first 0 size) (owed : Nat) :
    Pays first owed fun value => owed + size value := by
  intro cursor settled
  have paid := h cursor settled
  cases run : first cursor with
  | ok value last =>
    rw [run, spent] at paid
    rw [spent]
    omega
  | error error last =>
    rw [run, spent] at paid
    rw [spent]
    omega

class Free (action : Parse α) : Prop where
  reserve_le {cursor : Cursor} (settled : cursor.Settled) :
    (leaves (action cursor)).reserve ≤ cursor.reserve

theorem Pays.after [Moves first] [free : Free first]
    (hnext : ∀ value, Pays (next value) owed goal) :
    Pays (first >>= next) owed goal := by
  have kept : Pays first owed fun _ => owed := by
    intro cursor settled
    have paid := free.reserve_le settled
    cases run : first cursor with
    | ok value last =>
      rw [run] at paid
      exact Nat.add_le_add_left paid owed
    | error error last =>
      rw [run] at paid
      exact Nat.le_trans paid (Nat.le_add_left _ _)
  exact kept.bind hnext

theorem Pays.ite {condition : Prop} [Decidable condition] (hfirst : Pays first owed size)
    (hsecond : Pays second owed size) : Pays (if condition then first else second) owed size := by
  split
  · exact hfirst
  · exact hsecond

instance : Free current := ⟨fun _ => Nat.le_refl _⟩

instance : Free currentKind := ⟨fun _ => Nat.le_refl _⟩

instance : Free peekKind := ⟨fun _ => Nat.le_refl _⟩

instance : Free remaining := ⟨fun _ => Nat.le_refl _⟩

instance (depth : Nat) : Free (openLevel depth) := ⟨fun _ => Nat.le_refl _⟩

instance : Free advance := ⟨Cursor.reserve_advance_le⟩

instance (kind : TokenKind) : Free (expectPeek kind) := by
  refine ⟨fun settled => ?_⟩
  unfold expectPeek
  split
  · exact Cursor.reserve_advance_le settled
  · exact Nat.le_refl _

instance : Free skipSemicolon := by
  refine ⟨fun settled => ?_⟩
  unfold skipSemicolon
  split
  · exact Cursor.reserve_advance_le settled
  · exact Nat.le_refl _

theorem Pays.afterCommas [Moves first] (h : Pays first 0 size) (bound : Nat) :
    Pays (afterCommas first bound) 0 fun values => (values.map size).sum := by
  induction bound with
  | zero => exact pays_pure rfl
  | succ bound ih =>
    refine Pays.after fun _ => Pays.ite (Pays.after fun _ => ?_) (pays_pure rfl)
    refine h.bind fun value => (ih.owing (size value)).bind fun values => pays_pure ?_
    rw [List.map_cons, List.sum_cons]

theorem Pays.bracketed [Moves first] (h : Pays first 0 size) :
    Pays (bracketed first) 0 fun values => (values.map size).sum := by
  refine Pays.after fun _ => Pays.ite (Pays.after fun _ => pays_pure rfl) ?_
  refine h.bind fun value => Pays.after fun bound => ?_
  refine ((h.afterCommas bound).owing (size value)).bind fun values => Pays.after fun _ => ?_
  refine pays_pure ?_
  rw [List.map_cons, List.sum_cons]

end

end Parse

theorem Expr.stmtsEach_eq (values : List Expr) :
    Expr.stmtsEach values = (values.map Expr.stmts).sum := by
  induction values with
  | nil => rfl
  | cons value values ih => rw [Expr.stmtsEach, ih, List.map_cons, List.sum_cons]

structure Level.Pays (offered : Level) : Prop where
  expression (power : BindingPower) : Parse.Pays (offered.expression power) 0 Expr.stmts
  operators (power : BindingPower) (value : Expr) :
    Parse.Pays (offered.operators power value) value.stmts Expr.stmts
  block : Parse.Pays offered.block 0 Block.stmts

section Forms

variable {offered : Level} [offered.Moves]

theorem pays_parsePrimary : Pays OperandForm.parsePrimary 0 Expr.stmts := by
  refine Pays.after fun token => ?_
  split
  · exact pays_pure rfl
  · exact pays_pure rfl
  · exact pays_pure rfl
  · split
    · exact pays_pure rfl
    · exact pays_throw _
  · exact pays_throw _

theorem pays_parseParameter : Pays OperandForm.parseParameter 0 fun _ => 0 :=
  Pays.after fun _ => Pays.after fun _ => pays_pure rfl

theorem Level.Pays.alternative (h : offered.Pays) :
    Parse.Pays (OperandForm.parseAlternative offered) 0 Block.stmtsElse := by
  refine Pays.after fun _ => Pays.ite ?_ (pays_pure rfl)
  refine Pays.after fun _ => Pays.after fun _ => h.block.bind fun body => ?_
  exact pays_pure rfl

theorem Level.Pays.operandForm (h : offered.Pays) (form : OperandForm) :
    Parse.Pays (form.parse offered) 0 Expr.stmts := by
  cases form with
  | primary => exact pays_parsePrimary
  | unary =>
    refine Pays.after fun _ => Pays.after fun _ => (h.expression .unary).bind fun operand => ?_
    exact pays_pure rfl
  | grouping =>
    refine Pays.after fun _ => (h.expression .lowest).bind fun value => Pays.after fun _ => ?_
    exact pays_pure rfl
  | conditional =>
    refine Pays.after fun _ => Pays.after fun _ => ?_
    refine (h.expression .lowest).bind fun condition => ?_
    refine Pays.after fun _ => Pays.after fun _ => ?_
    refine (h.block.owing condition.stmts).bind fun consequence => ?_
    exact (h.alternative.owing _).bind fun alternative => pays_pure rfl
  | function =>
    refine Pays.after fun _ => pays_parseParameter.bracketed.bind fun parameters => ?_
    have none : (parameters.map fun _ => (0 : Nat)).sum = 0 := by
      rw [List.map_const', List.sum_replicate_nat, Nat.mul_zero]
    rw [none]
    exact Pays.after fun _ => h.block.bind fun body => pays_pure rfl

theorem Level.Pays.operand (h : offered.Pays) (tables : Tables) :
    Parse.Pays (parseOperand tables offered) 0 Expr.stmts := by
  refine Pays.after fun token => ?_
  split
  · exact h.operandForm _
  · exact Pays.ite (pays_throw _) (pays_throw _)

theorem Level.Pays.operatorForm (h : offered.Pays) (form : OperatorForm) (value : Expr)
    (power : BindingPower) :
    Parse.Pays (form.parse offered value power) value.stmts Expr.stmts := by
  cases form with
  | binary =>
    refine Pays.after fun _ => Pays.after fun _ => ?_
    exact ((h.expression power).owing value.stmts).bind fun right => pays_pure rfl
  | call =>
    have argument : Parse.Pays (OperatorForm.parseArgument offered) 0 Expr.stmts :=
      Pays.after fun _ => h.expression .lowest
    refine (argument.bracketed.owing value.stmts).bind fun arguments => pays_pure ?_
    rw [Expr.stmts, Expr.stmtsEach_eq]

omit [offered.Moves] in
theorem pays_applyNext (tables : Tables) (power : BindingPower) (value : Expr)
    {apply : OperatorForm → BindingPower → Parse Expr}
    (h : ∀ form bound, Pays (apply form bound) value.stmts Expr.stmts) :
    Pays (applyNext tables power value apply) value.stmts Expr.stmts := by
  refine Pays.after fun kind => Pays.ite ?_ (pays_pure rfl)
  split
  · exact h _ _
  · exact pays_pure rfl

theorem Level.Pays.terminated (h : offered.Pays) {build : Expr → Stmt}
    (same : ∀ value, (build value).inner = value.stmts) :
    Parse.Pays (offered.expression .lowest >>= fun value => skipSemicolon >>= fun _ =>
      pure (build value)) 0 Stmt.inner := by
  refine (h.expression .lowest).bind fun value => Pays.after fun _ => ?_
  exact pays_pure (same value)

theorem Level.Pays.statement (h : offered.Pays) (tables : Tables) :
    Parse.Pays (parseStmt tables offered) 0 Stmt.inner := by
  refine Pays.after fun kind => ?_
  split
  · rename_i form _
    cases form with
    | letBinding =>
      refine Pays.after fun _ => Pays.after fun name => Pays.after fun _ => Pays.after fun _ => ?_
      exact h.terminated fun _ => rfl
    | returning => exact Pays.after fun _ => h.terminated fun _ => rfl
    | block => exact h.block.bind fun body => pays_pure rfl
  · exact h.terminated fun _ => rfl

theorem Level.Pays.attempted (h : offered.Pays) (tables : Tables) :
    Parse.Pays (attempt (parseStmt tables offered)) 1 fun stmt? => Block.stmts stmt?.toList := by
  intro cursor settled
  have paid := h.statement tables cursor settled
  unfold attempt
  generalize parseStmt tables offered cursor = result at paid
  cases result with
  | ok stmt last =>
    rw [spent] at paid
    rw [spent, Option.toList_some, Block.stmts, Block.stmts]
    omega
  | error error last =>
    rw [spent] at paid
    dsimp only
    split
    · rw [spent]
      omega
    · rw [spent, Cursor.reserve_record, Option.toList_none, Block.stmts]
      omega

theorem Level.Pays.statements (h : offered.Pays) (tables : Tables) (bound : Nat) {cursor : Cursor}
    (settled : cursor.Settled) :
    spent Block.stmts (parseStmts tables offered bound cursor) ≤ cursor.balance := by
  have stays : spent Block.stmts (.ok [] cursor) ≤ cursor.balance := by
    rw [spent, Block.stmts, Nat.zero_add]
    exact Cursor.reserve_le_balance settled
  induction bound generalizing cursor with
  | zero => exact stays
  | succ bound ih =>
    rw [parseStmts, bind_of_ok (rfl : currentKind cursor = _)]
    split
    · exact stays
    · rename_i inside
      have round := h.attempted tables cursor settled
      rw [← Cursor.balance_of_token fun ended => inside (.inr ended)] at round
      cases run : attempt (parseStmt tables offered) cursor with
      | error error last =>
        rw [run] at round
        rwa [bind_of_error run]
      | ok stmt? middle =>
        have settled' := (settled_of_run _ settled run).advance
        have later := ih settled' (by
          rw [spent, Block.stmts, Nat.zero_add]
          exact Cursor.reserve_le_balance settled')
        rw [run, spent] at round
        rw [Cursor.balance_advance] at later
        rw [bind_of_ok run, bind_of_ok (rfl : advance middle = _)]
        cases rest : parseStmts tables offered bound middle.advance with
        | error error last =>
          rw [rest] at later
          rw [bind_of_error rest]
          exact Nat.le_trans later (by omega)
        | ok others last =>
          rw [rest, spent] at later
          rw [bind_of_ok rest]
          change Block.stmts (stmt?.toList ++ others) + last.reserve ≤ cursor.balance
          rw [Block.stmts_append]
          omega

theorem Level.Pays.body (h : offered.Pays) (tables : Tables) :
    Parse.Pays (parseBody tables offered) 0 Block.stmts := by
  intro cursor settled
  have paid := h.statements tables cursor.advance.remaining settled.advance
  rw [Cursor.balance_advance] at paid
  rw [parseBody, bind_of_ok (rfl : advance cursor = _), bind_of_ok (rfl : remaining _ = _),
    Nat.zero_add]
  cases run : parseStmts tables offered cursor.advance.remaining cursor.advance with
  | error error last =>
    rw [run] at paid
    rwa [bind_of_error run]
  | ok body last =>
    rw [run] at paid
    rw [bind_of_ok run, bind_of_ok (rfl : currentKind last = _)]
    split
    · exact paid
    · exact Nat.le_trans (Nat.le_add_left _ _) paid

end Forms

theorem level_pays (tables : Tables) (left : Nat) : (level tables left).Pays := by
  induction left with
  | zero =>
    refine ⟨fun _ => pays_tooDeep, fun power value => ?_, pays_tooDeep⟩
    exact pays_applyNext tables power value fun _ _ => pays_tooDeep
  | succ below ih =>
    refine ⟨fun power => ?_, fun power value => ?_, ?_⟩
    · refine Pays.after fun _ => (ih.operand tables).bind fun value => ?_
      exact ih.operators power value
    · rw [operators_succ]
      refine pays_applyNext tables power value fun form bound => ?_
      refine Pays.after fun _ => Pays.after fun _ => ?_
      exact (ih.operatorForm form value bound).bind fun whole => ih.operators power whole
    · exact Pays.after fun _ => ih.body tables

/-- The statements of a program, at all depths, and its errors take a token each. -/
theorem stmts_parseStmtsToEnd_le (tables : Tables) (left bound : Nat) {cursor : Cursor}
    (settled : cursor.Settled) :
    Block.stmts (parseStmtsToEnd tables (level tables left) bound cursor).1 +
      (parseStmtsToEnd tables (level tables left) bound cursor).2.errors.length ≤
        cursor.balance := by
  have stays (cursor : Cursor) : Block.stmts [] + cursor.errors.length ≤ cursor.balance := by
    rw [Block.stmts, Nat.zero_add]
    exact Nat.le_add_right _ _
  induction bound generalizing cursor with
  | zero => exact stays cursor
  | succ bound ih =>
    by_cases stops : cursor.current.kind = .eof
    · rw [parseStmtsToEnd_of_end _ _ _ stops]
      exact stays cursor
    · have paid := (level_pays tables left).statement tables cursor settled
      have later := ih (settled_ended (parseStmt tables (level tables left)) settled).advance
      rw [Cursor.balance_advance] at later
      rw [parseStmtsToEnd_succ stops, Cursor.balance_of_token stops, Block.stmts_append]
      cases run : parseStmt tables (level tables left) cursor with
      | ok stmt last =>
        rw [run, spent] at paid
        rw [run, ended] at later
        rw [given, ended, Option.toList_some, Block.stmts, Block.stmts]
        dsimp only
        omega
      | error error last =>
        rw [run, spent] at paid
        rw [run, ended, Cursor.reserve_record] at later
        rw [given, ended, Option.toList_none, Block.stmts]
        dsimp only
        omega

/-- Whatever forms and powers a grammar has for the kinds of tokens, the end among them: every loop
ends by itself, with any number of levels left, so that a parser on a new source comes to an end;
and the statements of its program, at all depths, and its errors are together no more than the
tokens before the first end of the source. -/
theorem parseProgram_ends (tables : Tables) (source : List (Option Token)) (depth : Nat) :
    let parser : Parser := ⟨tables, Cursor.ofSource source, depth⟩
    (∀ left, (level tables left).Halts tables) ∧
      (∀ result, Loop hasToken (programRound tables (level tables parser.levelsLeft))
        parser.cursor result ↔
          .ok parser.parseProgram.1 parser.parseProgram.2.cursor = result) ∧
      parser.parseProgram.2.hasTokens = false ∧
      Block.stmts parser.parseProgram.1 + parser.parseProgram.2.errors.length ≤
        (untilEnd source).length := by
  intro parser
  have settled := Cursor.settled_ofSource source
  refine ⟨fun left => level_halts tables (level tables left),
    (level_halts tables (level tables parser.levelsLeft)).program settled, ?_, ?_⟩
  · have none := ahead_parseStmtsToEnd tables (level tables parser.levelsLeft) settled
      (Cursor.ahead_length_le_remaining (Cursor.ofSource source))
    rw [Cursor.ahead_eq_nil_iff] at none
    rw [Parser.hasTokens]
    exact congrArg not none
  · have paid := stmts_parseStmtsToEnd_le tables parser.levelsLeft parser.cursor.remaining settled
    rwa [Cursor.balance, Cursor.errors_ofSource, Cursor.ahead_ofSource, List.length_nil,
      Nat.zero_add] at paid

end Monkey
