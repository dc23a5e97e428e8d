import Monkey.Proofs.Moves
import Monkey.Proofs.Procedures

set_option autoImplicit false

namespace Monkey

/-- What may have become of a history: the same tables, further errors, and moments at which the
depth was between that at the beginning and the limit. -/
structure History.Frame (history after : History) : Prop where
  tables : after.now.tables = history.now.tables
  errors : history.now.errors <+: after.now.errors
  passed : ∃ passed, after.past = passed ++ history.past ∧
    ∀ moment ∈ after.now :: passed,
      history.now.depth ≤ moment.depth ∧ moment.depth ≤ max history.now.depth maxNesting

namespace History.Frame

variable {history middle after : History} {parser : Parser}

theorem refl (history : History) : history.Frame history :=
  ⟨rfl, List.prefix_refl _, [], rfl, fun moment member => by
    rw [List.mem_singleton.1 member]
    exact ⟨Nat.le_refl _, Nat.le_max_left _ _⟩⟩

theorem trans (first : history.Frame middle) (later : middle.Frame after) :
    history.Frame after := by
  obtain ⟨before, hbefore, within⟩ := first.passed
  obtain ⟨behind, hbehind, further⟩ := later.passed
  have start := within middle.now List.mem_cons_self
  refine ⟨later.tables.trans first.tables, first.errors.trans later.errors, behind ++ before,
    by rw [hbehind, hbefore, List.append_assoc], fun moment member => ?_⟩
  rw [← List.cons_append, List.mem_append] at member
  rcases member with member | member
  · have here := further moment member
    omega
  · exact within moment (List.mem_cons_of_mem _ member)

theorem goOn (h : history.Frame middle) (tables : parser.tables = middle.now.tables)
    (errors : middle.now.errors <+: parser.errors) (low : history.now.depth ≤ parser.depth)
    (high : parser.depth ≤ max history.now.depth maxNesting) :
    history.Frame (middle.goOn parser) := by
  obtain ⟨passed, whole, within⟩ := h.passed
  refine ⟨tables.trans h.tables, h.errors.trans errors, middle.now :: passed,
    congrArg (List.cons _) whole, fun moment member => ?_⟩
  rcases List.mem_cons.1 member with rfl | member
  · exact ⟨low, high⟩
  · exact within moment member

end History.Frame

theorem Parser.errors_run {α : Type} (parser : Parser) (action : Level → Parse α)
    [h : Parse.Moves (action (level parser.tables parser.levelsLeft))] :
    parser.errors <+: (parser.run action).2.errors := by
  obtain ⟨trail, moved⟩ := h.trail parser.cursor
  have last : (parser.run action).2.cursor = parser.cursor.moves trail := by
    rw [← moved, run]
    cases action (level parser.tables parser.levelsLeft) parser.cursor <;> rfl
  exact ⟨_, by rw [errors, errors, last, Cursor.errors_moves]⟩

namespace Procedure

def leaves {α : Type} : EStateM.Result ParseError History α → History
  | .ok _ after => after
  | .error _ after => after

/-- A procedure that may leave levels open. -/
class Framed {α : Type} (procedure : Procedure α) : Prop where
  frame (history : History) : history.Frame (leaves (procedure history))

/-- A procedure that leaves no levels open. -/
class Restores {α : Type} (procedure : Procedure α) : Prop extends Framed procedure where
  depth (history : History) : (leaves (procedure history)).now.depth = history.now.depth

section

variable {α β : Type} {first : Procedure α} {next : α → Procedure β} {history middle : History}

theorem bind_of_ok {value : α} (h : first history = .ok value middle) :
    (first >>= next) history = next value middle := by
  change EStateM.bind first next history = _
  simp [EStateM.bind, h]

theorem bind_of_error {error : ParseError} (h : first history = .error error middle) :
    (first >>= next) history = .error error middle := by
  change EStateM.bind first next history = _
  simp [EStateM.bind, h]

end

section

variable {α β : Type}

instance (value : α) : Restores (pure value : Procedure α) where
  frame := .refl
  depth _ := rfl

instance (error : ParseError) : Restores (throw error : Procedure α) where
  frame := .refl
  depth _ := rfl

instance : Restores tables where
  frame := .refl
  depth _ := rfl

instance (action : Parse α) [Parse.Moves action] : Restores (act action) := by
  have kept (history : History) :
      leaves (act action history) = history.goOn (history.now.run fun _ => action).2 := by
    rw [act, step]
    cases history.now.run fun _ => action with
    | mk answer after => cases answer <;> rfl
  have same (history : History) : ∃ cursor,
      (history.now.run fun _ => action).2 = { history.now with cursor } := by
    rw [Parser.run]
    cases action history.now.cursor <;> exact ⟨_, rfl⟩
  refine { frame := fun history => ?_, depth := fun history => ?_ }
  · have errors := history.now.errors_run fun _ => action
    rw [kept]
    obtain ⟨cursor, last⟩ := same history
    rw [last] at errors ⊢
    exact (History.Frame.refl history).goOn rfl errors (Nat.le_refl _) (Nat.le_max_left _ _)
  · obtain ⟨cursor, last⟩ := same history
    rw [kept, last]
    rfl

instance : Framed enter := by
  refine ⟨fun history => ?_⟩
  have start := History.Frame.refl history
  unfold enter step Parser.enterNesting
  by_cases full : maxNesting ≤ history.now.depth
  · rw [if_pos full]
    exact start.goOn rfl (List.prefix_refl _) (Nat.le_refl _) (Nat.le_max_left _ _)
  · rw [if_neg full]
    exact start.goOn rfl (List.prefix_refl _) (Nat.le_succ _)
      (Nat.le_trans (Nat.lt_of_not_le full) (Nat.le_max_right _ _))

instance (first : Procedure α) (next : α → Procedure β) [hfirst : Framed first]
    [hnext : ∀ value, Framed (next value)] : Framed (first >>= next) := by
  refine ⟨fun history => ?_⟩
  have early := hfirst.frame history
  cases run : first history with
  | ok value middle =>
    rw [bind_of_ok run]
    rw [run] at early
    exact early.trans ((hnext value).frame middle)
  | error error middle =>
    rw [bind_of_error run]
    rwa [run] at early

instance (first : Procedure α) (next : α → Procedure β) [hfirst : Restores first]
    [hnext : ∀ value, Restores (next value)] : Restores (first >>= next) where
  frame := Framed.frame
  depth history := by
    have early := hfirst.depth history
    cases run : first history with
    | ok value middle =>
      rw [bind_of_ok run]
      rw [run] at early
      exact ((hnext value).depth middle).trans early
    | error error middle =>
      rw [bind_of_error run]
      rwa [run] at early

instance (condition : Prop) [Decidable condition] (first second : Procedure α) [Restores first]
    [Restores second] : Restores (if condition then first else second) := by
  split <;> infer_instance

instance (body : Procedure α) [h : Framed body] : Restores (restoring body) := by
  have closed (history : History) : ∃ after, history.Frame after ∧
      leaves (restoring body history) =
        after.goOn (after.now.restoreNesting history.now.depth) := by
    have frame := h.frame history
    unfold restoring
    cases run : body history with
    | ok value after => exact ⟨after, by rwa [run] at frame, rfl⟩
    | error error after => exact ⟨after, by rwa [run] at frame, rfl⟩
  refine { frame := fun history => ?_, depth := fun history => ?_ }
  · obtain ⟨after, frame, last⟩ := closed history
    rw [last]
    exact frame.goOn rfl (List.prefix_refl _) (Nat.le_refl _) (Nat.le_max_left _ _)
  · obtain ⟨after, -, last⟩ := closed history
    rw [last]
    rfl

instance (stops : ParseError → Bool) (body : Procedure α) [h : Restores body] :
    Restores (attempt stops body) := by
  have ended (history : History) : leaves (attempt stops body history) =
        leaves (body history) ∨ ∃ error, leaves (attempt stops body history) =
        (leaves (body history)).goOn ((leaves (body history)).now.recordError error) := by
    unfold attempt
    cases body history with
    | ok value after => exact .inl rfl
    | error error after =>
      dsimp only
      split
      · exact .inl rfl
      · exact .inr ⟨error, rfl⟩
  refine { frame := fun history => ?_, depth := fun history => ?_ }
  · have frame := h.frame history
    have depth := h.depth history
    rcases ended history with last | ⟨error, last⟩
    · rwa [last]
    · rw [last]
      refine frame.goOn rfl ?_ (Nat.le_of_eq depth.symm)
        (Nat.le_trans (Nat.le_of_eq depth) (Nat.le_max_left _ _))
      exact ⟨[error], (Cursor.errors_record _ error).symm⟩
  · have depth := h.depth history
    rcases ended history with last | ⟨error, last⟩
    · rwa [last]
    · rw [last]
      exact depth

instance (item : Procedure α) [Restores item] (bound : Nat) :
    Restores (afterCommas item bound) := by
  induction bound with
  | zero => exact inferInstanceAs (Restores (pure []))
  | succ bound ih => unfold afterCommas; infer_instance

instance (item : Procedure α) [Restores item] : Restores (bracketed item) := by
  unfold bracketed
  infer_instance

end

end Procedure

open Procedure

class Calls.Restores (calls : Calls) : Prop where
  expression (power : BindingPower) : Procedure.Restores (calls.expression power)
  block : Procedure.Restores calls.block

namespace Calls

variable (calls : Calls) [h : calls.Restores]

instance (power : BindingPower) : Procedure.Restores (calls.expression power) :=
  h.expression power

instance : Procedure.Restores calls.block := h.block

instance : Procedure.Restores calls.alternative := by
  unfold alternative
  infer_instance

instance : Procedure.Restores calls.argument := by
  unfold argument
  infer_instance

-- The longest form is a sequence of eight procedures.
set_option synthInstance.maxSize 512 in
instance (form : OperandForm) : Procedure.Restores (calls.operandForm form) := by
  cases form with
  | primary => exact inferInstanceAs (Procedure.Restores (act OperandForm.parsePrimary))
  | unary => unfold operandForm unary; infer_instance
  | grouping => unfold operandForm grouping; infer_instance
  | conditional => unfold operandForm conditional; infer_instance
  | function => unfold operandForm function; infer_instance

instance (form : OperatorForm) (left : Expr) (power : BindingPower) :
    Procedure.Restores (calls.operatorForm form left power) := by
  cases form with
  | binary => unfold operatorForm binary; infer_instance
  | call => unfold operatorForm call; infer_instance

set_option synthInstance.maxSize 256 in
instance (form : StatementForm) : Procedure.Restores (calls.statementForm form) := by
  cases form with
  | letBinding => unfold statementForm letBinding; infer_instance
  | returning => unfold statementForm returning; infer_instance
  | block => unfold statementForm blockStmt; infer_instance

instance : Procedure.Restores calls.stmt := by
  unfold stmt
  refine @instRestoresBind _ _ _ _ _ fun kind => @instRestoresBind _ _ _ _ _ fun tables => ?_
  split
  · infer_instance
  · unfold expressionStmt
    infer_instance

instance (bound : Nat) : Procedure.Restores (calls.stmts bound) := by
  induction bound with
  | zero => exact inferInstanceAs (Procedure.Restores (pure []))
  | succ bound ih => unfold stmts; infer_instance

instance : Procedure.Restores calls.body := by
  unfold body
  infer_instance

instance : Procedure.Restores calls.operand := by
  unfold operand
  refine @instRestoresBind _ _ _ _ _ fun token => @instRestoresBind _ _ _ _ _ fun tables => ?_
  split <;> infer_instance

instance (power : BindingPower) (rounds : Nat) (left : Expr) :
    Framed (calls.operators power rounds left) := by
  induction rounds generalizing left with
  | zero => exact inferInstanceAs (Framed (pure left))
  | succ rounds ih =>
    unfold operators Procedure.applyNext
    refine @instFramedBind _ _ _ _ _ fun kind => @instFramedBind _ _ _ _ _ fun tables => ?_
    split
    · split <;> infer_instance
    · infer_instance

instance (power : BindingPower) : Framed (calls.levels power) := by
  unfold levels
  infer_instance

instance (bound : Nat) : Procedure.Restores (calls.stmtsToEnd bound) := by
  induction bound with
  | zero => exact inferInstanceAs (Procedure.Restores (pure []))
  | succ bound ih => unfold stmtsToEnd; infer_instance

instance : Procedure.Restores calls.program := by
  unfold program
  infer_instance

end Calls

/-- However many calls are nested, they close their levels. -/
instance callsWithin_restores (number : Nat) : (callsWithin number).Restores := by
  induction number with
  | zero =>
    exact ⟨fun _ => inferInstanceAs (Procedure.Restores (throw _)),
      inferInstanceAs (Procedure.Restores (throw _))⟩
  | succ number ih =>
    refine ⟨fun power => ?_, ?_⟩
    · exact inferInstanceAs (Procedure.Restores (restoring ((callsWithin number).levels power)))
    · exact inferInstanceAs (Procedure.Restores (restoring do
        enter
        (callsWithin number).body))

instance : allCalls.Restores := callsWithin_restores _

end Monkey
