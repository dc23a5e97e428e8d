import Monkey.Proofs.Moves

set_option autoImplicit false

/-!
# Runs on different levels

Two runs of one grammar on different levels do the same for as long as both find the levels that
they need.
-/
namespace Monkey

/-- Cursors that no parser can tell apart, and the fatal ends that two runs may come to. -/
structure Simulation where
  rel : Cursor → Cursor → Prop
  /-- Where the first run is left by the fatal error, and the other one, with its error, if it is
  as well. -/
  lost : Cursor → Option (ParseError × Cursor) → Prop
  current {c d : Cursor} (h : rel c d) : d.current = c.current
  peek {c d : Cursor} (h : rel c d) : d.peek = c.peek
  remaining {c d : Cursor} (h : rel c d) : d.remaining = c.remaining
  advance {c d : Cursor} (h : rel c d) : rel c.advance d.advance
  record {c d : Cursor} (h : rel c d) (error : ParseError) : rel (c.record error) (d.record error)
  /-- If the other run need not be lost, nothing is said about it. -/
  lost_of_none {c : Cursor} (h : lost c none) (other? : Option (ParseError × Cursor)) :
    lost c other?

namespace Parse

def fatalEnd? {α : Type} : EStateM.Result ParseError Cursor α → Option (ParseError × Cursor)
  | .ok _ _ => none
  | .error error last => if error.isFatal then some (error, last) else none

/-- The same outcome at two cursors, unless the first one is fatal. -/
inductive Alongside {α : Type} (sim : Simulation) :
    EStateM.Result ParseError Cursor α → EStateM.Result ParseError Cursor α → Prop where
  | ok {value : α} {c d : Cursor} (h : sim.rel c d) : Alongside sim (.ok value c) (.ok value d)
  | error {error : ParseError} {c d : Cursor} (mild : error.isFatal = false) (h : sim.rel c d) :
      Alongside sim (.error error c) (.error error d)
  | fatal {error : ParseError} {c : Cursor} {result : EStateM.Result ParseError Cursor α}
      (deep : error.isFatal = true) (h : sim.lost c (fatalEnd? result)) :
      Alongside sim (.error error c) result

/-- Whatever an action does short of the fatal error, another one does as well. -/
class Simulates {α : Type} (sim : Simulation) (first other : Parse α) : Prop where
  alongside {c d : Cursor} (h : sim.rel c d) : Alongside sim (first c) (other d)

section

variable {α β : Type} {sim : Simulation}

instance (value : α) : Simulates sim (pure value : Parse α) (pure value) := ⟨fun h => .ok h⟩

theorem simulates_throw {error : ParseError} (mild : error.isFatal = false) :
    Simulates sim (throw error : Parse α) (throw error) := ⟨fun h => .error mild h⟩

instance (expected found : TokenKind) :
    Simulates sim (throw (.unexpectedToken expected found) : Parse α)
      (throw (.unexpectedToken expected found)) := simulates_throw rfl

instance (kind : TokenKind) :
    Simulates sim (throw (.noOperandForm kind) : Parse α) (throw (.noOperandForm kind)) :=
  simulates_throw rfl

instance (literal : String) :
    Simulates sim (throw (.unreadableNumber literal) : Parse α)
      (throw (.unreadableNumber literal)) := simulates_throw rfl

instance (literal : String) :
    Simulates sim (throw (.illegalToken literal) : Parse α) (throw (.illegalToken literal)) :=
  simulates_throw rfl

theorem simulates_look {look : Parse α} (view : Cursor → α)
    (looks : ∀ cursor, look cursor = .ok (view cursor) cursor)
    (blind : ∀ c d, sim.rel c d → view d = view c) : Simulates sim look look := by
  refine ⟨fun {c d} h => ?_⟩
  rw [looks, looks, blind c d h]
  exact .ok h

instance : Simulates sim current current :=
  simulates_look _ (fun _ => rfl) fun _ _ h => sim.current h

instance : Simulates sim currentKind currentKind :=
  simulates_look _ (fun _ => rfl) fun _ _ h => congrArg Token.kind (sim.current h)

instance : Simulates sim peekKind peekKind :=
  simulates_look _ (fun _ => rfl) fun _ _ h => congrArg Token.kind (sim.peek h)

instance : Simulates sim remaining remaining :=
  simulates_look _ (fun _ => rfl) fun _ _ h => sim.remaining h

instance : Simulates sim advance advance := ⟨fun h => .ok (sim.advance h)⟩

instance (kind : TokenKind) : Simulates sim (expectPeek kind) (expectPeek kind) := by
  refine ⟨fun h => ?_⟩
  unfold expectPeek
  rw [sim.peek h]
  split
  · exact .ok (sim.advance h)
  · exact .error rfl h

instance : Simulates sim skipSemicolon skipSemicolon := by
  refine ⟨fun h => ?_⟩
  unfold skipSemicolon
  rw [sim.peek h]
  split
  · exact .ok (sim.advance h)
  · exact .ok h

instance (first other : Parse α) (next follow : α → Parse β) [hfirst : Simulates sim first other]
    [hnext : ∀ value, Simulates sim (next value) (follow value)] :
    Simulates sim (first >>= next) (other >>= follow) := by
  refine ⟨fun {c d} h => ?_⟩
  have early := hfirst.alongside h
  generalize hc : first c = one at early
  generalize hd : other d = two at early
  cases early with
  | ok middle =>
    rw [bind_of_ok hc, bind_of_ok hd]
    exact (hnext _).alongside middle
  | error mild last =>
    rw [bind_of_error hc, bind_of_error hd]
    exact .error mild last
  | fatal deep last =>
    rw [bind_of_error hc]
    cases two with
    | ok value middle => exact .fatal deep (sim.lost_of_none last _)
    | error error final =>
      rw [bind_of_error hd]
      exact .fatal deep last

instance (condition : Prop) [Decidable condition] (first second other another : Parse α)
    [Simulates sim first other] [Simulates sim second another] :
    Simulates sim (if condition then first else second)
      (if condition then other else another) := by
  split <;> infer_instance

instance (first other : Parse α) [h : Simulates sim first other] :
    Simulates sim (attempt first) (attempt other) := by
  refine ⟨fun {c d} alike => ?_⟩
  have outcome := h.alongside alike
  unfold attempt
  generalize first c = one at outcome
  generalize other d = two at outcome
  cases outcome with
  | ok last => exact .ok last
  | @error error _ _ mild last =>
    dsimp only
    rw [mild]
    exact .ok (sim.record last error)
  | fatal deep last =>
    dsimp only
    rw [if_pos deep]
    refine .fatal deep ?_
    cases two with
    | ok value final => exact sim.lost_of_none last _
    | error error final =>
      dsimp only
      cases fatal : error.isFatal with
      | true =>
        rw [fatalEnd?, fatal] at last
        rw [if_pos rfl, fatalEnd?, fatal]
        exact last
      | false =>
        rw [fatalEnd?, fatal] at last
        exact sim.lost_of_none last _

instance (first other : Parse α) [Simulates sim first other] (bound : Nat) :
    Simulates sim (afterCommas first bound) (afterCommas other bound) := by
  induction bound with
  | zero => exact inferInstanceAs (Simulates sim (pure []) (pure []))
  | succ bound ih => unfold afterCommas; infer_instance

instance (first other : Parse α) [Simulates sim first other] :
    Simulates sim (bracketed first) (bracketed other) := by
  unfold bracketed
  infer_instance

end

end Parse

open Parse

class Level.Simulates (sim : Simulation) (first other : Level) : Prop where
  expression (power : BindingPower) :
    Parse.Simulates sim (first.expression power) (other.expression power)
  operators (power : BindingPower) (value : Expr) :
    Parse.Simulates sim (first.operators power value) (other.operators power value)
  block : Parse.Simulates sim first.block other.block

section Forms

variable {sim : Simulation} (first other : Level) [h : Level.Simulates sim first other]

instance (power : BindingPower) :
    Simulates sim (first.expression power) (other.expression power) := h.expression power

instance (power : BindingPower) (value : Expr) :
    Simulates sim (first.operators power value) (other.operators power value) :=
  h.operators power value

instance : Simulates sim first.block other.block := h.block

instance : Simulates sim OperandForm.parsePrimary OperandForm.parsePrimary := by
  unfold OperandForm.parsePrimary
  refine @instSimulatesBind _ _ _ _ _ _ _ _ fun token => ?_
  split
  · infer_instance
  · infer_instance
  · infer_instance
  · split <;> infer_instance
  · infer_instance

instance : Simulates sim (OperandForm.parseAlternative first)
    (OperandForm.parseAlternative other) := by
  unfold OperandForm.parseAlternative
  infer_instance

instance : Simulates sim OperandForm.parseParameter OperandForm.parseParameter := by
  unfold OperandForm.parseParameter
  infer_instance

instance : Simulates sim (OperatorForm.parseArgument first) (OperatorForm.parseArgument other) := by
  unfold OperatorForm.parseArgument
  infer_instance

-- The longest form is a sequence of eight actions.
set_option synthInstance.maxSize 256 in
instance (form : OperandForm) : Simulates sim (form.parse first) (form.parse other) := by
  cases form with
  | primary =>
    exact inferInstanceAs (Simulates sim OperandForm.parsePrimary OperandForm.parsePrimary)
  | unary => unfold OperandForm.parse OperandForm.parseUnary; infer_instance
  | grouping => unfold OperandForm.parse OperandForm.parseGrouping; infer_instance
  | conditional => unfold OperandForm.parse OperandForm.parseConditional; infer_instance
  | function => unfold OperandForm.parse OperandForm.parseFunction; infer_instance

instance (form : OperatorForm) (value : Expr) (power : BindingPower) :
    Simulates sim (form.parse first value power) (form.parse other value power) := by
  cases form with
  | binary => unfold OperatorForm.parse OperatorForm.parseBinary; infer_instance
  | call => unfold OperatorForm.parse OperatorForm.parseCall; infer_instance

instance (form : StatementForm) : Simulates sim (form.parse first) (form.parse other) := by
  cases form with
  | letBinding => unfold StatementForm.parse StatementForm.parseLetBinding; infer_instance
  | returning => unfold StatementForm.parse StatementForm.parseReturning; infer_instance
  | block => unfold StatementForm.parse StatementForm.parseBlock; infer_instance

variable (tables : Tables)

instance : Simulates sim (parseStmt tables first) (parseStmt tables other) := by
  unfold parseStmt
  refine @instSimulatesBind _ _ _ _ _ _ _ _ fun kind => ?_
  split
  · infer_instance
  · unfold parseExpressionStmt
    infer_instance

instance (bound : Nat) :
    Simulates sim (parseStmts tables first bound) (parseStmts tables other bound) := by
  induction bound with
  | zero => exact inferInstanceAs (Simulates sim (pure []) (pure []))
  | succ bound ih => unfold parseStmts; infer_instance

instance : Simulates sim (parseBody tables first) (parseBody tables other) := by
  unfold parseBody
  infer_instance

instance : Simulates sim (parseOperand tables first) (parseOperand tables other) := by
  unfold parseOperand
  refine @instSimulatesBind _ _ _ _ _ _ _ _ fun token => ?_
  split <;> infer_instance

end Forms

theorem simulates_applyNext {sim : Simulation} (tables : Tables) (power : BindingPower)
    (value : Expr) {first other : OperatorForm → BindingPower → Parse Expr}
    (h : ∀ form bound, Simulates sim (first form bound) (other form bound)) :
    Simulates sim (applyNext tables power value first) (applyNext tables power value other) := by
  unfold applyNext
  refine @instSimulatesBind _ _ _ _ _ _ _ _ fun kind => ?_
  split
  · split <;> infer_instance
  · infer_instance

/-- With a level more each, two runs do the same for longer. -/
theorem Level.Simulates.above {sim : Simulation} (tables : Tables) {low high : Nat}
    (first other : Level) [Level.Simulates sim first other]
    [opens : Parse.Simulates sim (openLevel low) (openLevel high)] :
    Level.Simulates sim (Level.above tables low first) (Level.above tables high other) where
  expression power := inferInstanceAs (Parse.Simulates sim
    (openLevel low >>= fun _ => parseOperand tables first >>= fun value =>
      first.operators power value)
    (openLevel high >>= fun _ => parseOperand tables other >>= fun value =>
      other.operators power value))
  operators power value := by
    simp only [Level.above]
    exact simulates_applyNext tables power value fun _ _ => inferInstance
  block := inferInstanceAs (Parse.Simulates sim
    (openLevel low >>= fun _ => parseBody tables first)
    (openLevel high >>= fun _ => parseBody tables other))

end Monkey
