import Monkey.Proofs.Headroom
import Monkey.Proofs.Lockstep

set_option autoImplicit false

/-!
# The height of trees

Levels are given back when an operand ends, while its tree becomes the left side of the operators
behind it. So the levels bound a path down a tree except for its steps to left sides. With `n`
levels there are at most `n - 1` of these behind an operand, `n - 2` behind one within it, and so
on.
-/
namespace Monkey

open Parse

mutual

/-- The number of expressions on the longest path down, which may go through blocks. -/
def Expr.height : Expr → Nat
  | .identifier _ => 1
  | .integer _ => 1
  | .boolean _ => 1
  | .unary _ operand => 1 + operand.height
  | .binary left _ right => 1 + max left.height right.height
  | .conditional condition consequence alternative =>
    1 + max condition.height (max (Block.height consequence) (Block.heightElse alternative))
  | .function _ body => 1 + Block.height body
  | .call callee arguments => 1 + max callee.height (Expr.heightEach arguments)

def Expr.heightEach : List Expr → Nat
  | [] => 0
  | value :: values => max value.height (Expr.heightEach values)

def Stmt.height : Stmt → Nat
  | .letBinding _ value => value.height
  | .returning value => value.height
  | .expression value => value.height
  | .block body => Block.height body

def Block.height : List Stmt → Nat
  | [] => 0
  | stmt :: rest => max stmt.height (Block.height rest)

def Block.heightElse : Option (List Stmt) → Nat
  | none => 0
  | some body => Block.height body

end

mutual

/-- How often a path down goes to the left side of an operator or to what is called, at most. -/
def Expr.lefts : Expr → Nat
  | .identifier _ => 0
  | .integer _ => 0
  | .boolean _ => 0
  | .unary _ operand => operand.lefts
  | .binary left _ right => max (left.lefts + 1) right.lefts
  | .conditional condition consequence alternative =>
    max condition.lefts (max (Block.lefts consequence) (Block.leftsElse alternative))
  | .function _ body => Block.lefts body
  | .call callee arguments => max (callee.lefts + 1) (Expr.leftsEach arguments)

def Expr.leftsEach : List Expr → Nat
  | [] => 0
  | value :: values => max value.lefts (Expr.leftsEach values)

def Stmt.lefts : Stmt → Nat
  | .letBinding _ value => value.lefts
  | .returning value => value.lefts
  | .expression value => value.lefts
  | .block body => Block.lefts body

def Block.lefts : List Stmt → Nat
  | [] => 0
  | stmt :: rest => max stmt.lefts (Block.lefts rest)

def Block.leftsElse : Option (List Stmt) → Nat
  | none => 0
  | some body => Block.lefts body

end

/-- The sum of the numbers up to the number of levels. -/
def tallest : Nat → Nat
  | 0 => 0
  | left + 1 => tallest left + (left + 1)

theorem tallest_succ (left : Nat) : tallest (left + 1) = tallest left + (left + 1) := rfl

theorem tallest_mono {few many : Nat} (h : few ≤ many) : tallest few ≤ tallest many := by
  induction h with
  | refl => exact Nat.le_refl _
  | step _ ih => exact Nat.le_trans ih (Nat.le_add_right _ _)

/-- A height that a number of levels allows for a path that goes to so many left sides. -/
structure Low (left height lefts : Nat) : Prop where
  le_tallest : height ≤ tallest left
  le_add_lefts : height ≤ left + lefts

theorem Low.mono {few many height lefts : Nat} (h : Low few height lefts) (more : few ≤ many) :
    Low many height lefts :=
  ⟨Nat.le_trans h.le_tallest (tallest_mono more),
    Nat.le_trans h.le_add_lefts (Nat.add_le_add_right more lefts)⟩

theorem low_zero (left : Nat) : Low left 0 0 := ⟨Nat.zero_le _, Nat.zero_le _⟩

theorem Low.both {left height lefts other others : Nat} (first : Low left height lefts)
    (second : Low left other others) : Low left (max height other) (max lefts others) := by
  obtain ⟨low, near⟩ := first
  obtain ⟨low', near'⟩ := second
  exact ⟨by omega, by omega⟩

theorem Expr.low_each {values : List Expr} {left : Nat}
    (h : ∀ value ∈ values, Low left value.height value.lefts) :
    Low left (Expr.heightEach values) (Expr.leftsEach values) := by
  induction values with
  | nil => exact low_zero left
  | cons value values ih =>
    obtain ⟨first, others⟩ := List.forall_mem_cons.1 h
    exact first.both (ih others)

theorem Block.low {body : Block} {left : Nat}
    (h : ∀ stmt ∈ body, Low left stmt.height stmt.lefts) :
    Low left (Block.height body) (Block.lefts body) := by
  induction body with
  | nil => exact low_zero left
  | cons stmt rest ih =>
    obtain ⟨first, others⟩ := List.forall_mem_cons.1 h
    exact first.both (ih others)

namespace Parse

/-- An action gives good values only, wherever it starts, as long as no more levels than a peak are
open at once. -/
def Yields {α : Type} (peak : Nat) (action : Parse α) (good : α → Prop) : Prop :=
  ∀ cursor value last, action cursor = .ok value last → last.deepest ≤ peak → good value

section

variable {α β : Type} {peak : Nat} {first : Parse α} {next : α → Parse β} {good : α → Prop}
  {goal : β → Prop}

theorem yields_pure {value : α} (h : good value) : Yields peak (pure value) good := by
  intro cursor result last run _
  cases run
  exact h

theorem yields_throw (error : ParseError) : Yields peak (throw error) good := by
  intro cursor result last run
  cases run

theorem yields_tooDeep : Yields peak (tooDeep : Parse α) good := by
  intro cursor result last run
  cases run

theorem deepest_le_of_run {action : Parse α} [h : Moves action] {cursor last : Cursor} {value : α}
    (run : action cursor = .ok value last) : cursor.deepest ≤ last.deepest := by
  obtain ⟨trail, htrail⟩ := h.trail cursor
  rw [run] at htrail
  obtain rfl : last = cursor.moves trail := htrail
  exact cursor.deepest_le_moves trail

theorem Yields.bind (hfirst : Yields peak first good) [∀ value, Moves (next value)]
    (hnext : ∀ value, good value → Yields peak (next value) goal) :
    Yields peak (first >>= next) goal := by
  intro cursor result last run within
  obtain ⟨value, middle, early, late⟩ := ok_of_bind run
  have deeper := deepest_le_of_run late
  exact hnext value (hfirst cursor value middle early (by omega)) middle result last late within

theorem Yields.after [∀ value, Moves (next value)]
    (hnext : ∀ value, Yields peak (next value) goal) : Yields peak (first >>= next) goal :=
  Yields.bind (fun _ _ _ _ _ => trivial) fun value (_ : True) => hnext value

theorem Yields.openLevel {depth : Nat} {next : Unit → Parse β} [Moves (next ())]
    (hnext : depth ≤ peak → Yields peak (next ()) goal) :
    Yields peak (openLevel depth >>= next) goal := by
  intro cursor result last run within
  have later : next () (cursor.reach depth) = .ok result last := run
  have deeper := deepest_le_of_run later
  have reached : depth ≤ (cursor.reach depth).deepest := Nat.le_max_right _ _
  exact hnext (by omega) _ result last later within

theorem Yields.look {view : Cursor → α} (looks : ∀ cursor, first cursor = .ok (view cursor) cursor)
    (hnext : ∀ value, Yields peak (next value) goal) : Yields peak (first >>= next) goal := by
  intro cursor result last run within
  rw [bind_of_ok (looks cursor)] at run
  exact hnext _ cursor result last run within

theorem Yields.ite {condition : Prop} [Decidable condition] {second : Parse α}
    (hfirst : Yields peak first good) (hsecond : Yields peak second good) :
    Yields peak (if condition then first else second) good := by
  split
  · exact hfirst
  · exact hsecond

theorem Yields.attempt (h : Yields peak first good) :
    Yields peak (attempt first) fun value? => ∀ value ∈ value?, good value := by
  intro cursor value? last run within value member
  cases hrun : first cursor with
  | ok result middle =>
    simp only [Parse.attempt, hrun, EStateM.Result.ok.injEq] at run
    obtain ⟨rfl, rfl⟩ := run
    obtain rfl := Option.mem_some_iff.1 member
    exact h cursor _ _ hrun within
  | error error middle =>
    by_cases fatal : error.isFatal = true
    · simp [Parse.attempt, hrun, fatal] at run
    · simp only [Parse.attempt, hrun, fatal] at run
      obtain ⟨rfl, -⟩ := run
      cases member

theorem Yields.afterCommas [Moves first] (h : Yields peak first good) (bound : Nat) :
    Yields peak (afterCommas first bound) fun values => ∀ value ∈ values, good value := by
  induction bound with
  | zero => exact yields_pure (by simp)
  | succ bound ih =>
    refine Yields.after fun _ => Yields.ite (Yields.after fun _ => ?_) (yields_pure (by simp))
    refine h.bind fun value hvalue => ih.bind fun values hvalues => yields_pure ?_
    simpa using ⟨hvalue, hvalues⟩

theorem Yields.bracketed [Moves first] (h : Yields peak first good) :
    Yields peak (bracketed first) fun values => ∀ value ∈ values, good value := by
  refine Yields.after fun _ => Yields.ite (Yields.after fun _ => yields_pure (by simp)) ?_
  refine h.bind fun value hvalue => Yields.after fun _ => ?_
  refine (h.afterCommas _).bind fun values hvalues => Yields.after fun _ => yields_pure ?_
  simpa using ⟨hvalue, hvalues⟩

end

end Parse

/-- What is offered while a number of levels is left below the peak is not higher than those levels
allow. An operator costs a level and adds one to the higher of its sides. -/
structure Level.Bounded (offered : Level) (peak left : Nat) : Prop where
  expression (power : BindingPower) :
    Yields peak (offered.expression power) fun value => Low left value.height value.lefts
  operators (power : BindingPower) {value : Expr} {total : Nat} (room : left ≤ total)
    (near : value.height ≤ total + value.lefts) :
    Yields peak (offered.operators power value) fun whole =>
      whole.height ≤ max value.height (tallest (left - 1)) + left ∧
        whole.height ≤ total + whole.lefts
  block : Yields peak offered.block fun body =>
    Low (left - 1) (Block.height body) (Block.lefts body)

section Forms

variable {offered : Level} [offered.Moves] {peak left : Nat}

omit [offered.Moves] in
theorem Level.Bounded.blockLow (h : offered.Bounded peak left) :
    Yields peak offered.block fun body => Low left (Block.height body) (Block.lefts body) := by
  intro cursor body last run within
  exact (h.block cursor body last run within).mono (Nat.sub_le left 1)

theorem Level.Bounded.alternative (h : offered.Bounded peak left) :
    Yields peak (OperandForm.parseAlternative offered) fun body =>
      Low left (Block.heightElse body) (Block.leftsElse body) := by
  refine Yields.look (fun _ => rfl) fun _ => Yields.ite ?_ (yields_pure (low_zero left))
  refine Yields.after fun _ => Yields.after fun _ => ?_
  exact h.blockLow.bind fun body hbody => yields_pure hbody

theorem yields_parsePrimary :
    Yields peak OperandForm.parsePrimary fun value => Low 1 value.height value.lefts := by
  have single : Low 1 1 0 := ⟨Nat.le_refl 1, Nat.le_refl 1⟩
  refine Yields.look (fun _ => rfl) fun token => ?_
  split
  · exact yields_pure single
  · exact yields_pure single
  · exact yields_pure single
  · split
    · exact yields_pure single
    · exact yields_throw _
  · exact yields_throw _

theorem Low.operand {left height lefts : Nat} (h : Low left height lefts) :
    1 + height ≤ 1 + tallest left ∧ 1 + height ≤ 1 + left + lefts := by
  obtain ⟨low, near⟩ := h
  omega

theorem Level.Bounded.operandForm (h : offered.Bounded peak left) (form : OperandForm) :
    Yields peak (form.parse offered) fun value =>
      value.height ≤ 1 + tallest left ∧ value.height ≤ 1 + left + value.lefts := by
  cases form with
  | primary =>
    intro cursor value last run within
    obtain ⟨low, near⟩ := yields_parsePrimary cursor value last run within
    rw [show tallest 1 = 1 from rfl] at low
    omega
  | unary =>
    refine Yields.after fun _ => Yields.after fun _ => ?_
    exact (h.expression .unary).bind fun operand hoperand => yields_pure hoperand.operand
  | grouping =>
    refine Yields.after fun _ => (h.expression .lowest).bind fun value hvalue => ?_
    obtain ⟨low, near⟩ := hvalue
    exact Yields.after fun _ => yields_pure (by omega)
  | conditional =>
    refine Yields.after fun _ => Yields.after fun _ => ?_
    refine (h.expression .lowest).bind fun condition hcondition => ?_
    refine Yields.after fun _ => Yields.after fun _ => h.blockLow.bind fun consequence hfirst => ?_
    refine h.alternative.bind fun alternative hsecond => yields_pure ?_
    exact (hcondition.both (hfirst.both hsecond)).operand
  | function =>
    refine Yields.after fun _ => Yields.after fun _ => Yields.after fun _ => ?_
    exact h.blockLow.bind fun body hbody => yields_pure hbody.operand

theorem Level.Bounded.operand (h : offered.Bounded peak left) (tables : Tables) :
    Yields peak (parseOperand tables offered) fun value =>
      value.height ≤ 1 + tallest left ∧ value.height ≤ 1 + left + value.lefts := by
  refine Yields.look (fun _ => rfl) fun token => ?_
  split
  · exact h.operandForm _
  · exact Yields.ite (yields_throw _) (yields_throw _)

theorem Low.operator {left height lefts other others total : Nat} (h : Low left other others)
    (room : left < total) (near : height ≤ total + lefts) :
    1 + max height other ≤ 1 + max height (tallest left) ∧
      1 + max height other ≤ total + max (lefts + 1) others := by
  obtain ⟨low, below⟩ := h
  omega

theorem Level.Bounded.operatorForm (h : offered.Bounded peak left) (form : OperatorForm)
    (power : BindingPower) {value : Expr} {total : Nat} (room : left < total)
    (near : value.height ≤ total + value.lefts) :
    Yields peak (form.parse offered value power) fun whole =>
      whole.height ≤ 1 + max value.height (tallest left) ∧
        whole.height ≤ total + whole.lefts := by
  cases form with
  | binary =>
    refine Yields.after fun _ => Yields.after fun _ => ?_
    refine (h.expression power).bind fun right hright => yields_pure ?_
    exact hright.operator room near
  | call =>
    have argument : Yields peak (OperatorForm.parseArgument offered) fun argument =>
        Low left argument.height argument.lefts := Yields.after fun _ => h.expression .lowest
    refine argument.bracketed.bind fun arguments harguments => yields_pure ?_
    exact (Expr.low_each harguments).operator room near

omit [offered.Moves] in
theorem Level.Bounded.terminated (h : offered.Bounded peak left) {build : Expr → Stmt}
    (same : ∀ value, (build value).height = value.height ∧ (build value).lefts = value.lefts) :
    Yields peak (offered.expression .lowest >>= fun value => skipSemicolon >>= fun _ =>
      pure (build value)) fun stmt => Low left stmt.height stmt.lefts := by
  refine (h.expression .lowest).bind fun value hvalue => Yields.after fun _ => yields_pure ?_
  rwa [(same value).1, (same value).2]

theorem Level.Bounded.statement (h : offered.Bounded peak left) (tables : Tables) :
    Yields peak (parseStmt tables offered) fun stmt => Low left stmt.height stmt.lefts := by
  refine Yields.look (fun _ => rfl) fun kind => ?_
  split
  · rename_i form _
    cases form with
    | letBinding =>
      refine Yields.after fun _ => Yields.after fun _ => Yields.after fun _ => ?_
      exact Yields.after fun _ => h.terminated fun _ => ⟨rfl, rfl⟩
    | returning => exact Yields.after fun _ => h.terminated fun _ => ⟨rfl, rfl⟩
    | block => exact h.blockLow.bind fun body hbody => yields_pure hbody
  · exact h.terminated fun _ => ⟨rfl, rfl⟩

theorem Level.Bounded.body (h : offered.Bounded peak left) (tables : Tables) :
    Yields peak (parseBody tables offered) fun body =>
      Low left (Block.height body) (Block.lefts body) := by
  have stmts (bound : Nat) : Yields peak (parseStmts tables offered bound) fun body =>
      ∀ stmt ∈ body, Low left stmt.height stmt.lefts := by
    induction bound with
    | zero => exact yields_pure (by simp)
    | succ bound ih =>
      refine Yields.look (fun _ => rfl) fun _ => Yields.ite (yields_pure (by simp)) ?_
      refine (h.statement tables).attempt.bind fun stmt? hstmt => Yields.after fun _ => ?_
      refine ih.bind fun rest hrest => yields_pure ?_
      simp only [List.mem_append, Option.mem_toList]
      rintro stmt (member | member)
      · exact hstmt stmt member
      · exact hrest stmt member
  refine Yields.after fun _ => Yields.after fun _ => (stmts _).bind fun body hbody => ?_
  refine Yields.look (fun _ => rfl) fun _ => Yields.ite (yields_pure ?_) (yields_throw _)
  exact Block.low hbody

end Forms

theorem yields_applyNext {peak : Nat} {tables : Tables} {power : BindingPower} {value : Expr}
    {apply : OperatorForm → BindingPower → Parse Expr} {good : Expr → Prop} (hstop : good value)
    (hgo : ∀ form bound, Yields peak (apply form bound) good) :
    Yields peak (applyNext tables power value apply) good := by
  refine Yields.look (fun _ => rfl) fun kind => Yields.ite ?_ (yields_pure hstop)
  split
  · exact hgo _ _
  · exact yields_pure hstop

/-- With any number of levels left, what is parsed is not higher than those of them allow that are
below the peak, whatever the tables are. -/
theorem level_bounded (tables : Tables) (peak left : Nat) :
    (level tables left).Bounded peak (left - (maxNesting - peak)) := by
  induction left with
  | zero =>
    rw [Nat.zero_sub]
    refine ⟨fun _ => yields_tooDeep, fun power _ _ _ near => ?_, yields_tooDeep⟩
    exact yields_applyNext (by omega) fun _ _ => yields_tooDeep
  | succ below ih =>
    obtain ⟨room, hroom⟩ : ∃ room, room = below - (maxNesting - peak) := ⟨_, rfl⟩
    rw [← hroom] at ih
    have smaller := tallest_mono (Nat.sub_le room 1)
    -- A level that is opened is one more below the peak.
    have opened (within : maxNesting - below ≤ peak) :
        below + 1 - (maxNesting - peak) = room + 1 := by omega
    refine ⟨fun power => ?_, fun power value total fits near => ?_, ?_⟩
    · refine Yields.openLevel fun within => (ih.operand tables).bind fun value hvalue => ?_
      intro cursor whole last run within'
      obtain ⟨low, near⟩ := ih.operators power (by omega) hvalue.2 cursor whole
        last run within'
      rw [opened within]
      refine ⟨?_, by omega⟩
      rw [tallest_succ]
      omega
    · rw [operators_succ]
      refine yields_applyNext (by omega) fun form bound => ?_
      refine Yields.openLevel fun within => Yields.after fun _ => ?_
      rw [opened within] at fits ⊢
      refine (ih.operatorForm form bound fits near).bind fun whole hwhole => ?_
      intro cursor result last run within'
      have higher := ih.operators power (by omega) hwhole.2 cursor result last run within'
      rw [Nat.add_sub_cancel]
      omega
    · refine Yields.openLevel fun within => ?_
      rw [opened within]
      exact ih.body tables

theorem low_parseStmtsToEnd {offered : Level} [offered.Moves] {peak left : Nat}
    (h : offered.Bounded peak left) (bound : Nat) (cursor : Cursor)
    (within : (parseStmtsToEnd Tables.standard offered bound cursor).2.deepest ≤ peak) :
    ∀ stmt ∈ (parseStmtsToEnd Tables.standard offered bound cursor).1,
      Low left stmt.height stmt.lefts := by
  induction bound generalizing cursor with
  | zero => simp [parseStmtsToEnd]
  | succ bound ih =>
    unfold parseStmtsToEnd at within ⊢
    split at within
    · simp [*]
    · cases run : parseStmt Tables.standard offered cursor with
      | ok stmt last =>
        simp only [*] at within ⊢
        have later := (later_parseStmtsToEnd offered bound last.advance).deepest_le
        rw [Cursor.deepest_advance] at later
        have first := h.statement Tables.standard cursor stmt last run (by omega)
        simpa using ⟨first, ih last.advance within⟩
      | error error last =>
        simp only [*] at within ⊢
        exact ih _ within

theorem low_of_parse (source : List (Option Token)) : ∀ stmt ∈ (parse source).1,
    Low (min maxNesting (levelsOpened source)) stmt.height stmt.lefts := by
  intro stmt member
  have bounded := low_parseStmtsToEnd (level_bounded Tables.standard (levelsOpened source)
    maxNesting) _ _ (Nat.le_refl _) stmt member
  exact bounded.mono (by omega)

section Towers

def Expr.called (value : Expr) : Nat → Expr
  | 0 => value
  | times + 1 => .call (value.called times) []

def callTokens : Nat → List Token
  | 0 => []
  | times + 1 => callTokens times ++ [⟨.openParen, "("⟩, ⟨.closeParen, ")"⟩]

theorem height_called (value : Expr) (times : Nat) :
    (value.called times).height = value.height + times := by
  induction times with
  | zero => rfl
  | succ times ih =>
    rw [Expr.called, Expr.height, ih, Expr.heightEach]
    omega

theorem lefts_called (value : Expr) (times : Nat) :
    (value.called times).lefts = value.lefts + times := by
  induction times with
  | zero => rfl
  | succ times ih =>
    rw [Expr.called, Expr.lefts, ih, Expr.leftsEach]
    omega

theorem Derives.called {value : Expr} {spine n : Nat} {tokens : List Token}
    (h : Derives (.expression .call value spine) tokens n) (times : Nat) :
    Derives (.expression .call (value.called times) (spine + times)) (tokens ++ callTokens times)
      (max n (spine + times + 1)) := by
  induction times with
  | zero =>
    have whole : max n (spine + 0 + 1) = n := Nat.max_eq_left h.spine_lt
    rw [whole, callTokens, List.append_nil]
    exact h
  | succ times ih =>
    have whole := @Derives.call ⟨.openParen, "("⟩ ⟨.closeParen, ")"⟩ _ _ _ _ _ _ _ rfl rfl ih
      .noArguments
    rw [callTokens, ← List.append_assoc]
    have same : max (max n (spine + times + 1)) (spine + times + 2 + 0) =
        max n (spine + (times + 1) + 1) := by omega
    rw [same] at whole
    exact whole

/-- A conditional whose condition is such a conditional again. Each is called as often as the
levels allow that its own condition has given back, until a number of calls is used up. -/
def tower : Nat → Nat → Expr
  | 0, _ => .identifier "x"
  | size + 1, calls =>
    (Expr.conditional (tower size (calls - (size + 1))) [] none).called (min calls (size + 1))

def towerTokens : Nat → Nat → List Token
  | 0, _ => [⟨.identifier, "x"⟩]
  | size + 1, calls =>
    ⟨.ifKeyword, "if"⟩ :: ⟨.openParen, "("⟩ :: (towerTokens size (calls - (size + 1)) ++
      [⟨.closeParen, ")"⟩, ⟨.openCurly, "\x7b"⟩, ⟨.closeCurly, "\x7d"⟩]) ++
      callTokens (min calls (size + 1))

theorem height_tower (size calls : Nat) :
    (tower size calls).height = size + 1 + min calls (tallest size) := by
  induction size generalizing calls with
  | zero => exact (congrArg (1 + ·) (Nat.min_zero calls)).symm
  | succ size ih =>
    rw [tower, height_called, Expr.height, ih, Block.height, Block.heightElse, tallest_succ]
    omega

theorem lefts_tower (size calls : Nat) : (tower size calls).lefts ≤ calls := by
  induction size generalizing calls with
  | zero => exact Nat.zero_le calls
  | succ size ih =>
    have inner := ih (calls - (size + 1))
    rw [tower, lefts_called, Expr.lefts, Block.lefts, Block.leftsElse]
    omega

theorem derives_tower (size calls : Nat) : ∃ spine,
    Derives (.expression .call (tower size calls) spine) (towerTokens size calls) (size + 1) := by
  induction size generalizing calls with
  | zero => exact ⟨0, @Derives.identifier ⟨.identifier, "x"⟩ rfl⟩
  | succ size ih =>
    obtain ⟨spine, inner⟩ := ih (calls - (size + 1))
    have body := @Derives.block ⟨.openCurly, "\x7b"⟩ ⟨.closeCurly, "\x7d"⟩ _ _ _ rfl rfl
      .noStatements
    have whole := @Derives.conditional ⟨.ifKeyword, "if"⟩ ⟨.openParen, "("⟩ ⟨.closeParen, ")"⟩
      _ _ _ _ _ _ _ _ _ _ rfl rfl rfl (inner.loosen (by decide)) body .noAlternative
    have called := whole.called (min calls (size + 1))
    have levels : max (1 + max (size + 1) (max (1 + 0) 0)) (0 + min calls (size + 1) + 1) =
        size + 1 + 1 := by omega
    rw [levels] at called
    exact ⟨_, called⟩

theorem Derives.program {value : Expr} {spine n : Nat} {tokens : List Token}
    (h : Derives (.expression .call value spine) tokens n) :
    Derives (.statements [.expression value]) tokens n := by
  have loose : Derives (.expression .equality value spine) tokens n := h.loosen (by decide)
  have stmt := @Derives.expression _ false _ _ _ [] loose rfl
  have program := Derives.moreStatements stmt .noStatements fun _ => ⟨by decide, by decide⟩
  rwa [List.append_nil, List.append_nil, Nat.max_zero] at program

theorem parse_tower {size : Nat} (calls : Nat) (h : size < maxNesting) :
    parse ((towerTokens size calls).map some) = ([.expression (tower size calls)], []) := by
  obtain ⟨spine, derives⟩ := derives_tower size calls
  exact (parse_eq_iff_derives _ derives.kind_ne_eof _).2 ⟨_, derives.program, h⟩

theorem levelsOpened_tower {size : Nat} (calls : Nat) (h : size < maxNesting) :
    levelsOpened ((towerTokens size calls).map some) ≤ size + 1 := by
  obtain ⟨spine, derives⟩ := derives_tower size calls
  have program := derives.program
  rw [← untilEnd_map_some _ derives.kind_ne_eof] at program
  exact levelsOpened_le_of_derives program h

end Towers

theorem exists_height_eq_tallest :
    ∃ source stmt, parse source = ([stmt], []) ∧ stmt.height = tallest maxNesting := by
  refine ⟨_, _, @parse_tower 255 (tallest 255) (by decide), ?_⟩
  rw [Stmt.height, height_tower, Nat.min_self, Nat.add_comm]
  exact (tallest_succ 255).symm

/-- No statement is higher than the limit if at most 22 levels are open at once, or if the levels
that are open at once and the left sides on a path are together within the limit. Beyond both some
statement is. -/
theorem parse_height_le_iff (levels lefts : Nat) :
    (∀ source, levelsOpened source ≤ levels → ∀ stmt ∈ (parse source).1, stmt.lefts ≤ lefts →
      stmt.height ≤ maxNesting) ↔
      levels ≤ 22 ∨ min levels maxNesting + lefts ≤ maxNesting := by
  have limit : maxNesting = 256 := rfl
  have few : tallest 22 = 253 := rfl
  constructor
  · intro bounded
    refine Decidable.byContradiction fun beyond => ?_
    obtain ⟨size, hsize⟩ : ∃ size, size = min levels maxNesting - 1 := ⟨_, rfl⟩
    have fits : size < maxNesting := by omega
    have opened : levelsOpened ((towerTokens size lefts).map some) ≤ levels :=
      Nat.le_trans (levelsOpened_tower lefts fits) (by omega)
    have height := bounded _ opened (.expression (tower size lefts))
      (by rw [parse_tower lefts fits]; exact List.mem_singleton_self _) (lefts_tower size lefts)
    have much : tallest 22 ≤ tallest size := tallest_mono (by omega)
    rw [Stmt.height, height_tower] at height
    omega
  · intro within source opened stmt member left
    obtain ⟨low, near⟩ := low_of_parse source stmt member
    rcases within with shallow | within
    · have much : tallest (min maxNesting (levelsOpened source)) ≤ tallest 22 :=
        tallest_mono (by omega)
      omega
    · omega

/-- Called 128 times within brackets and 128 times behind them, a variable is parsed to a tree that
is higher than the limit: the brackets give their levels back. -/
theorem not_height_le_maxNesting :
    ¬∀ source, ∀ stmt ∈ (parse source).1, stmt.height ≤ maxNesting := by
  intro bounded
  have inner := (@Derives.identifier ⟨.identifier, "x"⟩ rfl).called 128
  have group := @Derives.grouping ⟨.openParen, "("⟩ ⟨.closeParen, ")"⟩ _ _ _ _ rfl rfl
    (inner.loosen (show Layer.equality.power.rank ≤ _ by decide))
  have whole := group.called 128
  have parsed := (parse_eq_iff_derives _ whole.kind_ne_eof _).2 ⟨_, whole.program, by decide⟩
  have height := bounded _ _ (by rw [parsed]; exact List.mem_singleton_self _)
  rw [Stmt.height, height_called, height_called, Expr.height] at height
  exact absurd height (by decide)

end Monkey
