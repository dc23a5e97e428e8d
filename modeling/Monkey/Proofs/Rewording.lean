import Monkey.Proofs.Moves
import Monkey.Proofs.Outline

set_option autoImplicit false

namespace Monkey

open Parse

variable {source : List (Option Token)}

namespace Rewording

def token (rewording : Rewording source) (index : Nat) : Token :=
  ⟨kindsOf source index, rewording.wording index⟩

theorem token_eq (rewording : Rewording source) (index : Nat) :
    rewording.token index = rewording.answers[index]?.join.getD Token.eof := by
  rw [token, ← rewording.kindsOf_eq, kindsOf, wording, wordingOf]
  cases rewording.answers[index]?.join <;> rfl

theorem token_length (rewording : Rewording source) :
    rewording.token source.length = Token.eof := by
  rw [token_eq, ← rewording.length_eq, List.getElem?_length]
  rfl

end Rewording

def Entry.fill (rewording : Rewording source) : Option (ParseError.Outline source) → Entry
  | none => .pulled
  | some error => .recorded (error.fill rewording)

/-- A cursor with the indices of its tokens in place of the tokens. -/
structure Cursor.Outline (source : List (Option Token)) where
  /-- How many answers the source was asked for. -/
  read : Nat
  exhausted : Bool
  current : Nat
  peek : Nat
  journal : List (Option (ParseError.Outline source))
  deepest : Nat

namespace Cursor.Outline

def fill (outline : Cursor.Outline source) (rewording : Rewording source) : Cursor where
  source := rewording.answers.drop outline.read
  exhausted := outline.exhausted
  current := rewording.token outline.current
  peek := rewording.token outline.peek
  journal := outline.journal.map (Entry.fill rewording)
  deepest := outline.deepest

def pull (outline : Cursor.Outline source) : Nat × Cursor.Outline source :=
  if outline.exhausted then (source.length, outline)
  else
    (outline.read, { outline with
      read := outline.read + 1
      exhausted := kindsOf source outline.read == .eof
      journal := none :: outline.journal })

def advance (outline : Cursor.Outline source) : Cursor.Outline source :=
  { outline.pull.2 with current := outline.peek, peek := outline.pull.1 }

def abandon (outline : Cursor.Outline source) : Cursor.Outline source :=
  { outline with exhausted := true, current := source.length, peek := source.length }

def record (outline : Cursor.Outline source) (error : ParseError.Outline source) :
    Cursor.Outline source :=
  { outline with journal := some error :: outline.journal }

def reach (outline : Cursor.Outline source) (depth : Nat) : Cursor.Outline source :=
  { outline with deepest := max outline.deepest depth }

variable (outline : Cursor.Outline source) (rewording : Rewording source)

theorem pull_fill : (outline.fill rewording).pull =
    (rewording.token outline.pull.1, outline.pull.2.fill rewording) := by
  cases closed : outline.exhausted with
  | true => simp [Cursor.pull, pull, fill, closed, rewording.token_length]
  | false =>
    have token := rewording.token_eq outline.read
    have kind : kindsOf source outline.read = (rewording.token outline.read).kind := rfl
    have head : (rewording.answers.drop outline.read)[0]? = rewording.answers[outline.read]? :=
      List.getElem?_drop
    have tail := List.tail_drop (l := rewording.answers) (i := outline.read)
    simp only [Cursor.pull, pull, fill, closed, Bool.false_eq_true, if_false]
    rcases answers : rewording.answers.drop outline.read with _ | ⟨_ | next, rest⟩
    all_goals
      rw [answers] at head tail
      rw [← head] at token
      rw [kind, token, ← tail]
      rfl

theorem advance_fill :
    (outline.fill rewording).advance = outline.advance.fill rewording := by
  rw [Cursor.advance, pull_fill]
  rfl

theorem abandon_fill :
    (outline.fill rewording).abandon = outline.abandon.fill rewording := by
  rw [Cursor.abandon, ← rewording.token_length]
  rfl

theorem remaining_fill :
    (outline.fill rewording).remaining = source.length - outline.read + 2 := by
  rw [Cursor.remaining, fill, List.length_drop, rewording.length_eq]

theorem errors_fill : (outline.fill rewording).errors =
    (outline.journal.reverse.filterMap id).map (ParseError.Outline.fill rewording) := by
  rw [Cursor.errors, fill, ← List.map_reverse, List.filterMap_map, List.map_filterMap]
  congr 1
  funext entry
  cases entry <;> rfl

theorem pulls_fill :
    (outline.fill rewording).pulls = outline.journal.countP Option.isNone := by
  rw [Cursor.pulls, List.count_eq_countP, fill, List.countP_map]
  congr 1
  funext entry
  cases entry <;> rfl

end Cursor.Outline

namespace Rewording

variable (rewording : Rewording source)

abbrev expression : Expr.Outline source → Expr := Expr.Outline.fill rewording

abbrev statement : Stmt.Outline source → Stmt := Stmt.Outline.fill rewording

abbrev block : List (Stmt.Outline source) → Block := Stmt.Outline.fillAll rewording

end Rewording

namespace Parse

/-- For actions that are one and the same on all rewordings of a source: from the fillings of an
outline, they go on to the fillings of one outline, and give those of one value or error. -/
def UniformAt {α β : Type} (outline : Cursor.Outline source) (fill : Rewording source → β → α)
    (actions : Rewording source → Parse α) : Prop :=
  (∃ (value : β) (last : Cursor.Outline source), ∀ rewording,
    actions rewording (outline.fill rewording) =
      .ok (fill rewording value) (last.fill rewording)) ∨
  ∃ (error : ParseError.Outline source) (last : Cursor.Outline source), ∀ rewording,
    actions rewording (outline.fill rewording) =
      .error (error.fill rewording) (last.fill rewording)

def Uniform {α β : Type} (fill : Rewording source → β → α)
    (actions : Rewording source → Parse α) : Prop :=
  ∀ outline, UniformAt outline fill actions

section

variable {α β γ δ : Type} {fill : Rewording source → β → α} {give : Rewording source → δ → γ}
  {actions others : Rewording source → Parse α} {next : Rewording source → α → Parse γ}
  {outline middle : Cursor.Outline source}

theorem uniform_pure (value : β) :
    Uniform fill fun rewording => pure (fill rewording value) :=
  fun outline => .inl ⟨value, outline, fun _ => rfl⟩

theorem uniform_throw (error : ParseError.Outline source) :
    Uniform fill fun rewording => throw (error.fill rewording) :=
  fun outline => .inr ⟨error, outline, fun _ => rfl⟩

theorem uniform_tooDeep : Uniform fill fun _ => tooDeep := fun outline =>
  .inr ⟨.nestingTooDeep maxNesting, outline.abandon, fun rewording => by
    rw [← outline.abandon_fill rewording]
    rfl⟩

theorem UniformAt.bind (hfirst : UniformAt outline fill actions)
    (hnext : ∀ value, Uniform give fun rewording => next rewording (fill rewording value)) :
    UniformAt outline give fun rewording => actions rewording >>= next rewording := by
  rcases hfirst with ⟨value, middle, early⟩ | ⟨error, last, early⟩
  · rcases hnext value middle with ⟨result, last, late⟩ | ⟨error, last, late⟩
    · exact .inl ⟨result, last, fun rewording =>
        (bind_of_ok (early rewording)).trans (late rewording)⟩
    · exact .inr ⟨error, last, fun rewording =>
        (bind_of_ok (early rewording)).trans (late rewording)⟩
  · exact .inr ⟨error, last, fun rewording => bind_of_error (early rewording)⟩

theorem Uniform.bind (hfirst : Uniform fill actions)
    (hnext : ∀ value, Uniform give fun rewording => next rewording (fill rewording value)) :
    Uniform give fun rewording => actions rewording >>= next rewording :=
  fun outline => (hfirst outline).bind hnext

theorem UniformAt.of_ok {values : Rewording source → α}
    (first : ∀ rewording, actions rewording (outline.fill rewording) =
      .ok (values rewording) (middle.fill rewording))
    (later : UniformAt middle give fun rewording => next rewording (values rewording)) :
    UniformAt outline give fun rewording => actions rewording >>= next rewording := by
  rcases later with ⟨result, last, late⟩ | ⟨error, last, late⟩
  · exact .inl ⟨result, last, fun rewording =>
      (bind_of_ok (first rewording)).trans (late rewording)⟩
  · exact .inr ⟨error, last, fun rewording =>
      (bind_of_ok (first rewording)).trans (late rewording)⟩

theorem Uniform.ite (condition : Prop) [Decidable condition] (hfirst : Uniform fill actions)
    (hsecond : Uniform fill others) :
    Uniform fill fun rewording => if condition then actions rewording else others rewording := by
  by_cases holds : condition
  · simpa only [if_pos holds] using hfirst
  · simpa only [if_neg holds] using hsecond

theorem Uniform.attempt (h : Uniform fill actions) :
    Uniform (fun rewording => Option.map (fill rewording))
      fun rewording => Parse.attempt (actions rewording) := by
  intro outline
  rcases h outline with ⟨value, last, run⟩ | ⟨error, last, run⟩
  · refine .inl ⟨some value, last, fun rewording => ?_⟩
    simp only [Parse.attempt, run, Option.map_some]
  · cases fatal : error.isFatal with
    | true =>
      refine .inr ⟨error, last, fun rewording => ?_⟩
      simp only [Parse.attempt, run, error.isFatal_fill, fatal, if_true]
    | false =>
      refine .inl ⟨none, last.record error, fun rewording => ?_⟩
      simp only [Parse.attempt, run, error.isFatal_fill, fatal, Bool.false_eq_true, if_false]
      rfl

end

theorem current_fill (outline : Cursor.Outline source) (rewording : Rewording source) :
    current (outline.fill rewording) =
      .ok (rewording.token outline.current) (outline.fill rewording) := rfl

theorem peekKind_fill (outline : Cursor.Outline source) (rewording : Rewording source) :
    peekKind (outline.fill rewording) =
      .ok (kindsOf source outline.peek) (outline.fill rewording) := rfl

theorem advance_fill (outline : Cursor.Outline source) (rewording : Rewording source) :
    advance (outline.fill rewording) = .ok () (outline.advance.fill rewording) := by
  rw [← outline.advance_fill]
  rfl

theorem openLevel_fill (depth : Nat) (outline : Cursor.Outline source)
    (rewording : Rewording source) :
    openLevel depth (outline.fill rewording) = .ok () ((outline.reach depth).fill rewording) := rfl

theorem uniform_current : Uniform Rewording.token fun _ : Rewording source => current :=
  fun outline => .inl ⟨outline.current, outline, current_fill outline⟩

theorem uniform_currentKind : Uniform (fun _ => id) fun _ : Rewording source => currentKind :=
  fun outline => .inl ⟨kindsOf source outline.current, outline, fun _ => rfl⟩

theorem uniform_peekKind : Uniform (fun _ => id) fun _ : Rewording source => peekKind :=
  fun outline => .inl ⟨kindsOf source outline.peek, outline, peekKind_fill outline⟩

theorem uniform_remaining : Uniform (fun _ => id) fun _ : Rewording source => remaining :=
  fun outline => .inl ⟨source.length - outline.read + 2, outline, fun rewording =>
    congrArg (EStateM.Result.ok · _) (outline.remaining_fill rewording)⟩

theorem uniform_advance : Uniform (fun _ => id) fun _ : Rewording source => advance :=
  fun outline => .inl ⟨(), outline.advance, advance_fill outline⟩

theorem uniform_openLevel (depth : Nat) :
    Uniform (fun _ => id) fun _ : Rewording source => openLevel depth :=
  fun outline => .inl ⟨(), outline.reach depth, openLevel_fill depth outline⟩

theorem expectPeek_fill {outline : Cursor.Outline source} {kind : TokenKind}
    (expected : kindsOf source outline.peek = kind) (rewording : Rewording source) :
    expectPeek kind (outline.fill rewording) = .ok () (outline.advance.fill rewording) :=
  (if_pos expected).trans (advance_fill outline rewording)

theorem uniform_expectPeek (kind : TokenKind) :
    Uniform (fun _ => id) fun _ : Rewording source => expectPeek kind := by
  intro outline
  by_cases expected : kindsOf source outline.peek = kind
  · exact .inl ⟨(), outline.advance, expectPeek_fill expected⟩
  · exact .inr ⟨.unexpectedToken kind (kindsOf source outline.peek), outline,
      fun _ => if_neg expected⟩

theorem uniform_expectName {γ δ : Type} {give : Rewording source → δ → γ}
    {next : Rewording source → Token → Parse γ}
    (hnext : ∀ name : Spot.Name source,
      Uniform give fun rewording => next rewording ⟨.identifier, rewording.text name⟩) :
    Uniform give fun rewording =>
      expectPeek .identifier >>= fun _ => current >>= next rewording := by
  intro outline
  by_cases expected : kindsOf source outline.peek = .identifier
  · have shown (rewording : Rewording source) : current (outline.advance.fill rewording) =
        .ok ⟨.identifier, rewording.wording outline.peek⟩ (outline.advance.fill rewording) := by
      rw [← expected]
      rfl
    exact .of_ok (expectPeek_fill expected) (.of_ok shown
      (hnext (.ofKind expected (by decide) fun _ same _ => same) outline.advance))
  · exact .inr ⟨.unexpectedToken .identifier (kindsOf source outline.peek), outline,
      fun _ => bind_of_error (if_neg expected)⟩

theorem uniform_skipSemicolon :
    Uniform (fun _ => id) fun _ : Rewording source => skipSemicolon := by
  intro outline
  by_cases next : kindsOf source outline.peek = .semicolon
  · refine .inl ⟨(), outline.advance, fun rewording => ?_⟩
    rw [← outline.advance_fill]
    exact congrArg (EStateM.Result.ok ()) (if_pos next)
  · exact .inl ⟨(), outline, fun _ => congrArg (EStateM.Result.ok ()) (if_neg next)⟩

section

variable {α β : Type} {fill : Rewording source → β → α} {items : Rewording source → Parse α}

theorem Uniform.afterCommas (h : Uniform fill items) (bound : Nat) :
    Uniform (fun rewording => List.map (fill rewording))
      fun rewording => afterCommas (items rewording) bound := by
  induction bound with
  | zero => exact uniform_pure []
  | succ bound ih =>
    refine uniform_peekKind.bind fun kind => Uniform.ite _ ?_ (uniform_pure [])
    refine uniform_advance.bind fun _ => h.bind fun first => ih.bind fun rest => ?_
    exact uniform_pure (first :: rest)

theorem Uniform.bracketed (h : Uniform fill items) :
    Uniform (fun rewording => List.map (fill rewording))
      fun rewording => bracketed (items rewording) := by
  refine uniform_peekKind.bind fun kind =>
    Uniform.ite _ (uniform_advance.bind fun _ => uniform_pure []) ?_
  refine h.bind fun first => uniform_remaining.bind fun bound => ?_
  refine (h.afterCommas bound).bind fun rest => (uniform_expectPeek _).bind fun _ => ?_
  exact uniform_pure (first :: rest)

end

end Parse

/-- What a level offers is the same on all rewordings of a source. -/
structure Level.Blind (source : List (Option Token)) (offered : Level) : Prop where
  expression (power : BindingPower) :
    Uniform Rewording.expression fun _ : Rewording source => offered.expression power
  operators (power : BindingPower) (left : Expr.Outline source) :
    Uniform Rewording.expression fun rewording : Rewording source =>
      offered.operators power (rewording.expression left)
  block : Uniform Rewording.block fun _ : Rewording source => offered.block

section Forms

theorem uniform_parsePrimary :
    Uniform Rewording.expression fun _ : Rewording source => OperandForm.parsePrimary := by
  refine uniform_current.bind fun index => ?_
  simp only [Rewording.token]
  cases kind : kindsOf source index with
  | identifier =>
    exact uniform_pure (Expr.Outline.identifier (.ofKind kind (by decide) fun _ same _ => same))
  | trueKeyword => exact uniform_pure (Expr.Outline.boolean true)
  | falseKeyword => exact uniform_pure (Expr.Outline.boolean false)
  | number =>
    cases read : Integer.read? (wordingOf source index) with
    | some value =>
      let number : Spot.Number source :=
        .ofKind kind (by decide) fun _ same text => ⟨same, by rw [text, read]; rfl⟩
      refine fun outline => .inl ⟨.integer number, outline, fun rewording => ?_⟩
      have readable : Integer.read? (rewording.wording index) = _ := rewording.read?_text number
      simp only [readable]
      rfl
    | none =>
      let number : Spot.BadNumber source :=
        .ofKind kind (by decide) fun _ same text => ⟨same, by rw [text, read]⟩
      refine fun outline => .inr ⟨.unreadableNumber number, outline, fun rewording => ?_⟩
      have unreadable : Integer.read? (rewording.wording index) = _ :=
        rewording.unreadable_text number
      simp only [unreadable]
      rfl
  | _ => exact uniform_throw (.noOperandForm _)

variable {offered : Level} (h : offered.Blind source)

include h

theorem Level.Blind.unary {outline : Cursor.Outline source}
    (known : kindsOf source outline.current ∈ unaryKinds) :
    UniformAt outline Rewording.expression fun _ => OperandForm.parseUnary offered := by
  refine .of_ok (current_fill outline) ?_
  refine (uniform_advance.bind fun _ => (h.expression .unary).bind fun operand => ?_) outline
  exact uniform_pure (Expr.Outline.unary (.ofKinds known (by decide)) operand)

theorem Level.Blind.grouping :
    Uniform Rewording.expression fun _ : Rewording source =>
      OperandForm.parseGrouping offered := by
  refine uniform_advance.bind fun _ => (h.expression .lowest).bind fun value => ?_
  exact (uniform_expectPeek _).bind fun _ => uniform_pure value

theorem Level.Blind.alternative :
    Uniform (fun rewording : Rewording source => Stmt.Outline.fillElse rewording)
      fun _ => OperandForm.parseAlternative offered := by
  refine uniform_peekKind.bind fun kind => Uniform.ite _ ?_ (uniform_pure none)
  refine uniform_advance.bind fun _ => (uniform_expectPeek _).bind fun _ => ?_
  exact h.block.bind fun body => uniform_pure (some body)

theorem Level.Blind.conditional :
    Uniform Rewording.expression fun _ : Rewording source =>
      OperandForm.parseConditional offered := by
  refine (uniform_expectPeek _).bind fun _ => uniform_advance.bind fun _ => ?_
  refine (h.expression .lowest).bind fun condition => ?_
  refine (uniform_expectPeek _).bind fun _ => (uniform_expectPeek _).bind fun _ => ?_
  refine h.block.bind fun consequence => h.alternative.bind fun alternative => ?_
  exact uniform_pure (Expr.Outline.conditional condition consequence alternative)

omit h in
theorem uniform_parseParameter :
    Uniform (fun (rewording : Rewording source) (name : Spot.Name source) => rewording.text name)
      fun _ => OperandForm.parseParameter :=
  uniform_expectName fun name => uniform_pure name

theorem Level.Blind.function :
    Uniform Rewording.expression fun _ : Rewording source =>
      OperandForm.parseFunction offered := by
  refine (uniform_expectPeek _).bind fun _ => ?_
  refine uniform_parseParameter.bracketed.bind fun parameters => ?_
  refine (uniform_expectPeek _).bind fun _ => h.block.bind fun body => ?_
  exact uniform_pure (Expr.Outline.function parameters body)

omit h in
theorem mem_unaryKinds {kind : TokenKind} (h : Tables.standard.operand kind = some .unary) :
    kind ∈ unaryKinds := by
  cases kind with
  | not | dash => decide
  | _ => cases h

omit h in
theorem mem_binaryKinds {kind : TokenKind} (h : Tables.standard.operator kind = some .binary) :
    kind ∈ binaryKinds := by
  cases kind with
  | plus | dash | star | slash | less | greater | equals | notEquals => decide
  | _ => cases h

theorem Level.Blind.operandForm {form : OperandForm} {outline : Cursor.Outline source}
    (known : Tables.standard.operand (kindsOf source outline.current) = some form) :
    UniformAt outline Rewording.expression fun _ => form.parse offered := by
  cases form with
  | primary => exact uniform_parsePrimary outline
  | unary => exact h.unary (mem_unaryKinds known)
  | grouping => exact h.grouping outline
  | conditional => exact h.conditional outline
  | function => exact h.function outline

theorem Level.Blind.operand :
    Uniform Rewording.expression fun _ : Rewording source =>
      parseOperand Tables.standard offered := by
  intro outline
  refine .of_ok (current_fill outline) ?_
  simp only [Rewording.token]
  cases known : Tables.standard.operand (kindsOf source outline.current) with
  | some form => exact h.operandForm known
  | none =>
    by_cases illegal : kindsOf source outline.current = .illegal
    · simp only [illegal, if_true]
      exact uniform_throw (.illegalToken (.ofKind illegal (by decide) fun _ same _ => same)) outline
    · simp only [illegal, if_false]
      exact uniform_throw (.noOperandForm _) outline

theorem Level.Blind.binary (left : Expr.Outline source) (power : BindingPower)
    {outline : Cursor.Outline source} (known : kindsOf source outline.current ∈ binaryKinds) :
    UniformAt outline Rewording.expression fun rewording =>
      OperatorForm.parseBinary offered (rewording.expression left) power := by
  refine .of_ok (current_fill outline) ?_
  refine (uniform_advance.bind fun _ => (h.expression power).bind fun right => ?_) outline
  exact uniform_pure (Expr.Outline.binary left (.ofKinds known (by decide)) right)

theorem Level.Blind.argument :
    Uniform Rewording.expression fun _ : Rewording source =>
      OperatorForm.parseArgument offered :=
  uniform_advance.bind fun _ => h.expression .lowest

theorem Level.Blind.call (left : Expr.Outline source) :
    Uniform Rewording.expression fun rewording : Rewording source =>
      OperatorForm.parseCall offered (rewording.expression left) := by
  refine h.argument.bracketed.bind fun arguments => ?_
  simp only [Rewording.expression, ← Expr.Outline.fillAll_eq]
  exact uniform_pure (Expr.Outline.call left arguments)

theorem Level.Blind.operatorForm {form : OperatorForm} (left : Expr.Outline source)
    (power : BindingPower) {outline : Cursor.Outline source}
    (known : Tables.standard.operator (kindsOf source outline.current) = some form) :
    UniformAt outline Rewording.expression fun rewording =>
      form.parse offered (rewording.expression left) power := by
  cases form with
  | binary => exact h.binary left power (mem_binaryKinds known)
  | call => exact h.call left outline

omit h in
theorem uniform_applyNext (power : BindingPower) (left : Expr.Outline source)
    {apply : Rewording source → OperatorForm → BindingPower → Parse Expr}
    (happly : ∀ form bound outline,
      Tables.standard.operator (kindsOf source outline.peek) = some form →
        UniformAt outline Rewording.expression fun rewording => apply rewording form bound) :
    Uniform Rewording.expression fun rewording =>
      applyNext Tables.standard power (rewording.expression left) (apply rewording) := by
  intro outline
  refine .of_ok (peekKind_fill outline) ?_
  by_cases stronger : power < Tables.standard.power (kindsOf source outline.peek)
  · simp only [if_pos stronger]
    cases known : Tables.standard.operator (kindsOf source outline.peek) with
    | some form => exact happly form _ outline known
    | none => exact uniform_pure left outline
  · simp only [if_neg stronger]
    exact uniform_pure left outline

theorem Level.Blind.letBinding :
    Uniform Rewording.statement fun _ : Rewording source =>
      StatementForm.parseLetBinding offered := by
  refine uniform_expectName fun name => ?_
  refine (uniform_expectPeek _).bind fun _ => uniform_advance.bind fun _ => ?_
  refine (h.expression .lowest).bind fun value => uniform_skipSemicolon.bind fun _ => ?_
  exact uniform_pure (Stmt.Outline.letBinding name value)

theorem Level.Blind.returning :
    Uniform Rewording.statement fun _ : Rewording source =>
      StatementForm.parseReturning offered := by
  refine uniform_advance.bind fun _ => (h.expression .lowest).bind fun value => ?_
  exact uniform_skipSemicolon.bind fun _ => uniform_pure (Stmt.Outline.returning value)

theorem Level.Blind.expressionStmt :
    Uniform Rewording.statement fun _ : Rewording source => parseExpressionStmt offered := by
  refine (h.expression .lowest).bind fun value => uniform_skipSemicolon.bind fun _ => ?_
  exact uniform_pure (Stmt.Outline.expression value)

theorem Level.Blind.statementForm (form : StatementForm) :
    Uniform Rewording.statement fun _ : Rewording source => form.parse offered := by
  cases form with
  | letBinding => exact h.letBinding
  | returning => exact h.returning
  | block => exact h.block.bind fun body => uniform_pure (Stmt.Outline.block body)

theorem Level.Blind.stmt :
    Uniform Rewording.statement fun _ : Rewording source => parseStmt Tables.standard offered := by
  refine uniform_currentKind.bind fun kind => ?_
  cases Tables.standard.statement (id kind) with
  | some form => exact h.statementForm form
  | none => exact h.expressionStmt

/-- The statements of a block are left out on all rewordings or on none. -/
theorem Level.Blind.stmts (bound : Nat) :
    Uniform Rewording.block fun _ : Rewording source =>
      parseStmts Tables.standard offered bound := by
  induction bound with
  | zero => exact uniform_pure []
  | succ bound ih =>
    refine uniform_currentKind.bind fun kind => Uniform.ite _ (uniform_pure []) ?_
    refine (h.stmt).attempt.bind fun stmt? => uniform_advance.bind fun _ => ?_
    refine ih.bind fun rest => ?_
    cases stmt? with
    | none => exact uniform_pure rest
    | some stmt => exact uniform_pure (stmt :: rest)

theorem Level.Blind.body :
    Uniform Rewording.block fun _ : Rewording source => parseBody Tables.standard offered := by
  refine uniform_advance.bind fun _ => uniform_remaining.bind fun bound => ?_
  refine (h.stmts bound).bind fun body => uniform_currentKind.bind fun kind => ?_
  exact Uniform.ite _ (uniform_pure body) (uniform_throw (.unexpectedToken .closeCurly kind))

end Forms

theorem level_blind (left : Nat) : (level Tables.standard left).Blind source := by
  induction left with
  | zero =>
    exact {
      expression := fun _ => uniform_tooDeep
      operators := fun power value => by
        simp only [operators_zero]
        exact uniform_applyNext power value fun _ _ outline _ => uniform_tooDeep outline
      block := uniform_tooDeep }
  | succ left ih =>
    refine { expression := fun power => ?_, operators := fun power value => ?_, block := ?_ }
    · refine (uniform_openLevel _).bind fun _ => ih.operand.bind fun value => ?_
      exact ih.operators power value
    · simp only [operators_succ]
      refine uniform_applyNext power value fun form bound outline known => ?_
      -- The operator is still the next token when its level is open, and then the current one.
      refine .of_ok (openLevel_fill _ outline) (.of_ok (advance_fill _) ?_)
      exact (ih.operatorForm value bound known).bind fun whole => ih.operators power whole
    · exact (uniform_openLevel _).bind fun _ => ih.body

theorem uniform_parseStmtsToEnd {offered : Level} (h : offered.Blind source)
    (bound : Nat) (outline : Cursor.Outline source) :
    ∃ (stmts : List (Stmt.Outline source)) (last : Cursor.Outline source),
      ∀ rewording : Rewording source,
        parseStmtsToEnd Tables.standard offered bound (outline.fill rewording) =
        (rewording.block stmts, last.fill rewording) := by
  induction bound generalizing outline with
  | zero => exact ⟨[], outline, fun _ => rfl⟩
  | succ bound ih =>
    cases ended : kindsOf source outline.current == .eof with
    | true => exact ⟨[], outline, fun _ => if_pos ended⟩
    | false =>
      have round (rewording : Rewording source) :
          parseStmtsToEnd Tables.standard offered (bound + 1) (outline.fill rewording) = _ :=
        if_neg (ne_true_of_eq_false ended)
      rcases h.stmt outline with ⟨stmt, middle, run⟩ | ⟨error, middle, run⟩
      · obtain ⟨rest, last, later⟩ := ih middle.advance
        refine ⟨stmt :: rest, last, fun rewording => (round rewording).trans ?_⟩
        have ran : parseStmt Tables.standard offered (outline.fill rewording) = _ := run rewording
        rw [ran]
        simp only [middle.advance_fill, later]
        rfl
      · obtain ⟨rest, last, later⟩ := ih (middle.record error).advance
        refine ⟨rest, last, fun rewording => (round rewording).trans ?_⟩
        have ran : parseStmt Tables.standard offered (outline.fill rewording) = _ := run rewording
        rw [ran, ← later, ← Cursor.Outline.advance_fill]
        rfl

def Cursor.Outline.start (source : List (Option Token)) : Cursor.Outline source :=
  advance (advance ⟨0, false, source.length, source.length, [], 0⟩)

theorem Cursor.ofSource_fill (rewording : Rewording source) :
    Cursor.ofSource rewording.answers = (Cursor.Outline.start source).fill rewording := by
  rw [Cursor.Outline.start, ← Cursor.Outline.advance_fill, ← Cursor.Outline.advance_fill,
    Cursor.Outline.fill, rewording.token_length]
  rfl

theorem exists_parseProgram_fill (source : List (Option Token)) :
    ∃ (stmts : List (Stmt.Outline source)) (last : Cursor.Outline source),
      ∀ rewording : Rewording source, (Parser.ofSource rewording.answers).parseProgram =
        (rewording.block stmts, { Parser.ofSource rewording.answers with
          cursor := last.fill rewording }) := by
  have blind : (level Tables.standard maxNesting).Blind source := level_blind _
  obtain ⟨stmts, last, runs⟩ := uniform_parseStmtsToEnd blind
    (source.length - (Cursor.Outline.start source).read + 2) (Cursor.Outline.start source)
  refine ⟨stmts, last, fun rewording => ?_⟩
  have run := runs rewording
  rw [← Cursor.Outline.remaining_fill _ rewording, ← Cursor.ofSource_fill] at run
  exact congrArg (fun parsed : Program × Cursor =>
    (parsed.1, { Parser.ofSource rewording.answers with cursor := parsed.2 })) run

/-- What a source parses to but for its texts, with the calls that are made. -/
structure Outline (source : List (Option Token)) where
  program : List (Stmt.Outline source)
  errors : List (ParseError.Outline source)
  calls : Nat

/-- A rewording parses to what an outline says, with the texts of the rewording filled in. -/
structure Outline.Tells (outline : Outline source) (rewording : Rewording source) : Prop where
  program : (parse rewording.answers).1 = Stmt.Outline.fillAll rewording outline.program
  errors : (parse rewording.answers).2 =
    outline.errors.map (ParseError.Outline.fill rewording)
  calls : (Parser.ofSource rewording.answers).parseProgram.2.pulls = outline.calls

/-- The parser decides on the kinds of tokens only, and on whether a number can be read. A source
has an outline, with a token of the source for each text: an identifier for a name, an operator, a
number that can be read for an integer. In whatever words, itself or a rewording of it, the source
parses to that outline, filled with the words of the same tokens. -/
theorem parse_reworded (source : List (Option Token)) :
    ∃ outline : Outline source, ∀ rewording : Rewording source, outline.Tells rewording := by
  obtain ⟨stmts, last, runs⟩ := exists_parseProgram_fill source
  refine ⟨⟨stmts, last.journal.reverse.filterMap id, last.journal.countP Option.isNone⟩,
    fun rewording => ?_⟩
  have parsed := runs rewording
  refine ⟨?_, ?_, ?_⟩
  · rw [parse, parsed]
  · rw [parse, parsed]
    exact last.errors_fill rewording
  · rw [parsed]
    exact last.pulls_fill rewording

def plainSource : List (Option Token) :=
  [some ⟨.letKeyword, "let"⟩, some ⟨.identifier, "x"⟩, some ⟨.assignment, "="⟩,
    some ⟨.number, "12"⟩, some ⟨.plus, "+"⟩, some ⟨.identifier, "y"⟩, some ⟨.semicolon, ";"⟩,
    some ⟨.illegal, "@"⟩, some ⟨.number, "9223372036854775808"⟩, some Token.eof]

def disguisedSource : List (Option Token) :=
  [some ⟨.letKeyword, "return"⟩, some ⟨.identifier, "if"⟩, some ⟨.assignment, "=="⟩,
    some ⟨.number, "-7"⟩, some ⟨.plus, "*"⟩, some ⟨.identifier, "true"⟩, some ⟨.semicolon, ""⟩,
    some ⟨.illegal, "let"⟩, some ⟨.number, "ten"⟩, some ⟨.eof, "fn"⟩]

theorem parse_reworded_disguised :
    ∃ disguised : Rewording plainSource, disguised.answers = disguisedSource ∧
      ∃ outline : Outline plainSource,
        outline.Tells (.refl plainSource) ∧ outline.Tells disguised ∧
        parse plainSource =
          ([.letBinding "x" (.binary (.integer 12) "+" (.identifier "y"))],
            [.illegalToken "@", .unreadableNumber "9223372036854775808"]) ∧
        parse disguisedSource =
          ([.letBinding "if" (.binary (.integer (-7)) "*" (.identifier "true"))],
            [.illegalToken "let", .unreadableNumber "ten"]) := by
  obtain ⟨outline, tells⟩ := parse_reworded plainSource
  have same : List.Forall₂ Reworded plainSource disguisedSource := by decide
  exact ⟨⟨disguisedSource, same⟩, rfl, outline, tells _, tells _, rfl, rfl⟩

end Monkey
