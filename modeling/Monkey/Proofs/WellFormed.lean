import Monkey.FrontEnd
import Monkey.Proofs.Canonical
import Monkey.Proofs.Soundness
import Monkey.Unicode.Alphabet

set_option autoImplicit false

namespace Monkey

open Parse

theorem Integer.nonneg_of_read? {text : String} {value : Int64}
    (digits : text.toList.all isDigit = true) (h : Integer.read? text = some value) :
    0 ≤ value.toInt := by
  rw [Integer.read?] at h
  cases chars : text.toList with
  | nil =>
    rw [chars] at h
    cases h
  | cons c cs =>
    rw [chars] at h digits
    have digit : isDigit c = true := by
      rw [List.all_cons, Bool.and_eq_true] at digits
      exact digits.1
    rw [Integer.readChars?_of_isDigit cs digit] at h
    obtain ⟨number, -, hnumber⟩ := Option.bind_eq_some_iff.1 h
    simp only [Integer.ofInt?, Integer.inRange, Bool.and_eq_true, decide_eq_true_eq,
      Option.ite_none_right_eq_some, Option.some.injEq] at hnumber
    obtain ⟨⟨low, high⟩, rfl⟩ := hnumber
    rw [Int64.toInt_ofInt_of_le (by omega) (by omega)]
    omega

section

variable [Alphabet]

theorem unary_of_genuine {token : Token} (genuine : token.Genuine)
    (h : token.kind = .not ∨ token.kind = .dash) :
    unaryOperators.contains token.literal = true := by
  rcases h with h | h
  · rw [genuine.operator "!" (by rw [h]; decide)]
    decide
  · rw [genuine.operator "-" (by rw [h]; decide)]
    decide

theorem binary_of_genuine {token : Token} {layer : Layer} (genuine : token.Genuine)
    (h : token.kind ∈ layer.operators) : binaryOperators.contains token.literal = true := by
  have known : ∃ text ∈ binaryOperators, (text, token.kind) ∈ operatorTable := by
    cases layer <;> simp only [Layer.operators, List.mem_cons, List.not_mem_nil, or_false] at h
    · rcases h with h | h <;> rw [h] <;> decide
    · rcases h with h | h <;> rw [h] <;> decide
    · rcases h with h | h <;> rw [h] <;> decide
    · rcases h with h | h <;> rw [h] <;> decide
  obtain ⟨text, binary, member⟩ := known
  rw [genuine.operator text member]
  exact List.contains_iff_mem.2 binary

theorem Token.genuine_eof : Token.eof.Genuine := genuine_of_other "" (by decide)

/-- All tokens that a cursor shows or may still show carry texts of their kinds. -/
structure Cursor.Genuine (cursor : Cursor) : Prop where
  current : cursor.current.Genuine
  peek : cursor.peek.Genuine
  source : ∀ token, some token ∈ cursor.source → token.Genuine

namespace Cursor.Genuine

variable {cursor : Cursor}

theorem advance (h : cursor.Genuine) : cursor.advance.Genuine := by
  obtain ⟨current, peek, source⟩ := h
  obtain ⟨answers, exhausted, first, second, journal, deepest⟩ := cursor
  cases exhausted with
  | true => exact ⟨peek, Token.genuine_eof, source⟩
  | false =>
    rcases answers with _ | ⟨_ | token, rest⟩
    · exact ⟨peek, Token.genuine_eof, source⟩
    · exact ⟨peek, Token.genuine_eof, fun token member => source token (.tail _ member)⟩
    · exact ⟨peek, source token (.head _), fun other member => source other (.tail _ member)⟩

theorem move (h : cursor.Genuine) (move : Move) : (cursor.move move).Genuine := by
  cases move with
  | advance => exact h.advance
  | record error => exact ⟨h.current, h.peek, h.source⟩
  | reach depth => exact ⟨h.current, h.peek, h.source⟩
  | abandon => exact ⟨Token.genuine_eof, Token.genuine_eof, h.source⟩

theorem moves (h : cursor.Genuine) (trail : List Move) : (cursor.moves trail).Genuine := by
  induction trail generalizing cursor with
  | nil => exact h
  | cons move trail ih => exact ih (h.move move)

theorem leaves {α : Type} (h : cursor.Genuine) (action : Parse α) [moves : Moves action] :
    (leaves (action cursor)).Genuine := by
  obtain ⟨trail, htrail⟩ := moves.trail cursor
  rw [htrail]
  exact h.moves trail

end Cursor.Genuine

theorem Cursor.genuine_ofSource {source : List (Option Token)}
    (h : ∀ token, some token ∈ source → token.Genuine) : (Cursor.ofSource source).Genuine := by
  have start : (Cursor.mk source false Token.eof Token.eof [] 0).Genuine :=
    ⟨Token.genuine_eof, Token.genuine_eof, h⟩
  exact start.advance.advance

namespace Parse

/-- If a cursor shows genuine tokens only, an action gives a good value there or none. -/
def Gives {α : Type} (action : Parse α) (cursor : Cursor) (good : α → Prop) : Prop :=
  cursor.Genuine → ∀ value last, action cursor = .ok value last → good value

section

variable {α β : Type} {first second : Parse α} {next : α → Parse β} {cursor middle : Cursor}
  {good : α → Prop} {goal : β → Prop}

theorem gives_pure {value : α} (h : good value) : Gives (pure value) cursor good := by
  intro _ result last run
  cases run
  exact h

theorem gives_throw (error : ParseError) : Gives (throw error) cursor good := by
  intro _ result last run
  cases run

theorem gives_tooDeep : Gives (tooDeep : Parse α) cursor good := by
  intro _ result last run
  cases run

theorem Gives.bind [Moves first] (hfirst : Gives first cursor good)
    (hnext : ∀ value last, good value → Gives (next value) last goal) :
    Gives (first >>= next) cursor goal := by
  intro genuine result last run
  obtain ⟨value, middle, early, late⟩ := ok_of_bind run
  have later := genuine.leaves first
  rw [early] at later
  exact hnext value middle (hfirst genuine value middle early) later result last late

theorem Gives.after [Moves first] (hnext : ∀ value last, Gives (next value) last goal) :
    Gives (first >>= next) cursor goal :=
  Gives.bind (fun _ _ _ _ => trivial) fun value last (_ : True) => hnext value last

theorem Gives.of_ok [Moves first] {value : α} (run : first cursor = .ok value middle)
    (hnext : Gives (next value) middle goal) : Gives (first >>= next) cursor goal := by
  intro genuine result last whole
  have later := genuine.leaves first
  rw [run] at later
  rw [bind_of_ok run] at whole
  exact hnext later result last whole

theorem Gives.ite {condition : Prop} [Decidable condition] (hfirst : Gives first cursor good)
    (hsecond : Gives second cursor good) :
    Gives (if condition then first else second) cursor good := by
  split
  · exact hfirst
  · exact hsecond

theorem gives_expectPeek {kind : TokenKind} {next : Unit → Parse β}
    (hnext : ∀ last : Cursor, last.current.kind = kind → Gives (next ()) last goal) :
    Gives (expectPeek kind >>= next) cursor goal := by
  by_cases expected : cursor.peek.kind = kind
  · exact Gives.of_ok (if_pos expected) (hnext cursor.advance expected)
  · intro _ result last run
    rw [bind_of_error (if_neg expected : expectPeek kind cursor = _)] at run
    cases run

theorem Gives.attempt (h : Gives first cursor good) :
    Gives (attempt first) cursor fun value? => ∀ value ∈ value?, good value := by
  intro genuine value? last run value member
  cases hrun : first cursor with
  | ok result middle =>
    simp only [Parse.attempt, hrun, EStateM.Result.ok.injEq] at run
    obtain ⟨rfl, rfl⟩ := run
    obtain rfl := Option.mem_some_iff.1 member
    exact h genuine _ _ hrun
  | error error middle =>
    by_cases fatal : error.isFatal = true
    · simp [Parse.attempt, hrun, fatal] at run
    · simp only [Parse.attempt, hrun, fatal] at run
      obtain ⟨rfl, -⟩ := run
      cases member

theorem Gives.afterCommas [Moves first] (h : ∀ cursor, Gives first cursor good) (bound : Nat) :
    Gives (afterCommas first bound) cursor fun values => ∀ value ∈ values, good value := by
  induction bound generalizing cursor with
  | zero => exact gives_pure (by simp)
  | succ bound ih =>
    refine Gives.after fun _ middle => Gives.ite (Gives.after fun _ last => ?_)
      (gives_pure (by simp))
    refine (h last).bind fun value _ hvalue => ih.bind fun values _ hvalues => gives_pure ?_
    simpa using ⟨hvalue, hvalues⟩

theorem Gives.bracketed [Moves first] (h : ∀ cursor, Gives first cursor good) :
    Gives (bracketed first) cursor fun values => ∀ value ∈ values, good value := by
  refine Gives.after fun _ middle => Gives.ite (Gives.after fun _ _ => gives_pure (by simp)) ?_
  refine (h middle).bind fun value _ hvalue => Gives.after fun _ last => ?_
  refine (Gives.afterCommas h _).bind fun values _ hvalues => Gives.after fun _ _ => gives_pure ?_
  simpa using ⟨hvalue, hvalues⟩

end

end Parse

theorem Expr.wellFormedEach_of_forall {values : List Expr}
    (h : ∀ value ∈ values, value.wellFormed = true) : Expr.wellFormedEach values = true := by
  induction values with
  | nil => rfl
  | cons value values ih =>
    obtain ⟨first, others⟩ := List.forall_mem_cons.1 h
    rw [Expr.wellFormedEach, first, ih others, Bool.and_self]

theorem Program.wellFormed_append {early late : List Stmt}
    (h : Program.wellFormed early = true) (h' : Program.wellFormed late = true) :
    Program.wellFormed (early ++ late) = true := by
  induction early with
  | nil => exact h'
  | cons stmt rest ih =>
    rw [Program.wellFormed, Bool.and_eq_true] at h
    rw [List.cons_append, Program.wellFormed, h.1, ih h.2, Bool.and_self]

theorem Program.wellFormed_toList {stmt? : Option Stmt}
    (h : ∀ stmt ∈ stmt?, stmt.wellFormed = true) : Program.wellFormed stmt?.toList = true := by
  cases stmt? with
  | none => rfl
  | some stmt => rw [Option.toList_some, Program.wellFormed, h stmt rfl, Program.wellFormed,
      Bool.and_self]

/-- What is offered is well formed wherever the tokens in view are genuine. -/
structure Level.WellFormed (offered : Level) : Prop where
  expression (power : BindingPower) (cursor : Cursor) :
    Gives (offered.expression power) cursor fun value => value.wellFormed = true
  operators (power : BindingPower) {value : Expr} (cursor : Cursor)
    (left : value.wellFormed = true) :
    Gives (offered.operators power value) cursor fun whole => whole.wellFormed = true
  block (cursor : Cursor) :
    Gives offered.block cursor fun body => Program.wellFormed body = true

section Forms

variable {offered : Level} [offered.Moves] {cursor : Cursor}

theorem gives_parsePrimary :
    Gives OperandForm.parsePrimary cursor fun value => value.wellFormed = true := by
  intro genuine
  refine Gives.of_ok (rfl : current cursor = _) ?_ genuine
  split
  · rename_i kind
    exact gives_pure (genuine.current.name kind)
  · exact gives_pure rfl
  · exact gives_pure rfl
  · rename_i kind
    split
    · rename_i value read
      have digits := genuine.current.digits kind
      exact gives_pure (decide_eq_true (Integer.nonneg_of_read? digits read))
    · exact gives_throw _
  · exact gives_throw _

theorem Level.WellFormed.unary (h : offered.WellFormed)
    (kind : cursor.current.kind = .not ∨ cursor.current.kind = .dash) :
    Gives (OperandForm.parseUnary offered) cursor fun value => value.wellFormed = true := by
  intro genuine
  have known := unary_of_genuine genuine.current kind
  refine Gives.of_ok (rfl : current cursor = _) (Gives.after fun _ last => ?_) genuine
  refine (h.expression .unary last).bind fun operand _ hoperand => gives_pure ?_
  rw [Expr.wellFormed, known, hoperand, Bool.and_self]

theorem Level.WellFormed.alternative (h : offered.WellFormed) :
    Gives (OperandForm.parseAlternative offered) cursor fun body =>
      Block.wellFormedElse body = true := by
  refine Gives.after fun _ _ => Gives.ite ?_ (gives_pure rfl)
  refine Gives.after fun _ _ => Gives.after fun _ last => ?_
  exact (h.block last).bind fun body _ hbody => gives_pure hbody

theorem Level.WellFormed.conditional (h : offered.WellFormed) :
    Gives (OperandForm.parseConditional offered) cursor fun value =>
      value.wellFormed = true := by
  refine Gives.after fun _ _ => Gives.after fun _ test => ?_
  refine (h.expression .lowest test).bind fun condition _ hcondition => ?_
  refine Gives.after fun _ _ => Gives.after fun _ brace => ?_
  refine (h.block brace).bind fun consequence _ hfirst => ?_
  refine h.alternative.bind fun alternative _ hsecond => gives_pure ?_
  rw [Expr.wellFormed, hcondition, hfirst, hsecond, Bool.and_self, Bool.and_self]

theorem gives_parseParameter :
    Gives OperandForm.parseParameter cursor fun name => isName name = true := by
  refine gives_expectPeek fun last kind genuine => ?_
  exact Gives.of_ok (rfl : current last = _) (gives_pure (genuine.current.name kind)) genuine

theorem Level.WellFormed.function (h : offered.WellFormed) :
    Gives (OperandForm.parseFunction offered) cursor fun value => value.wellFormed = true := by
  refine Gives.after fun _ _ => ?_
  refine (Gives.bracketed fun _ => gives_parseParameter).bind fun parameters _ hparameters => ?_
  refine Gives.after fun _ brace => (h.block brace).bind fun body _ hbody => gives_pure ?_
  rw [Expr.wellFormed, List.all_eq_true.2 hparameters, hbody, Bool.and_self]

theorem Level.WellFormed.operand (h : offered.WellFormed) :
    Gives (parseOperand Tables.standard offered) cursor fun value =>
      value.wellFormed = true := by
  refine Gives.of_ok (rfl : current cursor = _) ?_
  split
  · rename_i form hform
    have kind := mem_kinds_of_operand hform
    cases form with
    | primary => exact gives_parsePrimary
    | unary => exact h.unary (by simpa [OperandForm.kinds] using kind)
    | grouping =>
      refine Gives.after fun _ inner => (h.expression .lowest inner).bind fun value _ hvalue => ?_
      exact Gives.after fun _ _ => gives_pure hvalue
    | conditional => exact h.conditional
    | function => exact h.function
  · exact Gives.ite (gives_throw _) (gives_throw _)

variable {value : Expr} {power : BindingPower}

theorem Level.WellFormed.operatorForm (h : offered.WellFormed) (left : value.wellFormed = true)
    {form : OperatorForm} (known : Tables.standard.operator cursor.current.kind = some form)
    (bound : BindingPower) :
    Gives (form.parse offered value bound) cursor fun whole => whole.wellFormed = true := by
  intro genuine
  cases form with
  | binary =>
    obtain ⟨layer, kind, -⟩ := Layer.exists_of_binary known
    have operator := binary_of_genuine genuine.current kind
    refine Gives.of_ok (rfl : current cursor = _) (Gives.after fun _ last => ?_) genuine
    refine (h.expression bound last).bind fun right _ hright => gives_pure ?_
    rw [Expr.wellFormed, left, operator, hright, Bool.and_self, Bool.and_self]
  | call =>
    have argument (start : Cursor) : Gives (OperatorForm.parseArgument offered) start fun value =>
        value.wellFormed = true := Gives.after fun _ last => h.expression .lowest last
    refine (Gives.bracketed argument).bind (fun arguments _ harguments => gives_pure ?_) genuine
    rw [Expr.wellFormed, left, Expr.wellFormedEach_of_forall harguments, Bool.and_self]

omit [offered.Moves] in
theorem gives_applyNext {apply : OperatorForm → BindingPower → Parse Expr}
    (left : value.wellFormed = true)
    (h : ∀ form bound, Tables.standard.operator cursor.peek.kind = some form →
      Gives (apply form bound) cursor fun whole => whole.wellFormed = true) :
    Gives (applyNext Tables.standard power value apply) cursor fun whole =>
      whole.wellFormed = true := by
  refine Gives.of_ok (rfl : peekKind cursor = _) (Gives.ite ?_ (gives_pure left))
  split
  · rename_i form hform
    exact h form _ hform
  · exact gives_pure left

theorem Level.WellFormed.statement (h : offered.WellFormed) :
    Gives (parseStmt Tables.standard offered) cursor fun stmt => stmt.wellFormed = true := by
  refine Gives.of_ok (rfl : currentKind cursor = _) ?_
  split
  · rename_i form hform
    have kind := mem_kinds_of_statement hform
    cases form with
    | letBinding =>
      refine gives_expectPeek fun last hname genuine => ?_
      have name := genuine.current.name hname
      refine Gives.of_ok (rfl : current last = _) ?_ genuine
      refine Gives.after fun _ _ => Gives.after fun _ start => ?_
      refine (h.expression .lowest start).bind fun value _ hvalue => ?_
      refine Gives.after fun _ _ => gives_pure ?_
      rw [Stmt.wellFormed, name, hvalue, Bool.and_self]
    | returning =>
      refine Gives.after fun _ start => (h.expression .lowest start).bind fun value _ hvalue => ?_
      exact Gives.after fun _ _ => gives_pure hvalue
    | block => cases kind
  · refine (h.expression .lowest cursor).bind fun value _ hvalue => ?_
    exact Gives.after fun _ _ => gives_pure hvalue

theorem Level.WellFormed.statements (h : offered.WellFormed) (bound : Nat) :
    Gives (parseStmts Tables.standard offered bound) cursor fun body =>
      Program.wellFormed body = true := by
  induction bound generalizing cursor with
  | zero => exact gives_pure rfl
  | succ bound ih =>
    refine Gives.after fun _ start => Gives.ite (gives_pure rfl) ?_
    refine (Gives.attempt h.statement).bind fun stmt? _ hstmt => Gives.after fun _ _ => ?_
    refine ih.bind fun rest _ hrest => gives_pure ?_
    exact Program.wellFormed_append (Program.wellFormed_toList hstmt) hrest

theorem Level.WellFormed.body (h : offered.WellFormed) :
    Gives (parseBody Tables.standard offered) cursor fun body =>
      Program.wellFormed body = true := by
  refine Gives.after fun _ _ => Gives.after fun _ _ => ?_
  refine (h.statements _).bind fun body _ hbody => Gives.after fun _ _ => ?_
  exact Gives.ite (gives_pure hbody) (gives_throw _)

end Forms

/-- With any number of levels left, well-formed trees are offered. -/
theorem level_wellFormed (left : Nat) : (standardLevel left).WellFormed := by
  induction left with
  | zero =>
    refine ⟨fun _ _ => gives_tooDeep, fun power value cursor hvalue => ?_, fun _ => gives_tooDeep⟩
    exact gives_applyNext hvalue fun _ _ _ => gives_tooDeep
  | succ below ih =>
    refine ⟨fun power cursor => ?_, fun power value cursor hvalue => ?_, fun cursor => ?_⟩
    · refine Gives.after fun _ _ => ih.operand.bind fun value last hvalue => ?_
      exact ih.operators power last hvalue
    · rw [operators_succ]
      refine gives_applyNext hvalue fun form bound known => ?_
      refine Gives.of_ok (rfl : openLevel _ cursor = _) ?_
      refine Gives.of_ok (rfl : advance (cursor.reach _) = _) ?_
      refine (ih.operatorForm hvalue known bound).bind fun whole last hwhole => ?_
      exact ih.operators power last hwhole
    · exact Gives.after fun _ _ => ih.body

theorem wellFormed_parseStmtsToEnd (left bound : Nat) {cursor : Cursor} (genuine : cursor.Genuine) :
    Program.wellFormed
      (parseStmtsToEnd Tables.standard (standardLevel left) bound cursor).1 = true := by
  induction bound generalizing cursor with
  | zero => rfl
  | succ bound ih =>
    have later := genuine.leaves (parseStmt Tables.standard (standardLevel left))
    have kept : Gives _ cursor _ := (level_wellFormed left).statement
    rw [parseStmtsToEnd]
    split
    · rfl
    · cases run : parseStmt Tables.standard (standardLevel left) cursor with
      | ok stmt after =>
        rw [run] at later
        change after.Genuine at later
        rw [Program.wellFormed, kept genuine stmt after run, ih later.advance, Bool.and_self]
      | error error after =>
        rw [run] at later
        exact ih (Cursor.Genuine.move later (.record error)).advance

theorem wellFormed_parse {source : List (Option Token)}
    (h : ∀ token, some token ∈ source → token.Genuine) :
    Program.wellFormed (parse source).1 = true :=
  wellFormed_parseStmtsToEnd maxNesting _ (Cursor.genuine_ofSource h)

theorem genuine_of_mem_answers (mode : LexMode) (source : String) {token : Token}
    (h : some token ∈ mode.answers source) : token.Genuine := by
  rw [LexMode.answers_eq, tokenize_eq_scan] at h
  exact genuine_of_mem_scan (by simpa using h)

/-- Whatever errors are reported, the program that is returned is well formed: no block stands as a
statement, integers carry no sign, operators are operators and names are names. -/
theorem wellFormed_returned (source : String) (config : Config) :
    Program.wellFormed (parseSource source config).1 = true :=
  wellFormed_parse fun _ member => genuine_of_mem_answers config.mode source member

end

theorem wellFormed_returned_broken :
    parseSource "let ñ = -7; let 1; if (x" {} =
        ([.letBinding "ñ" (.unary "-" (.integer 7)), .expression (.integer 1)],
          [.unexpectedToken .identifier .number, .unexpectedToken .closeParen .eof]) ∧
      Program.wellFormed (parseSource "let ñ = -7; let 1; if (x" {}).1 = true :=
  ⟨by decide +kernel, wellFormed_returned _ _⟩

end Monkey
