import Mathlib.Data.List.Forall2
import Monkey.Proofs.Coupling

set_option autoImplicit false

namespace Monkey

open Parse

/-- What a tree keeps of a token. -/
inductive Symbol where
  | name (text : String)
  | integer (value : Int64)
  | boolean (value : Bool)
  | unary (operator : String)
  | binary (operator : String)
  deriving DecidableEq

/-- The tokens that a symbol may be drawn from. -/
inductive Symbol.From : Symbol → Token → Prop where
  | name {token : Token} (kind : token.kind = .identifier) : From (.name token.literal) token
  | integer {token : Token} {value : Int64} (kind : token.kind = .number)
      (read : Integer.read? token.literal = some value) : From (.integer value) token
  | boolean {token : Token} {value : Bool}
      (kind : token.kind = if value then .trueKeyword else .falseKeyword) :
      From (.boolean value) token
  | unary {token : Token} (kind : token.kind = .not ∨ token.kind = .dash) :
      From (.unary token.literal) token
  | binary {token : Token} {layer : Layer} (kind : token.kind ∈ layer.operators) :
      From (.binary token.literal) token

mutual

def Expr.symbols : Expr → List Symbol
  | .identifier name => [.name name]
  | .integer value => [.integer value]
  | .boolean value => [.boolean value]
  | .unary operator operand => .unary operator :: operand.symbols
  | .binary left operator right => left.symbols ++ .binary operator :: right.symbols
  | .conditional condition consequence alternative =>
    condition.symbols ++ Block.symbols consequence ++ Block.symbolsElse alternative
  | .function parameters body => parameters.map .name ++ Block.symbols body
  | .call callee arguments => callee.symbols ++ Expr.symbolsEach arguments

def Expr.symbolsEach : List Expr → List Symbol
  | [] => []
  | value :: values => value.symbols ++ Expr.symbolsEach values

def Stmt.symbols : Stmt → List Symbol
  | .letBinding name value => .name name :: value.symbols
  | .returning value => value.symbols
  | .expression value => value.symbols
  | .block body => Block.symbols body

def Block.symbols : List Stmt → List Symbol
  | [] => []
  | stmt :: rest => stmt.symbols ++ Block.symbols rest

def Block.symbolsElse : Option (List Stmt) → List Symbol
  | none => []
  | some body => Block.symbols body

end

theorem Block.symbols_append (early late : List Stmt) :
    Block.symbols (early ++ late) = Block.symbols early ++ Block.symbols late := by
  induction early with
  | nil => rfl
  | cons stmt rest ih => rw [List.cons_append, Block.symbols, Block.symbols, ih, List.append_assoc]

theorem Block.symbols_toList (stmt? : Option Stmt) :
    Block.symbols stmt?.toList = stmt?.elim [] Stmt.symbols := by
  cases stmt? with
  | none => rfl
  | some stmt => rw [Option.toList_some, Block.symbols, Block.symbols, List.append_nil]; rfl

theorem Expr.symbolsEach_eq (values : List Expr) :
    Expr.symbolsEach values = values.flatMap Expr.symbols := by
  induction values with
  | nil => rfl
  | cons value values ih => rw [Expr.symbolsEach, ih, List.flatMap_cons]

theorem sublistForall₂_append {symbols others : List Symbol} {tokens more : List Token}
    (h : List.SublistForall₂ Symbol.From symbols tokens)
    (hmore : List.SublistForall₂ Symbol.From others more) :
    List.SublistForall₂ Symbol.From (symbols ++ others) (tokens ++ more) := by
  induction h with
  | @nil tokens =>
    induction tokens with
    | nil => exact hmore
    | cons token tokens ih => exact .cons_right ih
  | cons same _ ih => exact .cons same ih
  | cons_right _ ih => exact .cons_right ih

/-- Symbols that were drawn from the tokens before those that are unread. -/
def Drawn (tokens : List Token) (symbols : List Symbol) (unread : List Token) : Prop :=
  ∃ read, read ++ unread = tokens ∧ List.SublistForall₂ Symbol.From symbols read

namespace Drawn

variable {tokens unread later : List Token} {symbols : List Symbol}

theorem skip (h : Drawn tokens symbols unread) (suffix : later <:+ unread) :
    Drawn tokens symbols later := by
  obtain ⟨read, rfl, drawn⟩ := h
  obtain ⟨passed, rfl⟩ := suffix
  refine ⟨read ++ passed, List.append_assoc read passed later, ?_⟩
  have further := sublistForall₂_append drawn (.nil (l := passed))
  rwa [List.append_nil] at further

theorem draw {symbol : Symbol} {token : Token} (h : Drawn tokens symbols (token :: unread))
    (origin : symbol.From token) : Drawn tokens (symbols ++ [symbol]) unread := by
  obtain ⟨read, rfl, drawn⟩ := h
  exact ⟨read ++ [token], List.append_assoc read [token] unread,
    sublistForall₂_append drawn (.cons origin .nil)⟩

theorem sublist (h : Drawn tokens symbols unread) :
    List.SublistForall₂ Symbol.From symbols tokens := by
  obtain ⟨read, rfl, drawn⟩ := h
  have whole := sublistForall₂_append drawn (.nil (l := unread))
  rwa [List.append_nil] at whole

end Drawn

theorem Symbol.From.kind_ne_eof {symbol : Symbol} {token : Token} (h : symbol.From token) :
    token.kind ≠ .eof := by
  intro ended
  cases h with
  | name kind => simp [ended] at kind
  | integer kind _ => simp [ended] at kind
  | @boolean _ value kind => cases value <;> simp [ended] at kind
  | unary kind => simp [ended] at kind
  | @binary _ layer kind => cases layer <;> simp [ended, Layer.operators] at kind

/-- A cursor at a place, with symbols drawn from what was read before. -/
structure Cursor.Drew (cursor : Cursor) (place : Place) (tokens : List Token)
    (symbols : List Symbol) : Prop where
  settled : cursor.Settled
  drawn : Drawn tokens symbols (cursor.unread place)

namespace Cursor.Drew

variable {cursor : Cursor} {tokens : List Token} {symbols : List Symbol}

theorem advance (h : cursor.Drew .next tokens symbols) :
    cursor.advance.Drew .current tokens symbols := by
  refine ⟨h.settled.advance, ?_⟩
  rw [Cursor.unread, Cursor.ahead_advance]
  exact h.drawn

theorem pass (h : cursor.Drew .current tokens symbols) : cursor.Drew .next tokens symbols := by
  refine ⟨h.settled, h.drawn.skip ?_⟩
  change cursor.after <:+ cursor.ahead
  by_cases ended : cursor.current.kind = .eof
  · have none := Cursor.ahead_of_end ended
    rw [Cursor.ahead_eq_nil_of_after none h.settled]
    exact List.nil_suffix
  · rw [Cursor.ahead_of_current ended]
    exact List.suffix_cons _ _

theorem draw {symbol : Symbol} (h : cursor.Drew .current tokens symbols)
    (origin : symbol.From cursor.current) :
    cursor.Drew .next tokens (symbols ++ [symbol]) := by
  refine ⟨h.settled, Drawn.draw ?_ origin⟩
  change Drawn tokens symbols (cursor.current :: cursor.after)
  rw [← Cursor.ahead_of_current origin.kind_ne_eof]
  exact h.drawn

theorem move (h : cursor.Drew .next tokens symbols) (move : Move) :
    (cursor.move move).Drew .next tokens symbols :=
  ⟨h.settled.move move, h.drawn.skip (Cursor.after_suffix_move h.settled move)⟩

theorem moves (h : cursor.Drew .next tokens symbols) (trail : List Move) :
    (cursor.moves trail).Drew .next tokens symbols := by
  induction trail generalizing cursor with
  | nil => exact h
  | cons move trail ih => exact ih (h.move move)

theorem leaves {α : Type} (h : cursor.Drew .next tokens symbols) (action : Parse α)
    [moves : Moves action] : (leaves (action cursor)).Drew .next tokens symbols := by
  obtain ⟨trail, htrail⟩ := moves.trail cursor
  rw [htrail]
  exact h.moves trail

end Cursor.Drew

namespace Parse

/-- If an action gives a value, it leads to where something holds. -/
def Leads {α : Type} (action : Parse α) (cursor : Cursor) (post : α → Cursor → Prop) : Prop :=
  ∀ value last, action cursor = .ok value last → post value last

section

variable {α β : Type} {first second : Parse α} {next : α → Parse β} {cursor middle : Cursor}
  {post : α → Cursor → Prop} {goal : β → Cursor → Prop} {tokens : List Token}
  {symbols : List Symbol}

theorem leads_pure {value : α} (h : post value cursor) : Leads (pure value) cursor post := by
  intro result last run
  cases run
  exact h

theorem leads_throw (error : ParseError) : Leads (throw error) cursor post := by
  intro result last run
  cases run

theorem leads_tooDeep : Leads (tooDeep : Parse α) cursor post := by
  intro result last run
  cases run

theorem Leads.bind (hfirst : Leads first cursor post)
    (hnext : ∀ value last, post value last → Leads (next value) last goal) :
    Leads (first >>= next) cursor goal := by
  intro result last run
  obtain ⟨value, middle, early, late⟩ := ok_of_bind run
  exact hnext value middle (hfirst value middle early) result last late

theorem Leads.ite {condition : Prop} [Decidable condition] (hfirst : Leads first cursor post)
    (hsecond : Leads second cursor post) :
    Leads (if condition then first else second) cursor post := by
  split
  · exact hfirst
  · exact hsecond

theorem leads_of_ok {value : α} (run : first cursor = .ok value middle)
    (hnext : Leads (next value) middle goal) : Leads (first >>= next) cursor goal := by
  intro result last whole
  rw [bind_of_ok run] at whole
  exact hnext result last whole

theorem leads_after [Moves first] (h : cursor.Drew .next tokens symbols)
    (hnext : ∀ value last, last.Drew .next tokens symbols → Leads (next value) last goal) :
    Leads (first >>= next) cursor goal := by
  have kept : Leads first cursor fun _ last => last.Drew .next tokens symbols := by
    intro value last run
    have left := h.leaves first
    rwa [run] at left
  exact kept.bind hnext

end

end Parse

/-- The symbols of what is offered are drawn from the tokens that are read for it. -/
structure Level.Draws (offered : Level) (tokens : List Token) : Prop where
  expression {cursor : Cursor} {symbols : List Symbol} (power : BindingPower)
    (h : cursor.Drew .current tokens symbols) :
    Leads (offered.expression power) cursor fun value last =>
      last.Drew .next tokens (symbols ++ value.symbols)
  operators {cursor : Cursor} {symbols : List Symbol} (power : BindingPower) {left : Expr}
    (h : cursor.Drew .next tokens (symbols ++ left.symbols)) :
    Leads (offered.operators power left) cursor fun value last =>
      last.Drew .next tokens (symbols ++ value.symbols)
  block {cursor : Cursor} {symbols : List Symbol} (h : cursor.Drew .next tokens symbols) :
    Leads offered.block cursor fun body last =>
      last.Drew .next tokens (symbols ++ Block.symbols body)

section Forms

variable {offered : Level} {tokens : List Token} {cursor : Cursor} {symbols : List Symbol}

theorem leads_parsePrimary (h : cursor.Drew .current tokens symbols) :
    Leads OperandForm.parsePrimary cursor fun value last =>
      last.Drew .next tokens (symbols ++ value.symbols) := by
  refine leads_of_ok (rfl : current cursor = _) ?_
  split
  · rename_i kind
    exact leads_pure (h.draw (.name kind))
  · rename_i kind
    exact leads_pure (h.draw (.boolean kind))
  · rename_i kind
    exact leads_pure (h.draw (.boolean kind))
  · rename_i kind
    split
    · rename_i value read
      exact leads_pure (h.draw (.integer kind read))
    · exact leads_throw _
  · exact leads_throw _

theorem leads_expectName {β : Type} {next : Unit → Parse β} {goal : β → Cursor → Prop}
    (h : cursor.Drew .next tokens symbols)
    (hnext : ∀ last : Cursor, last.Drew .next tokens (symbols ++ [.name last.current.literal]) →
      Leads (next ()) last goal) :
    Leads (expectPeek .identifier >>= next) cursor goal := by
  by_cases expected : cursor.peek.kind = .identifier
  · exact leads_of_ok (if_pos expected) (hnext _ (h.advance.draw (.name expected)))
  · intro _ _ run
    rw [bind_of_error (if_neg expected : expectPeek .identifier cursor = _)] at run
    cases run

theorem leads_parseParameter (h : cursor.Drew .next tokens symbols) :
    Leads OperandForm.parseParameter cursor fun name last =>
      last.Drew .next tokens (symbols ++ [.name name]) :=
  leads_expectName h fun _ drawn => leads_of_ok rfl (leads_pure drawn)

theorem leads_afterCommas {α : Type} {item : Parse α} (drawn : α → List Symbol)
    (hitem : ∀ {cursor : Cursor} {symbols : List Symbol}, cursor.Drew .next tokens symbols →
      Leads item cursor fun value last => last.Drew .next tokens (symbols ++ drawn value))
    (bound : Nat) (h : cursor.Drew .next tokens symbols) :
    Leads (afterCommas item bound) cursor fun values last =>
      last.Drew .next tokens (symbols ++ values.flatMap drawn) := by
  induction bound generalizing cursor symbols with
  | zero => exact leads_pure (by rwa [List.flatMap_nil, List.append_nil])
  | succ bound ih =>
    refine leads_after h fun _ _ h => Leads.ite ?_ ?_
    · refine leads_after h fun _ _ h => (hitem h).bind fun value _ h => ?_
      refine (ih h).bind fun values _ h => leads_pure ?_
      rwa [List.flatMap_cons, ← List.append_assoc]
    · exact leads_pure (by rwa [List.flatMap_nil, List.append_nil])

theorem leads_bracketed {α : Type} {item : Parse α} (drawn : α → List Symbol)
    (hitem : ∀ {cursor : Cursor} {symbols : List Symbol}, cursor.Drew .next tokens symbols →
      Leads item cursor fun value last => last.Drew .next tokens (symbols ++ drawn value))
    (h : cursor.Drew .next tokens symbols) :
    Leads (bracketed item) cursor fun values last =>
      last.Drew .next tokens (symbols ++ values.flatMap drawn) := by
  refine leads_after h fun _ _ h => Leads.ite ?_ ?_
  · exact leads_after h fun _ _ h => leads_pure (by rwa [List.flatMap_nil, List.append_nil])
  · refine (hitem h).bind fun value _ h => leads_after h fun _ _ h => ?_
    refine (leads_afterCommas drawn hitem _ h).bind fun values _ h => leads_after h fun _ _ h => ?_
    exact leads_pure (by rwa [List.flatMap_cons, ← List.append_assoc])

theorem Level.Draws.behind (h : offered.Draws tokens) (power : BindingPower) {β : Type}
    {next : Expr → Parse β} {goal : β → Cursor → Prop} (drawn : cursor.Drew .next tokens symbols)
    (hnext : ∀ value last, last.Drew .next tokens (symbols ++ value.symbols) →
      Leads (next value) last goal) :
    Leads (advance >>= fun _ => offered.expression power >>= next) cursor goal :=
  leads_of_ok (rfl : advance cursor = _) ((h.expression power drawn.advance).bind hnext)

theorem Level.Draws.alternative (h : offered.Draws tokens)
    (drawn : cursor.Drew .next tokens symbols) :
    Leads (OperandForm.parseAlternative offered) cursor fun body last =>
      last.Drew .next tokens (symbols ++ Block.symbolsElse body) := by
  refine leads_after drawn fun _ _ drawn => Leads.ite ?_ ?_
  · refine leads_after drawn fun _ _ drawn => leads_after drawn fun _ _ drawn => ?_
    exact (h.block drawn).bind fun body _ drawn => leads_pure drawn
  · exact leads_pure (by rwa [Block.symbolsElse, List.append_nil])

theorem Level.Draws.operand (h : offered.Draws tokens)
    (drawn : cursor.Drew .current tokens symbols) :
    Leads (parseOperand Tables.standard offered) cursor fun value last =>
      last.Drew .next tokens (symbols ++ value.symbols) := by
  refine leads_of_ok (rfl : current cursor = _) ?_
  split
  · rename_i form hform
    have kind := mem_kinds_of_operand hform
    cases form with
    | primary => exact leads_parsePrimary drawn
    | unary =>
      have operator := drawn.draw (.unary (by simpa [OperandForm.kinds] using kind))
      refine leads_of_ok (rfl : current cursor = _) (h.behind .unary operator ?_)
      refine fun operand _ drawn => leads_pure ?_
      rwa [List.append_assoc] at drawn
    | grouping =>
      refine h.behind .lowest drawn.pass fun value _ drawn => ?_
      exact leads_after drawn fun _ _ drawn => leads_pure drawn
    | conditional =>
      refine leads_after drawn.pass fun _ _ drawn => h.behind .lowest drawn ?_
      refine fun condition _ drawn => leads_after drawn fun _ _ drawn => ?_
      refine leads_after drawn fun _ _ drawn => (h.block drawn).bind fun consequence _ drawn => ?_
      refine (h.alternative drawn).bind fun alternative _ drawn => leads_pure ?_
      rwa [List.append_assoc, List.append_assoc, ← List.append_assoc (Expr.symbols _)] at drawn
    | function =>
      refine leads_after drawn.pass fun _ _ drawn => ?_
      refine (leads_bracketed (fun name => [.name name]) leads_parseParameter drawn).bind ?_
      refine fun parameters _ drawn => leads_after drawn fun _ _ drawn => ?_
      refine (h.block drawn).bind fun body _ drawn => leads_pure ?_
      rwa [← List.map_eq_flatMap, List.append_assoc] at drawn
  · exact Leads.ite (leads_throw _) (leads_throw _)

variable {left : Expr}

theorem Level.Draws.operatorForm (h : offered.Draws tokens)
    (drawn : cursor.Drew .current tokens (symbols ++ left.symbols)) {form : OperatorForm}
    (known : Tables.standard.operator cursor.current.kind = some form) (power : BindingPower) :
    Leads (form.parse offered left power) cursor fun whole last =>
      last.Drew .next tokens (symbols ++ whole.symbols) := by
  cases form with
  | binary =>
    obtain ⟨layer, kind, -⟩ := Layer.exists_of_binary known
    have operator := drawn.draw (.binary kind)
    refine leads_of_ok (rfl : current cursor = _) (h.behind power operator ?_)
    refine fun right _ drawn => leads_pure ?_
    rwa [List.append_assoc, List.append_assoc] at drawn
  | call =>
    have argument {cursor : Cursor} {symbols : List Symbol}
        (drawn : cursor.Drew .next tokens symbols) :
        Leads (OperatorForm.parseArgument offered) cursor fun value last =>
          last.Drew .next tokens (symbols ++ value.symbols) :=
      leads_of_ok (rfl : advance cursor = _) (h.expression .lowest drawn.advance)
    refine (leads_bracketed Expr.symbols argument drawn.pass).bind fun arguments _ drawn => ?_
    refine leads_pure ?_
    rwa [← Expr.symbolsEach_eq, List.append_assoc] at drawn

theorem leads_applyNext {power : BindingPower} {post : Expr → Cursor → Prop}
    {apply : OperatorForm → BindingPower → Parse Expr} (stays : post left cursor)
    (h : ∀ form bound, Tables.standard.operator cursor.peek.kind = some form →
      Leads (apply form bound) cursor post) :
    Leads (applyNext Tables.standard power left apply) cursor post := by
  refine leads_of_ok (rfl : peekKind cursor = _) (Leads.ite ?_ (leads_pure stays))
  split
  · rename_i form hform
    exact h form _ hform
  · exact leads_pure stays

theorem Level.Draws.terminated (h : offered.Draws tokens) {build : Expr → Stmt}
    (more : List Symbol) (same : ∀ value, (build value).symbols = more ++ value.symbols)
    (drawn : cursor.Drew .current tokens (symbols ++ more)) :
    Leads (offered.expression .lowest >>= fun value => skipSemicolon >>= fun _ =>
      pure (build value)) cursor fun stmt last =>
        last.Drew .next tokens (symbols ++ stmt.symbols) := by
  refine (h.expression .lowest drawn).bind fun value _ drawn => ?_
  refine leads_after drawn fun _ _ drawn => leads_pure ?_
  rwa [same, ← List.append_assoc]

theorem Level.Draws.statement (h : offered.Draws tokens)
    (drawn : cursor.Drew .current tokens symbols) :
    Leads (parseStmt Tables.standard offered) cursor fun stmt last =>
      last.Drew .next tokens (symbols ++ stmt.symbols) := by
  have plain := drawn
  rw [← List.append_nil symbols] at plain
  refine leads_of_ok (rfl : currentKind cursor = _) ?_
  split
  · rename_i form hform
    have kind := mem_kinds_of_statement hform
    cases form with
    | letBinding =>
      refine leads_expectName drawn.pass fun last named => leads_of_ok (rfl : current last = _) ?_
      refine leads_after named fun _ last named => leads_of_ok (rfl : advance last = _) ?_
      exact h.terminated [.name _] (fun _ => rfl) named.advance
    | returning =>
      refine leads_of_ok (rfl : advance cursor = _) ?_
      exact h.terminated [] (fun _ => rfl) plain.pass.advance
    | block => cases kind
  · exact h.terminated [] (fun _ => rfl) plain

variable [offered.Moves]

/-- A statement that is given up draws nothing. -/
theorem Level.Draws.attempted (h : offered.Draws tokens)
    (drawn : cursor.Drew .current tokens symbols) :
    Leads (attempt (parseStmt Tables.standard offered)) cursor fun stmt? last =>
      last.Drew .next tokens (symbols ++ Block.symbols stmt?.toList) := by
  intro stmt? last run
  have read := h.statement drawn
  have left := drawn.pass.leaves (parseStmt Tables.standard offered)
  unfold attempt at run
  generalize hresult : parseStmt Tables.standard offered cursor = result at run left
  cases result with
  | ok stmt middle =>
    cases run
    rw [Block.symbols_toList]
    exact read stmt last hresult
  | error error middle =>
    dsimp only at run
    split at run
    · cases run
    · cases run
      rw [Block.symbols_toList, Option.elim_none, List.append_nil]
      exact left.move (.record error)

theorem Level.Draws.statements (h : offered.Draws tokens) (bound : Nat)
    (drawn : cursor.Drew .current tokens symbols) :
    Leads (parseStmts Tables.standard offered bound) cursor fun body last =>
      last.Drew .current tokens (symbols ++ Block.symbols body) := by
  have stays {cursor : Cursor} {symbols : List Symbol}
      (drawn : cursor.Drew .current tokens symbols) :
      cursor.Drew .current tokens (symbols ++ Block.symbols []) := by
    rwa [Block.symbols, List.append_nil]
  induction bound generalizing cursor symbols with
  | zero => exact leads_pure (stays drawn)
  | succ bound ih =>
    refine leads_of_ok (rfl : currentKind cursor = _) (Leads.ite (leads_pure (stays drawn)) ?_)
    refine (h.attempted drawn).bind fun stmt? last drawn => ?_
    refine leads_of_ok (rfl : advance last = _) ((ih drawn.advance).bind fun rest _ drawn => ?_)
    refine leads_pure ?_
    rwa [Block.symbols_append, ← List.append_assoc]

theorem Level.Draws.body (h : offered.Draws tokens) (drawn : cursor.Drew .next tokens symbols) :
    Leads (parseBody Tables.standard offered) cursor fun body last =>
      last.Drew .next tokens (symbols ++ Block.symbols body) := by
  refine leads_of_ok (rfl : advance cursor = _) ?_
  refine leads_of_ok (rfl : remaining cursor.advance = _) ?_
  refine (h.statements _ drawn.advance).bind fun body last drawn => ?_
  refine leads_of_ok (rfl : currentKind last = _) (Leads.ite (leads_pure drawn.pass) ?_)
  exact leads_throw _

end Forms

theorem level_draws (tokens : List Token) (left : Nat) : (standardLevel left).Draws tokens := by
  induction left with
  | zero =>
    refine ⟨fun _ _ => leads_tooDeep, fun power _ drawn => ?_, fun _ => leads_tooDeep⟩
    exact leads_applyNext drawn fun _ _ _ => leads_tooDeep
  | succ below ih =>
    refine ⟨fun power drawn => ?_, fun power left drawn => ?_, fun drawn => ?_⟩
    · refine leads_of_ok (rfl : openLevel _ _ = _) ?_
      refine (ih.operand ⟨drawn.settled.reach _, drawn.drawn⟩).bind fun value last drawn => ?_
      exact ih.operators power drawn
    · rw [operators_succ]
      refine leads_applyNext drawn fun form bound known => ?_
      refine leads_of_ok (rfl : openLevel _ _ = _) (leads_of_ok (rfl : advance _ = _) ?_)
      have opened := drawn.move (.reach (maxNesting - below))
      refine (ih.operatorForm opened.advance known bound).bind fun whole last drawn => ?_
      exact ih.operators power drawn
    · exact leads_of_ok (rfl : openLevel _ _ = _) (ih.body (drawn.move (.reach _)))

theorem drew_parseStmtsToEnd (left bound : Nat) {tokens : List Token} {cursor : Cursor}
    {symbols : List Symbol} (drawn : cursor.Drew .current tokens symbols) :
    (parseStmtsToEnd Tables.standard (standardLevel left) bound cursor).2.Drew .current tokens
      (symbols ++
        Block.symbols (parseStmtsToEnd Tables.standard (standardLevel left) bound cursor).1) := by
  induction bound generalizing cursor symbols with
  | zero => simpa [parseStmtsToEnd, Block.symbols] using drawn
  | succ bound ih =>
    by_cases stops : cursor.current.kind = .eof
    · rw [parseStmtsToEnd_of_end _ _ _ stops]
      simpa [Block.symbols] using drawn
    · have read := (level_draws tokens left).statement drawn
      have kept := drawn.pass.leaves (parseStmt Tables.standard (standardLevel left))
      rw [parseStmtsToEnd_succ stops, Block.symbols_append, ← List.append_assoc]
      refine ih ?_
      cases run : parseStmt Tables.standard (standardLevel left) cursor with
      | ok stmt last =>
        have here := read stmt last run
        rw [given, ended, Block.symbols_toList]
        exact here.advance
      | error error last =>
        rw [run] at kept
        rw [given, ended, Block.symbols_toList, Option.elim_none, List.append_nil]
        exact (kept.move (.record error)).advance

/-- Whatever errors are reported, the symbols of the program that is returned are drawn from the
tokens before the first end of the source, in their order and each from a token of its own. -/
theorem symbols_parse (source : List (Option Token)) :
    List.SublistForall₂ Symbol.From (Block.symbols (parse source).1) (untilEnd source) := by
  have start : (Cursor.ofSource source).Drew .current (untilEnd source) [] :=
    ⟨Cursor.settled_ofSource source, [], Cursor.ahead_ofSource source, .nil⟩
  exact (drew_parseStmtsToEnd maxNesting _ start).drawn.sublist

end Monkey
