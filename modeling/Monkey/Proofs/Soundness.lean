import Monkey.Proofs.Completeness
import Monkey.Proofs.Quiet

set_option autoImplicit false

namespace Monkey

open Parse

def BindingPower.layer : BindingPower → Layer
  | lowest => .equality
  | equals => .comparison
  | lessGreater => .sum
  | sum => .product
  | product => .unary
  | unary => .unary
  | call => .call

theorem Layer.exists_of_binary {kind : TokenKind}
    (h : Tables.standard.operator kind = some .binary) : ∃ layer : Layer,
      kind ∈ layer.operators ∧ Tables.standardPower kind = layer.power ∧
        (Tables.standardPower kind).layer = layer.tighter ∧
        Tables.standardPower kind ≠ .call := by
  cases kind with
  | equals | notEquals => exact ⟨.equality, by decide, rfl, rfl, by decide⟩
  | less | greater => exact ⟨.comparison, by decide, rfl, rfl, by decide⟩
  | plus | dash => exact ⟨.sum, by decide, rfl, rfl, by decide⟩
  | star | slash => exact ⟨.product, by decide, rfl, rfl, by decide⟩
  | _ => cases h

theorem kind_of_call {kind : TokenKind} (h : Tables.standard.operator kind = some .call) :
    kind = .openParen := by
  cases kind <;> first | rfl | cases h

theorem Derives.loosen_fits {layer : Layer} {value : Expr} {spine n : Nat} {tokens : List Token}
    {power : BindingPower} (h : Derives (.expression layer value spine) tokens n)
    (fits : Fits power layer) : Derives (.expression power.layer value spine) tokens n := by
  apply h.loosen
  rcases fits with fits | ⟨rfl, rfl⟩
  · revert fits
    cases power <;> cases layer <;> decide
  · exact Nat.le_refl _

/-- The tokens of an operand with nothing on its spine, and what it lets follow. -/
def ReadsOperand (left : Nat) (cursor : Cursor) (value : Expr) (last : Cursor) : Prop :=
  ∃ layer tokens n, cursor.ahead = tokens ++ last.after ∧
    Derives (.expression layer value 0) tokens n ∧ n ≤ left + 1 ∧
    (layer = .call ∨
      layer = .unary ∧ ¬ BindingPower.unary < Tables.standardPower (headKind last.after))

/-- The tokens of an expression above a power. -/
def ReadsExpression (left : Nat) (power : BindingPower) (cursor : Cursor) (value : Expr)
    (last : Cursor) : Prop :=
  ∃ tokens spine n, cursor.ahead = tokens ++ last.after ∧
    Derives (.expression power.layer value spine) tokens n ∧ n ≤ left ∧
    ¬ power < Tables.standardPower (headKind last.after)

/-- The tokens of operators that go on from an expression with a spine. -/
def ReadsOperators (left : Nat) (power : BindingPower) (front : List Token) (spine : Nat)
    (cursor : Cursor) (value : Expr) (last : Cursor) : Prop :=
  ∃ tokens more n, cursor.after = tokens ++ last.after ∧
    Derives (.expression power.layer value more) (front ++ tokens) n ∧ n ≤ left + 1 + spine ∧
    ¬ power < Tables.standardPower (headKind last.after)

def ReadsBlock (left : Nat) (cursor : Cursor) (body : Block) (last : Cursor) : Prop :=
  ∃ tokens n, cursor.ahead = tokens ++ last.after ∧ Derives (.block body) tokens n ∧ n ≤ left

/-- What is offered while a number of levels is left reads what it gives. -/
structure Level.Sound (offered : Level) (left : Nat) : Prop where
  expression {power : BindingPower} {cursor : Cursor} : power ≠ .call → cursor.Settled →
    Ensures (offered.expression power) cursor (ReadsExpression left power cursor)
  operators {power : BindingPower} {cursor : Cursor} {layer : Layer} {value : Expr}
    {spine n : Nat} {front : List Token} : power ≠ .call → cursor.Settled →
    Derives (.expression layer value spine) front n → n ≤ left + 1 + spine → Fits power layer →
    ¬ layer.power < Tables.standardPower (headKind cursor.after) →
    Ensures (offered.operators power value) cursor (ReadsOperators left power front spine cursor)
  block {cursor : Cursor} : cursor.Settled → headKind cursor.ahead = .openCurly →
    Ensures offered.block cursor (ReadsBlock left cursor)

theorem exists_of_headKind {tokens : List Token} {kind : TokenKind} (h : headKind tokens = kind)
    (hkind : kind ≠ .eof) : ∃ token rest, token.kind = kind ∧ tokens = token :: rest := by
  cases tokens with
  | nil => exact absurd h.symm hkind
  | cons token rest => exact ⟨token, rest, h, rfl⟩

theorem Cursor.ahead_of_kind {cursor : Cursor} {kind : TokenKind}
    (h : cursor.current.kind = kind) (hkind : kind ≠ .eof) :
    cursor.ahead = cursor.current :: cursor.after :=
  Cursor.ahead_of_current (by rw [h]; exact hkind)

section Operands

variable {offered : Level} {left : Nat} {cursor : Cursor}

theorem ensures_parsePrimary :
    Ensures OperandForm.parsePrimary cursor (ReadsOperand left cursor) := by
  apply ensures_current
  split
  · rename_i kind
    exact ensures_pure ⟨.call, [cursor.current], 1, Cursor.ahead_of_kind kind (by decide),
      .identifier kind, by omega, .inl rfl⟩
  · rename_i kind
    exact ensures_pure ⟨.call, [cursor.current], 1, Cursor.ahead_of_kind kind (by decide),
      .boolean kind, by omega, .inl rfl⟩
  · rename_i kind
    exact ensures_pure ⟨.call, [cursor.current], 1, Cursor.ahead_of_kind kind (by decide),
      .boolean kind, by omega, .inl rfl⟩
  · rename_i kind
    split
    · rename_i value read
      exact ensures_pure ⟨.call, [cursor.current], 1, Cursor.ahead_of_kind kind (by decide),
        .number kind read, by omega, .inl rfl⟩
    · exact ensures_throw _
  · exact ensures_throw _

variable [offered.Moves]

theorem Level.Sound.unary (h : offered.Sound left) (settled : cursor.Settled)
    (kind : cursor.current.kind = .not ∨ cursor.current.kind = .dash) :
    Ensures (OperandForm.parseUnary offered) cursor (ReadsOperand left cursor) := by
  have some : cursor.current.kind ≠ .eof := by
    rcases kind with kind | kind <;> rw [kind] <;> decide
  refine ensures_current (ensures_advance ?_)
  refine (h.expression (by decide) settled.advance).bind settled.advance ?_
  rintro value last _ ⟨tokens, spine, n, hahead, hvalue, hn, hstop⟩
  refine ensures_pure ⟨.unary, cursor.current :: tokens, 1 + n, ?_, .unary kind hvalue, by omega,
    .inr ⟨rfl, hstop⟩⟩
  rw [Cursor.ahead_of_current some, ← Cursor.ahead_advance, hahead]
  rfl

theorem Level.Sound.grouping (h : offered.Sound left) (settled : cursor.Settled)
    (kind : cursor.current.kind = .openParen) :
    Ensures (OperandForm.parseGrouping offered) cursor (ReadsOperand left cursor) := by
  apply ensures_advance
  refine (h.expression (by decide) settled.advance).bind settled.advance ?_
  rintro value last hlast ⟨tokens, spine, n, hahead, hvalue, hn, -⟩
  refine ensures_expectPeek hlast (by decide) fun closing hclosing hafter _ => ?_
  refine ensures_pure ⟨.call, cursor.current :: (tokens ++ [closing]), 1 + n, ?_,
    .grouping kind hclosing hvalue, by omega, .inl rfl⟩
  rw [Cursor.ahead_of_kind kind (by decide), ← Cursor.ahead_advance, hahead, hafter]
  simp

theorem Level.Sound.blockBehind {α : Type} {next : Block → Parse α} {goal : α → Cursor → Prop}
    (h : offered.Sound left) (settled : cursor.Settled) [∀ body, Parse.Moves (next body)]
    (hnext : ∀ body tokens n last, last.Settled → cursor.after = tokens ++ last.after →
      Derives (.block body) tokens n → n ≤ left → Ensures (next body) last goal) :
    Ensures (expectPeek .openCurly >>= fun _ => offered.block >>= next) cursor goal := by
  refine ensures_expectPeek settled (by decide) fun opening hopening _ hcurrent => ?_
  have start : headKind cursor.advance.ahead = .openCurly := by
    rw [Cursor.headKind_ahead, hcurrent, hopening]
  refine (h.block settled.advance start).bind settled.advance ?_
  rintro body last hlast ⟨tokens, n, hahead, hbody, hn⟩
  rw [Cursor.ahead_advance] at hahead
  exact hnext body tokens n last hlast hahead hbody hn

theorem Level.Sound.alternative (h : offered.Sound left) (settled : cursor.Settled) :
    Ensures (OperandForm.parseAlternative offered) cursor (fun body last => ∃ tokens n,
      cursor.after = tokens ++ last.after ∧ Derives (.alternative body) tokens n ∧ n ≤ left) := by
  apply ensures_peekKind
  split
  · rename_i helse
    obtain ⟨keyword, rest, hkind, hafter⟩ := exists_of_headKind helse (by decide)
    apply ensures_advance
    refine h.blockBehind settled.advance fun body tokens n last hlast hbehind hbody hn => ?_
    refine ensures_pure ⟨keyword :: tokens, n, ?_, .alternative hkind hbody, hn⟩
    rw [Cursor.after_advance settled, hafter] at hbehind
    rw [hafter, List.cons_append, ← hbehind]
    rfl
  · exact ensures_pure ⟨[], 0, rfl, .noAlternative, Nat.zero_le left⟩

-- Two blocks and five tokens stand in a row.
set_option synthInstance.maxSize 256 in
theorem Level.Sound.conditional (h : offered.Sound left) (settled : cursor.Settled)
    (kind : cursor.current.kind = .ifKeyword) :
    Ensures (OperandForm.parseConditional offered) cursor (ReadsOperand left cursor) := by
  refine ensures_expectPeek settled (by decide) fun opening hopening hbehind _ => ?_
  apply ensures_advance
  refine (h.expression (by decide) settled.advance.advance).bind settled.advance.advance ?_
  rintro condition middle hmiddle ⟨tokens, spine, n, hahead, hcondition, hn, -⟩
  refine ensures_expectPeek hmiddle (by decide) fun closing hclosing hafter _ => ?_
  refine h.blockBehind hmiddle.advance fun body first m last hlast hfirst hbody hm => ?_
  refine (h.alternative hlast).bind hlast ?_
  rintro other final _ ⟨second, k, hsecond, hother, hk⟩
  refine ensures_pure ⟨.call,
    cursor.current :: opening :: (tokens ++ closing :: (first ++ second)), 1 + max n (max m k), ?_,
    .conditional kind hopening hclosing hcondition hbody hother, by omega, .inl rfl⟩
  rw [Cursor.ahead_of_kind kind (by decide), hbehind, ← Cursor.ahead_advance, hahead, hafter,
    hfirst, hsecond]
  simp

theorem ensures_parseParameter (settled : cursor.Settled) :
    Ensures OperandForm.parseParameter cursor (fun name last => ∃ tokens,
      cursor.after = tokens ++ last.after ∧
        ∃ token : Token, token.kind = .identifier ∧ tokens = [token] ∧ name = token.literal) := by
  refine ensures_expectPeek settled (by decide) fun token hkind hafter hcurrent => ?_
  refine ensures_current (ensures_pure ⟨[token], hafter, token, hkind, rfl, ?_⟩)
  rw [hcurrent]

theorem exists_parameters {names : List String} {tokens : List Token}
    (h : Listed (fun tokens name => ∃ token : Token, token.kind = .identifier ∧ tokens = [token] ∧
      name = token.literal) names tokens) : ∃ n, Derives (.parameters names) tokens n := by
  cases names with
  | nil => exact ⟨0, by rw [show tokens = [] from h]; exact .noParameters⟩
  | cons name names =>
    obtain ⟨_, late, rfl, ⟨token, hkind, rfl, rfl⟩, hlate⟩ := h
    induction names generalizing token late with
    | nil =>
      obtain rfl : late = [] := hlate
      exact ⟨0, .lastParameter hkind⟩
    | cons next names ih =>
      obtain ⟨comma, _, later, hcomma, rfl, ⟨other, hother, rfl, rfl⟩, hlater⟩ := hlate
      obtain ⟨n, hrest⟩ := ih later hlater other hother
      exact ⟨n, .moreParameters hkind hcomma hrest⟩

theorem Level.Sound.function (h : offered.Sound left) (settled : cursor.Settled)
    (kind : cursor.current.kind = .fnKeyword) :
    Ensures (OperandForm.parseFunction offered) cursor (ReadsOperand left cursor) := by
  refine ensures_expectPeek settled (by decide) fun opening hopening hbehind _ => ?_
  refine (ensures_bracketed (fun _ => ensures_parseParameter) settled.advance).bind
    settled.advance ?_
  rintro names middle hmiddle ⟨tokens, closing, hclosing, hafter, hnames⟩
  refine h.blockBehind hmiddle fun body inner m last _ hinner hbody hm => ?_
  obtain ⟨k, hnames⟩ := exists_parameters hnames
  refine ensures_pure ⟨.call, cursor.current :: opening :: (tokens ++ closing :: inner), 1 + m, ?_,
    .function kind hopening hclosing hnames hbody, by omega, .inl rfl⟩
  rw [Cursor.ahead_of_kind kind (by decide), hbehind, hafter, hinner]
  simp

theorem Level.Sound.operand (h : offered.Sound left) (settled : cursor.Settled) :
    Ensures (parseOperand Tables.standard offered) cursor (ReadsOperand left cursor) := by
  apply ensures_current
  split
  · rename_i form hform
    cases form with
    | primary => exact ensures_parsePrimary
    | unary =>
      have kind := mem_kinds_of_operand hform
      simp only [OperandForm.kinds, List.mem_cons, List.not_mem_nil, or_false] at kind
      exact h.unary settled kind
    | grouping => exact h.grouping settled (List.mem_singleton.1 (mem_kinds_of_operand hform))
    | conditional => exact h.conditional settled (List.mem_singleton.1 (mem_kinds_of_operand hform))
    | function => exact h.function settled (List.mem_singleton.1 (mem_kinds_of_operand hform))
  · split <;> exact ensures_throw _

end Operands

def ReadsApplied (left : Nat) (front : List Token) (spine : Nat) (bound : BindingPower)
    (cursor : Cursor) (whole : Expr) (last : Cursor) : Prop :=
  ∃ (layer : Layer) (tokens : List Token) (n : Nat), cursor.ahead = tokens ++ last.after ∧
    Derives (.expression layer whole (spine + 1)) (front ++ tokens) n ∧ n ≤ left + 2 + spine ∧
    bound = layer.power ∧ ¬ layer.power < Tables.standardPower (headKind last.after)

section Operators

variable {offered : Level} {left : Nat} {cursor : Cursor} {layer : Layer} {value : Expr}
  {spine n : Nat} {front : List Token}

theorem ensures_applyNext {power : BindingPower} {apply : OperatorForm → BindingPower → Parse Expr}
    {post : Expr → Cursor → Prop}
    (hstop : ¬ power < Tables.standardPower (headKind cursor.after) → post value cursor)
    (hgo : ∀ form, Tables.standard.operator (headKind cursor.after) = some form →
      power < Tables.standardPower (headKind cursor.after) →
      Ensures (apply form (Tables.standardPower (headKind cursor.after))) cursor post) :
    Ensures (applyNext Tables.standard power value apply) cursor post := by
  apply ensures_peekKind
  by_cases hpower : power < Tables.standardPower (headKind cursor.after)
  · have strong : BindingPower.lowest < Tables.standardPower (headKind cursor.after) :=
      Nat.lt_of_le_of_lt (Nat.zero_le _) hpower
    have known : (Tables.standard.operator (headKind cursor.after)).isSome = true :=
      (Tables.standard_operator_isSome _).trans (decide_eq_true strong)
    obtain ⟨form, hform⟩ := Option.isSome_iff_exists.1 known
    rw [if_pos (by exact hpower), hform]
    exact hgo form hform hpower
  · rw [if_neg (by exact hpower)]
    exact ensures_pure (hstop hpower)

def ReadsArgument (fits : Nat → Prop) (tokens : List Token) (value : Expr) : Prop :=
  ∃ spine n, Derives (.expression .equality value spine) tokens n ∧ fits n

theorem ensures_parseArgument (h : offered.Sound left) (settled : cursor.Settled) :
    Ensures (OperatorForm.parseArgument offered) cursor (fun value last => ∃ tokens,
      cursor.after = tokens ++ last.after ∧ ReadsArgument (· ≤ left) tokens value) := by
  apply ensures_advance
  refine (h.expression (by decide) settled.advance).imp ?_
  rintro value last ⟨tokens, spine, n, hahead, hvalue, hn, -⟩
  rw [Cursor.ahead_advance] at hahead
  exact ⟨tokens, hahead, spine, n, hvalue, hn⟩

theorem exists_arguments {fits : Nat → Prop} (zero : fits 0)
    (max : ∀ n m, fits n → fits m → fits (max n m)) {values : List Expr} {tokens : List Token}
    (h : Listed (ReadsArgument fits) values tokens) :
    ∃ n, Derives (.arguments values) tokens n ∧ fits n := by
  cases values with
  | nil => exact ⟨0, by rw [show tokens = [] from h]; exact .noArguments, zero⟩
  | cons value values =>
    obtain ⟨early, late, rfl, ⟨spine, n, hvalue, hn⟩, hlate⟩ := h
    induction values generalizing value early late spine n with
    | nil =>
      obtain rfl : late = [] := hlate
      exact ⟨n, by rw [List.append_nil]; exact .lastArgument hvalue, hn⟩
    | cons next values ih =>
      obtain ⟨comma, middle, later, hcomma, rfl, ⟨side, m, hother, hm⟩, hlater⟩ := hlate
      obtain ⟨k, hrest, hk⟩ := ih next middle later hlater side m hother hm
      exact ⟨_, .moreArguments hcomma hvalue hrest, max n k hn hk⟩

variable [offered.Moves]

theorem Level.Sound.binary (h : offered.Sound left) (settled : cursor.Settled)
    (hvalue : Derives (.expression layer value spine) front n) (hn : n ≤ left + 2 + spine)
    (hform : Tables.standard.operator cursor.current.kind = some .binary)
    (hstop : ¬ layer.power < Tables.standardPower cursor.current.kind) :
    Ensures (OperatorForm.parseBinary offered value (Tables.standardPower cursor.current.kind))
      cursor (ReadsApplied left front spine (Tables.standardPower cursor.current.kind) cursor) := by
  obtain ⟨own, hkind, hpower, hlayer, hcall⟩ := Layer.exists_of_binary hform
  have some : cursor.current.kind ≠ .eof := by
    intro hend
    rw [hend] at hform
    cases hform
  refine ensures_current (ensures_advance ?_)
  refine (h.expression hcall settled.advance).bind settled.advance ?_
  rintro other last _ ⟨tokens, side, m, hahead, hother, hm, hend⟩
  rw [hlayer] at hother
  rw [hpower] at hstop hend ⊢
  have first : Derives (.expression own value spine) front n := hvalue.loosen (Nat.not_lt.1 hstop)
  refine ensures_pure ⟨own, cursor.current :: tokens, max n (spine + 2 + m), ?_,
    .binary hkind first hother, by omega, rfl, hend⟩
  rw [Cursor.ahead_of_current some, ← Cursor.ahead_advance, hahead]
  rfl

theorem Level.Sound.call (h : offered.Sound left) (settled : cursor.Settled)
    (hvalue : Derives (.expression layer value spine) front n) (hn : n ≤ left + 2 + spine)
    (kind : cursor.current.kind = .openParen)
    (hstop : ¬ layer.power < Tables.standardPower cursor.current.kind) :
    Ensures (OperatorForm.parseCall offered value) cursor
      (ReadsApplied left front spine (Tables.standardPower cursor.current.kind) cursor) := by
  rw [kind] at hstop ⊢
  have first : Derives (.expression .call value spine) front n := hvalue.loosen (Nat.not_lt.1 hstop)
  refine (ensures_bracketed (fun _ => ensures_parseArgument h) settled).bind settled ?_
  rintro values last _ ⟨tokens, closing, hclosing, hafter, hvalues⟩
  obtain ⟨m, hvalues, hm⟩ := exists_arguments (Nat.zero_le left) (fun n m hn hm => by omega) hvalues
  refine ensures_pure ⟨.call, cursor.current :: (tokens ++ [closing]), max n (spine + 2 + m), ?_,
    .call kind hclosing first hvalues, by omega, rfl, ?_⟩
  · rw [Cursor.ahead_of_kind kind (by decide), hafter]
    simp
  · cases headKind last.after <;> decide

theorem Level.Sound.applied (h : offered.Sound left) (settled : cursor.Settled)
    {form : OperatorForm} (hvalue : Derives (.expression layer value spine) front n)
    (hn : n ≤ left + 2 + spine)
    (hform : Tables.standard.operator cursor.current.kind = some form)
    (hstop : ¬ layer.power < Tables.standardPower cursor.current.kind) :
    Ensures (form.parse offered value (Tables.standardPower cursor.current.kind)) cursor
      (ReadsApplied left front spine (Tables.standardPower cursor.current.kind) cursor) := by
  cases form with
  | binary => exact h.binary settled hvalue hn hform hstop
  | call => exact h.call settled hvalue hn (kind_of_call hform) hstop

end Operators

section Statements

variable {offered : Level} [offered.Moves] {left : Nat} {cursor : Cursor}

theorem Level.Sound.terminated (h : offered.Sound left) (settled : cursor.Settled)
    (build : Expr → Stmt) :
    Ensures (offered.expression .lowest >>= fun value => skipSemicolon >>= fun _ =>
      pure (build value)) cursor (fun stmt last => ∃ value closed tokens ending spine n,
        cursor.ahead = tokens ++ (ending ++ last.after) ∧ stmt = build value ∧
        Derives (.expression .equality value spine) tokens n ∧ n ≤ left ∧
        Terminates closed ending ∧
        (closed = false → ¬ BindingPower.lowest < Tables.standardPower (headKind last.after))) := by
  refine (h.expression (by decide) settled).bind settled ?_
  rintro value middle hmiddle ⟨tokens, spine, n, hahead, hvalue, hn, hstop⟩
  by_cases hpeek : headKind middle.after = .semicolon
  · obtain ⟨semicolon, rest, hkind, hafter⟩ := exists_of_headKind hpeek (by decide)
    have moved : skipSemicolon middle = .ok () middle.advance := by
      rw [Cursor.headKind_after] at hpeek
      simp [skipSemicolon, hpeek]
    refine Ensures.of_ok moved (Cursor.errors_advance middle) (ensures_pure ?_)
    refine ⟨value, true, tokens, [semicolon], spine, n, ?_, rfl, hvalue, hn, ?_, by simp⟩
    · rw [hahead, Cursor.after_advance hmiddle, hafter]
      rfl
    · simp [Terminates, hkind]
  · have stayed : skipSemicolon middle = .ok () middle := by
      rw [Cursor.headKind_after] at hpeek
      simp [skipSemicolon, hpeek]
    refine Ensures.of_ok stayed rfl (ensures_pure ?_)
    exact ⟨value, false, tokens, [], spine, n, hahead, rfl, hvalue, hn, by simp [Terminates],
      fun _ => hstop⟩

/-- The tokens of a statement; one that is left open ends where no operator goes on. -/
def ReadsStatement (left : Nat) (cursor : Cursor) (stmt : Stmt) (last : Cursor) : Prop :=
  ∃ tokens closed n, cursor.ahead = tokens ++ last.after ∧
    Derives (.statement stmt closed) tokens n ∧ n ≤ left ∧
    (closed = false → ¬ BindingPower.lowest < Tables.standardPower (headKind last.after))

theorem Level.Sound.statement (h : offered.Sound left) (settled : cursor.Settled) :
    Ensures (parseStmt Tables.standard offered) cursor (ReadsStatement left cursor) := by
  apply ensures_currentKind
  split
  · rename_i form hform
    cases form with
    | letBinding =>
      have kind : cursor.current.kind = .letKeyword :=
        List.mem_singleton.1 (mem_kinds_of_statement hform)
      refine ensures_expectPeek settled (by decide) fun name hname hfirst hcurrent => ?_
      apply ensures_current
      refine ensures_expectPeek settled.advance (by decide) fun assign hassign hsecond _ => ?_
      apply ensures_advance
      refine (h.terminated settled.advance.advance.advance (Stmt.letBinding _)).imp ?_
      rintro stmt last ⟨value, closed, tokens, ending, spine, n, hahead, rfl, hvalue, hn,
        terminated, hopen⟩
      refine ⟨cursor.current :: name :: assign :: (tokens ++ ending), closed, n, ?_, ?_, hn, hopen⟩
      · rw [Cursor.ahead_of_kind kind (by decide), hfirst, hsecond, ← Cursor.ahead_advance, hahead]
        simp
      · rw [hcurrent]
        exact .letBinding kind hname hassign hvalue terminated
    | returning =>
      have kind : cursor.current.kind = .returnKeyword :=
        List.mem_singleton.1 (mem_kinds_of_statement hform)
      refine ensures_advance ((h.terminated settled.advance Stmt.returning).imp ?_)
      rintro stmt last ⟨value, closed, tokens, ending, spine, n, hahead, rfl, hvalue, hn,
        terminated, hopen⟩
      refine ⟨cursor.current :: (tokens ++ ending), closed, n, ?_,
        .returning kind hvalue terminated, hn, hopen⟩
      rw [Cursor.ahead_of_kind kind (by decide), ← Cursor.ahead_advance, hahead]
      simp
    | block => cases mem_kinds_of_statement hform
  · refine (h.terminated settled Stmt.expression).imp ?_
    rintro stmt last ⟨value, closed, tokens, ending, spine, n, hahead, rfl, hvalue, hn,
      terminated, hopen⟩
    refine ⟨tokens ++ ending, closed, n, ?_, .expression hvalue terminated, hn, hopen⟩
    rw [hahead, List.append_assoc]

theorem ReadsStatement.more {stmt : Stmt} {stmts : List Stmt} {middle : Cursor} {m : Nat}
    {others rest : List Token} (h : ReadsStatement left cursor stmt middle)
    (hafter : middle.after = others ++ rest) (hothers : Derives (.statements stmts) others m)
    (hm : m ≤ left) : ∃ tokens n, cursor.ahead = tokens ++ rest ∧
      Derives (.statements (stmt :: stmts)) tokens n ∧ n ≤ left := by
  obtain ⟨tokens, closed, n, hahead, hstmt, hn, hopen⟩ := h
  refine ⟨tokens ++ others, max n m, by rw [hahead, hafter, List.append_assoc], ?_, by omega⟩
  refine .moreStatements hstmt hothers fun hclosed => ?_
  have weak := hopen hclosed
  rw [hafter] at weak
  by_cases some : headKind others = .eof
  · rw [some]
    exact ⟨by decide, by decide⟩
  · rw [headKind_append some] at weak
    constructor <;> intro hkind <;> rw [hkind] at weak <;> exact weak (by decide)

theorem Level.Sound.statements (h : offered.Sound left) (settled : cursor.Settled) (bound : Nat) :
    Ensures (parseStmts Tables.standard offered bound) cursor (fun stmts last => ∃ tokens n,
      cursor.ahead = tokens ++ last.ahead ∧ Derives (.statements stmts) tokens n ∧ n ≤ left) := by
  induction bound generalizing cursor with
  | zero => exact ensures_pure ⟨[], 0, rfl, .noStatements, Nat.zero_le left⟩
  | succ bound ih =>
    apply ensures_currentKind
    split
    · exact ensures_pure ⟨[], 0, rfl, .noStatements, Nat.zero_le left⟩
    · refine (ensures_attempt (h.statement settled)).bind settled ?_
      rintro stmt? middle hmiddle ⟨stmt, rfl, hstmt⟩
      refine ensures_advance ((ih hmiddle.advance).bind hmiddle.advance ?_)
      rintro stmts last _ ⟨others, m, hahead, hothers, hm⟩
      rw [Cursor.ahead_advance] at hahead
      exact ensures_pure (hstmt.more hahead hothers hm)

theorem Level.Sound.body (h : offered.Sound left) (settled : cursor.Settled)
    (hopen : headKind cursor.ahead = .openCurly) :
    Ensures (parseBody Tables.standard offered) cursor (ReadsBlock (left + 1) cursor) := by
  obtain ⟨opening, rest, hkind, hlist⟩ := exists_of_headKind hopen (by decide)
  obtain ⟨-, hafter⟩ := Cursor.current_of_ahead hlist
  refine ensures_advance (ensures_remaining ?_)
  refine (h.statements settled.advance _).bind settled.advance ?_
  rintro stmts last _ ⟨tokens, n, hahead, hstmts, hn⟩
  apply ensures_currentKind
  split
  · rename_i hclose
    refine ensures_pure ⟨opening :: (tokens ++ [last.current]), 1 + n, ?_,
      .block hkind hclose hstmts, by omega⟩
    rw [Cursor.ahead_advance, hafter] at hahead
    rw [hlist, hahead, Cursor.ahead_of_kind hclose (by decide)]
    simp
  · exact ensures_throw _

end Statements

theorem fits_of_operand {power : BindingPower} {layer : Layer} {rest : List Token}
    (hpower : power ≠ .call)
    (h : layer = .call ∨
      layer = .unary ∧ ¬ BindingPower.unary < Tables.standardPower (headKind rest)) :
    Fits power layer ∧ ¬ layer.power < Tables.standardPower (headKind rest) := by
  rcases h with rfl | ⟨rfl, hstop⟩
  · refine ⟨.inl ?_, by cases headKind rest <;> decide⟩
    revert hpower
    cases power <;> decide
  · refine ⟨?_, hstop⟩
    revert hpower
    cases power <;> simp [Fits, Layer.power] <;> decide

/-- The parser of Monkey reads what the grammar derives, with any number of levels left. -/
theorem level_sound (left : Nat) : (standardLevel left).Sound left := by
  induction left with
  | zero =>
    refine ⟨fun _ _ => ensures_tooDeep, fun _ _ hvalue hn fits _ => ?_, fun _ _ => ensures_tooDeep⟩
    rw [operators_zero]
    refine ensures_applyNext (fun hstop => ?_) fun _ _ _ => ensures_tooDeep
    exact ⟨[], _, _, rfl, by rw [List.append_nil]; exact hvalue.loosen_fits fits, hn, hstop⟩
  | succ below ih =>
    refine ⟨fun {power cursor} hpower settled => ?_,
      fun {power cursor layer value spine n front} hpower settled hvalue hn fits hlayer => ?_,
      fun settled hopen => ?_⟩
    · refine ensures_openLevel ((ih.operand (settled.reach _)).bind (settled.reach _) ?_)
      rintro value middle hmiddle ⟨layer, front, n, hahead, hvalue, hn, hlayer⟩
      obtain ⟨fits, ends⟩ := fits_of_operand hpower hlayer
      refine (ih.operators hpower hmiddle hvalue hn fits ends).imp ?_
      rintro whole last ⟨tokens, spine, m, hafter, hwhole, hm, hstop⟩
      refine ⟨front ++ tokens, spine, m, ?_, hwhole, hm, hstop⟩
      rw [← Cursor.ahead_reach cursor, hahead, hafter, List.append_assoc]
    · rw [operators_succ]
      refine ensures_applyNext (fun hstop => ?_) fun form hform hkind => ?_
      · exact ⟨[], _, _, rfl, by rw [List.append_nil]; exact hvalue.loosen_fits fits, hn, hstop⟩
      · refine ensures_openLevel (ensures_advance ?_)
        have settledNext := (settled.reach (maxNesting - below)).advance
        have current : headKind cursor.after =
            (cursor.reach (maxNesting - below)).advance.current.kind := Cursor.headKind_after cursor
        rw [current] at hform hkind hlayer ⊢
        refine (ih.applied settledNext hvalue (by omega) hform hlayer).bind settledNext ?_
        rintro whole middle hmiddle ⟨own, tokens, m, hahead, hwhole, hm, hbound, hstop⟩
        rw [hbound] at hkind
        refine (ih.operators hpower hmiddle hwhole (by omega) (.inl hkind) hstop).imp ?_
        rintro result last ⟨more, side, k, hafter, hresult, hk, hend⟩
        refine ⟨tokens ++ more, side, k, ?_, by rwa [← List.append_assoc], by omega, hend⟩
        rw [Cursor.ahead_advance, Cursor.after_reach] at hahead
        rw [hahead, hafter, List.append_assoc]
    · exact ensures_openLevel (ih.body (settled.reach _) hopen)

end Monkey
