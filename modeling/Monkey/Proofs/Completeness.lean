import Monkey.Grammar.Level
import Monkey.Proofs.Derivation
import Monkey.Proofs.Outcome

set_option autoImplicit false

/-!
# What the grammar derives is parsed

A left spine is read from its far end. So the statement about an expression hands over to the
operators that may still follow it, and the induction is on the derivation.
-/
namespace Monkey

open Parse

abbrev standardLevel (left : Nat) : Level := level Tables.standard left

def Layer.power : Layer → BindingPower
  | equality => .equals
  | comparison => .lessGreater
  | sum => .sum
  | product => .product
  | unary => .unary
  | call => .call

theorem Layer.standardPower_of_mem {layer : Layer} {kind : TokenKind}
    (h : kind ∈ layer.operators) : Tables.standardPower kind = layer.power := by
  cases layer <;> simp only [Layer.operators, List.mem_cons, List.not_mem_nil, or_false] at h
  all_goals rcases h with rfl | rfl <;> rfl

theorem Layer.operator_of_mem {layer : Layer} {kind : TokenKind} (h : kind ∈ layer.operators) :
    Tables.standard.operator kind = some .binary := by
  cases layer <;> simp only [Layer.operators, List.mem_cons, List.not_mem_nil, or_false] at h
  all_goals rcases h with rfl | rfl <;> rfl

def OperandForm.kinds : OperandForm → List TokenKind
  | primary => [.identifier, .number, .trueKeyword, .falseKeyword]
  | unary => [.not, .dash]
  | grouping => [.openParen]
  | conditional => [.ifKeyword]
  | function => [.fnKeyword]

def StatementForm.kinds : StatementForm → List TokenKind
  | letBinding => [.letKeyword]
  | returning => [.returnKeyword]
  | block => []

theorem mem_kinds_of_operand {kind : TokenKind} {form : OperandForm}
    (h : Tables.standard.operand kind = some form) : kind ∈ form.kinds := by
  cases kind <;> cases h <;> simp [OperandForm.kinds]

theorem mem_kinds_of_statement {kind : TokenKind} {form : StatementForm}
    (h : Tables.standard.statement kind = some form) : kind ∈ form.kinds := by
  cases kind <;> cases h <;> simp [StatementForm.kinds]

/-- Above a power, an operand takes all operators of a layer. The operand of a prefix operator is
read above the power of its own layer, which has none. -/
def Fits (power : BindingPower) (layer : Layer) : Prop :=
  power < layer.power ∨ power = .unary ∧ layer = .unary

/-- Tokens that may stand behind an expression of a layer without becoming part of it. -/
def Follows (layer : Layer) (rest : List Token) : Prop :=
  ¬ layer.power < Tables.standardPower (headKind rest) ∧ headKind rest ≠ .elseKeyword

/-- Tokens that may stand behind a statement that is left open. -/
def Separates (rest : List Token) : Prop :=
  Tables.standardPower (headKind rest) = .lowest ∧ headKind rest ≠ .elseKeyword ∧
    headKind rest ≠ .semicolon

theorem Layer.rank_le_tighter (layer : Layer) : layer.power.rank ≤ layer.tighter.power.rank := by
  cases layer <;> decide

theorem Layer.power_injective {a b : Layer} (h : a.power.rank = b.power.rank) : a = b := by
  cases a <;> cases b <;> first | rfl | exact absurd h (by decide)

theorem Layer.rank_tighter {a b : Layer} (h : a.power.rank < b.power.rank) :
    a.tighter.power.rank = a.power.rank + 1 := by
  cases a with
  | call => cases b <;> exact absurd h (by decide)
  | _ => rfl

theorem Derives.loosen {a b : Layer} {value : Expr} {spine n : Nat} {tokens : List Token}
    (h : Derives (.expression b value spine) tokens n) (hle : a.power.rank ≤ b.power.rank) :
    Derives (.expression a value spine) tokens n := by
  obtain ⟨steps, hsteps⟩ := Nat.exists_eq_add_of_le hle
  induction steps generalizing a with
  | zero =>
    obtain rfl : b = a := Layer.power_injective hsteps
    exact h
  | succ steps ih =>
    have next := Layer.rank_tighter (a := a) (b := b) (by omega)
    exact .looser (ih (by omega) (by omega))

theorem Fits.tighter {power : BindingPower} {layer : Layer} (h : Fits power layer) :
    Fits power layer.tighter := by
  rcases h with h | ⟨rfl, rfl⟩
  · exact .inl (Nat.lt_of_lt_of_le h layer.rank_le_tighter)
  · exact .inl (by decide)

theorem Follows.tighter {layer : Layer} {rest : List Token} (h : Follows layer rest) :
    Follows layer.tighter rest := by
  refine ⟨fun htight => h.1 ?_, h.2⟩
  exact Nat.lt_of_le_of_lt layer.rank_le_tighter htight

theorem Fits.of_operators {power : BindingPower} {layer : Layer} {kind : TokenKind}
    (h : Fits power layer) (hkind : kind ∈ layer.operators) : power < layer.power := by
  rcases h with h | ⟨_, rfl⟩
  · exact h
  · cases hkind

theorem fits_tighter_of_operators {layer : Layer} {kind : TokenKind}
    (hkind : kind ∈ layer.operators) : Fits layer.power layer.tighter := by
  cases layer with
  | unary => cases hkind
  | call => cases hkind
  | _ => exact .inl (by decide)

theorem follows_equality {rest : List Token}
    (hpower : Tables.standardPower (headKind rest) = .lowest)
    (helse : headKind rest ≠ .elseKeyword) : Follows .equality rest := by
  refine ⟨?_, helse⟩
  rw [hpower]
  decide

section Actions

variable {tables : Tables} {power : BindingPower} {cursor : Cursor} {enough : Prop}
  {post : Expr → Cursor → Prop}

theorem meets_expression {left : Nat} (settled : cursor.Settled)
    (hzero : left = 0 → ¬ enough)
    (h : ∀ below, left = below + 1 → ∀ next : Cursor, next.Settled → next.ahead = cursor.ahead →
      Meets (parseOperand tables (level tables below) >>= fun value =>
        (level tables below).operators power value) next enough post) :
    Meets ((level tables left).expression power) cursor enough post := by
  cases left with
  | zero => exact meets_tooDeep (hzero rfl)
  | succ below => exact meets_openLevel (h below rfl _ (settled.reach _) rfl)

theorem applyNext_of_not_lt {value : Expr} {apply : OperatorForm → BindingPower → Parse Expr}
    (h : ¬ power < tables.power (headKind cursor.after)) :
    applyNext tables power value apply cursor = .ok value cursor := by
  rw [Cursor.headKind_after] at h
  change (if power < tables.power cursor.peek.kind then _ else pure value : Parse Expr)
    cursor = _
  rw [if_neg h]
  rfl

theorem applyNext_of_lt {value : Expr} {apply : OperatorForm → BindingPower → Parse Expr}
    {kind : TokenKind} {form : OperatorForm} (hkind : headKind cursor.after = kind)
    (hpower : power < tables.power kind) (hform : tables.operator kind = some form) :
    applyNext tables power value apply cursor = apply form (tables.power kind) cursor := by
  rw [Cursor.headKind_after] at hkind
  rw [applyNext, bind_of_ok (rfl : peekKind cursor = _), hkind, if_pos hpower, hform]

theorem operators_of_not_lt {left : Nat} {value : Expr}
    (h : ¬ power < tables.power (headKind cursor.after)) :
    (level tables left).operators power value cursor = .ok value cursor := by
  cases left with
  | zero => rw [operators_zero, applyNext_of_not_lt h]
  | succ below => rw [operators_succ, applyNext_of_not_lt h]

theorem meets_operators_stop {left : Nat} {value : Expr} (settled : cursor.Settled)
    (h : ¬ power < tables.power (headKind cursor.after)) (hpost : post value cursor) :
    Meets ((level tables left).operators power value) cursor True post :=
  meets_of_ok (operators_of_not_lt h) settled rfl hpost

theorem meets_operators_go {left : Nat} {value : Expr} {kind : TokenKind} {form : OperatorForm}
    (settled : cursor.Settled) (hkind : headKind cursor.after = kind)
    (hpower : power < tables.power kind)
    (hform : tables.operator kind = some form) (hzero : left = 0 → ¬ enough)
    (h : ∀ below, left = below + 1 → ∀ next : Cursor, next.Settled → next.ahead = cursor.after →
      Meets (form.parse (level tables below) value (tables.power kind) >>= fun whole =>
        (level tables below).operators power whole) next enough post) :
    Meets ((level tables left).operators power value) cursor enough post := by
  have run : ∀ apply : OperatorForm → BindingPower → Parse Expr,
      Meets (apply form (tables.power kind)) cursor enough post →
      Meets (applyNext tables power value apply) cursor enough post := by
    intro apply happly
    have same : applyNext tables power value apply cursor = _ :=
      applyNext_of_lt hkind hpower hform
    exact ⟨fun henough => by rw [same]; exact happly.gives henough,
      fun henough => by rw [same]; exact happly.sinks henough⟩
  cases left with
  | zero =>
    rw [operators_zero]
    exact run _ (meets_tooDeep (hzero rfl))
  | succ below =>
    rw [operators_succ]
    refine run _ (meets_openLevel (meets_advance ?_))
    exact h below rfl _ (settled.reach _).advance (Cursor.ahead_advance _)

theorem meets_parseOperand {below : Level} {form : OperandForm}
    (hform : tables.operand (headKind cursor.ahead) = some form)
    (h : Meets (form.parse below) cursor enough post) :
    Meets (parseOperand tables below) cursor enough post := by
  rw [Cursor.headKind_ahead] at hform
  apply meets_current
  rw [hform]
  exact h

end Actions

/-- What a parser makes of the tokens of a phrase, whatever stands behind them. -/
def Completes : Phrase → List Token → Nat → Prop
  | .expression layer value spine, tokens, n =>
    ∀ (power : BindingPower) (left : Nat) (cursor : Cursor) (rest : List Token) (m : Nat)
      (post : Expr → Cursor → Prop), Fits power layer → cursor.Settled →
      cursor.ahead = tokens ++ rest → Follows layer rest →
      (n ≤ left → ∀ last : Cursor, last.Settled → last.after = rest →
        Meets ((standardLevel (left - 1 - spine)).operators power value) last (m ≤ left) post) →
      Meets ((standardLevel left).expression power) cursor (max n m ≤ left) post
  | .arguments values, tokens, n => ∀ left,
      ListsTo (OperatorForm.parseArgument (standardLevel left)) values tokens (n ≤ left)
  | .parameters names, tokens, _ => ListsTo OperandForm.parseParameter names tokens True
  | .alternative body, tokens, n => ∀ (left : Nat) (cursor : Cursor) (rest : List Token),
      cursor.Settled → cursor.after = tokens ++ rest → headKind rest ≠ .elseKeyword →
      Meets (OperandForm.parseAlternative (standardLevel left)) cursor (n ≤ left)
        (fun result last => result = body ∧ last.after = rest)
  | .block body, tokens, n => ∀ (left : Nat) (cursor : Cursor) (rest : List Token),
      cursor.Settled → cursor.ahead = tokens ++ rest →
      Meets (standardLevel left).block cursor (n ≤ left)
        (fun result last => result = body ∧ last.after = rest)
  | .statement stmt closed, tokens, n => ∀ (left : Nat) (cursor : Cursor) (rest : List Token),
      cursor.Settled → cursor.ahead = tokens ++ rest → (closed = false → Separates rest) →
      Meets (parseStmt Tables.standard (standardLevel left)) cursor (n ≤ left)
        (fun result last => result = stmt ∧ last.after = rest)
  | .statements stmts, tokens, n => ∀ (left : Nat) (cursor : Cursor) (rest : List Token)
      (bound : Nat), cursor.Settled → cursor.ahead = tokens ++ rest →
      headKind rest = .closeCurly → tokens.length ≤ bound →
      Meets (parseStmts Tables.standard (standardLevel left) bound) cursor (n ≤ left)
        (fun result last => result = stmts ∧ last.ahead = rest)

section Expressions

variable {layer : Layer} {value : Expr} {spine n : Nat} {tokens : List Token}

/-- An operand whose operators end where its derivation ends. -/
theorem Completes.operand (h : Completes (.expression layer value spine) tokens n)
    {power : BindingPower} {cursor : Cursor} {rest : List Token} (left : Nat)
    (fits : Fits power layer) (settled : cursor.Settled) (hahead : cursor.ahead = tokens ++ rest)
    (follows : Follows layer rest) (stops : ¬ power < Tables.standardPower (headKind rest)) :
    Meets ((standardLevel left).expression power) cursor (n ≤ left)
      (fun result last => result = value ∧ last.after = rest) := by
  have run := h power left cursor rest 0 (fun result last => result = value ∧ last.after = rest)
    fits settled hahead follows
  refine (run fun _ last hlast hafter => ?_).congr (by simp)
  refine (meets_operators_stop hlast ?_ ⟨rfl, hafter⟩).congr (by simp)
  rwa [hafter]

theorem Completes.delimited (h : Completes (.expression .equality value spine) tokens n)
    {cursor : Cursor} {rest : List Token} (left : Nat) (settled : cursor.Settled)
    (hahead : cursor.ahead = tokens ++ rest)
    (hpower : Tables.standardPower (headKind rest) = .lowest)
    (helse : headKind rest ≠ .elseKeyword) :
    Meets ((standardLevel left).expression .lowest) cursor (n ≤ left)
      (fun result last => result = value ∧ last.after = rest) := by
  apply h.operand left (.inl (by decide)) settled hahead (follows_equality hpower helse)
  rw [hpower]
  decide

theorem completes_of_operand
    (h : ∀ (left : Nat) (cursor : Cursor) (rest : List Token), cursor.Settled →
      cursor.ahead = tokens ++ rest → Follows layer rest →
      Meets (parseOperand Tables.standard (standardLevel left)) cursor (n ≤ left)
        (fun result last => result = value ∧ last.after = rest)) :
    Completes (.expression layer value 0) tokens (1 + n) := by
  intro power left cursor rest m post fits settled hahead follows hnext
  apply meets_expression settled (by omega)
  intro below hbelow next hsettled hsame
  subst hbelow
  have first := h below next rest hsettled (hsame.trans hahead) follows
  refine (first.bind fun henough result last hlast hresult => ?_).congr
    (by omega : n ≤ below ∧ m ≤ below + 1 ↔ max (1 + n) m ≤ below + 1)
  obtain ⟨rfl, hafter⟩ := hresult
  exact hnext (by omega) last hlast hafter

theorem completes_primary {token : Token}
    (hform : Tables.standard.operand token.kind = some .primary)
    (h : ∀ cursor : Cursor, cursor.current = token →
      OperandForm.parsePrimary cursor = .ok value cursor) :
    Completes (.expression .call value 0) [token] 1 := by
  apply completes_of_operand (n := 0)
  intro left cursor rest settled hahead _
  obtain ⟨hcurrent, hafter⟩ := Cursor.current_of_ahead hahead
  have primary : Tables.standard.operand (headKind cursor.ahead) = some .primary := by
    rw [hahead]
    exact hform
  apply meets_parseOperand primary
  exact (meets_of_ok (h cursor hcurrent) settled rfl ⟨rfl, hafter⟩).congr (by simp)

theorem Completes.grouping {opening closing : Token} (openKind : opening.kind = .openParen)
    (closeKind : closing.kind = .closeParen)
    (h : Completes (.expression .equality value spine) tokens n) :
    Completes (.expression .call value 0) (opening :: (tokens ++ [closing])) (1 + n) := by
  apply completes_of_operand
  intro left cursor rest settled hahead _
  rw [List.cons_append] at hahead
  obtain ⟨-, hafter⟩ := Cursor.current_of_ahead hahead
  have form : Tables.standard.operand (headKind cursor.ahead) = some .grouping := by
    rw [hahead, headKind_cons, openKind]
    rfl
  have inner : cursor.advance.ahead = tokens ++ closing :: rest := by
    rw [Cursor.ahead_advance, hafter, List.append_assoc]
    rfl
  have run := h.delimited left settled.advance inner (by simp [closeKind, Tables.standardPower])
    (by simp [closeKind])
  refine meets_parseOperand form (meets_advance ?_)
  apply run.finish
  intro result last hlast hresult
  obtain ⟨rfl, hclosing⟩ := hresult
  refine meets_expectPeek (by rw [hclosing]; exact closeKind) (meets_pure hlast.advance ⟨rfl, ?_⟩)
  rw [Cursor.after_advance hlast, hclosing]
  rfl

theorem Completes.unary {operator : Token} (kind : operator.kind = .not ∨ operator.kind = .dash)
    (h : Completes (.expression .unary value spine) tokens n) :
    Completes (.expression .unary (.unary operator.literal value) 0) (operator :: tokens)
      (1 + n) := by
  apply completes_of_operand
  intro left cursor rest settled hahead follows
  rw [List.cons_append] at hahead
  obtain ⟨hcurrent, hafter⟩ := Cursor.current_of_ahead hahead
  have form : Tables.standard.operand (headKind cursor.ahead) = some .unary := by
    rw [hahead, headKind_cons]
    rcases kind with kind | kind <;> rw [kind] <;> rfl
  have inner : cursor.advance.ahead = tokens ++ rest := by rw [Cursor.ahead_advance, hafter]
  have run := h.operand left (.inr ⟨rfl, rfl⟩) settled.advance inner follows follows.1
  refine meets_parseOperand form (meets_current (meets_advance ?_))
  apply run.finish
  intro result last hlast hresult
  obtain ⟨rfl, hrest⟩ := hresult
  rw [hcurrent]
  exact meets_pure hlast ⟨rfl, hrest⟩

theorem Completes.conditional {keyword opening closing : Token} {consequence : Block}
    {alternative : Option Block} {m k : Nat} {body other : List Token}
    (kind : keyword.kind = .ifKeyword) (openKind : opening.kind = .openParen)
    (closeKind : closing.kind = .closeParen) (curly : headKind body = .openCurly)
    (h : Completes (.expression .equality value spine) tokens n)
    (hfirst : Completes (.block consequence) body m)
    (hsecond : Completes (.alternative alternative) other k) :
    Completes (.expression .call (.conditional value consequence alternative) 0)
      (keyword :: opening :: (tokens ++ closing :: (body ++ other))) (1 + max n (max m k)) := by
  apply completes_of_operand
  intro left cursor rest settled hahead follows
  rw [List.cons_append] at hahead
  obtain ⟨-, hafter⟩ := Cursor.current_of_ahead hahead
  have form : Tables.standard.operand (headKind cursor.ahead) = some .conditional := by
    rw [hahead, headKind_cons, kind]
    rfl
  have inner : cursor.advance.advance.ahead = tokens ++ closing :: (body ++ (other ++ rest)) := by
    rw [Cursor.ahead_advance, Cursor.after_advance settled, hafter]
    simp
  have test := h.delimited left settled.advance.advance inner
    (by simp [closeKind, Tables.standardPower]) (by simp [closeKind])
  refine meets_parseOperand form (meets_expectPeek (by rw [hafter]; exact openKind)
    (meets_advance ?_))
  refine (test.bind fun _ result last hlast hresult => ?_).congr
    (by omega : n ≤ left ∧ max m k ≤ left ↔ max n (max m k) ≤ left)
  obtain ⟨rfl, hclosing⟩ := hresult
  have behind : last.advance.after = body ++ (other ++ rest) := by
    rw [Cursor.after_advance hlast, hclosing]
    rfl
  have curlyNext : headKind last.advance.after = .openCurly := by
    rw [behind, headKind_append (by rw [curly]; decide), curly]
  refine meets_expectPeek (by rw [hclosing]; exact closeKind) (meets_expectPeek curlyNext ?_)
  have first := hfirst left last.advance.advance (other ++ rest) hlast.advance.advance
    (by rw [Cursor.ahead_advance, behind])
  refine (first.bind fun _ result final hfinal hresult => ?_).congr
    (by omega : m ≤ left ∧ k ≤ left ↔ max m k ≤ left)
  obtain ⟨rfl, hother⟩ := hresult
  refine (hsecond left final rest hfinal hother follows.2).finish
    fun result final hfinal hresult => ?_
  obtain ⟨rfl, hrest⟩ := hresult
  exact meets_pure hfinal ⟨rfl, hrest⟩

theorem Completes.function {keyword opening closing : Token} {names : List String} {block : Block}
    {m k : Nat} {body : List Token} (kind : keyword.kind = .fnKeyword)
    (openKind : opening.kind = .openParen) (closeKind : closing.kind = .closeParen)
    (curly : headKind body = .openCurly) (h : Completes (.parameters names) tokens k)
    (hbody : Completes (.block block) body m) :
    Completes (.expression .call (.function names block) 0)
      (keyword :: opening :: (tokens ++ closing :: body)) (1 + m) := by
  apply completes_of_operand
  intro left cursor rest settled hahead _
  rw [List.cons_append] at hahead
  obtain ⟨-, hafter⟩ := Cursor.current_of_ahead hahead
  have form : Tables.standard.operand (headKind cursor.ahead) = some .function := by
    rw [hahead, headKind_cons, kind]
    rfl
  have behind : cursor.advance.after = tokens ++ closing :: (body ++ rest) := by
    rw [Cursor.after_advance settled, hafter]
    simp
  refine meets_parseOperand form (meets_expectPeek (by rw [hafter]; exact openKind) ?_)
  have list : ListsTo OperandForm.parseParameter names tokens True := h
  refine ((list.bracketed settled.advance behind closeKind).bind
    fun _ result last hlast hresult => ?_).congr (by simp : True ∧ m ≤ left ↔ m ≤ left)
  obtain ⟨rfl, hbehind⟩ := hresult
  have curlyNext : headKind last.after = .openCurly := by
    rw [hbehind, List.tail_cons, headKind_append (by rw [curly]; decide), curly]
  apply meets_expectPeek curlyNext
  have inner := hbody left last.advance rest hlast.advance
    (by rw [Cursor.ahead_advance, hbehind, List.tail_cons])
  apply inner.finish
  intro result final hfinal hresult
  obtain ⟨rfl, hrest⟩ := hresult
  exact meets_pure hfinal ⟨rfl, hrest⟩

/-- The operators of a spine are applied one by one, each with one level less to go on from. -/
theorem Completes.applied {kind : TokenKind} {form : OperatorForm} {operator : Token}
    {whole : Expr} {m : Nat} {inner : List Token} (hkind : operator.kind = kind)
    (hform : Tables.standard.operator kind = some form) (hspine : spine < n)
    (hfits : ∀ power, Fits power layer → power < Tables.standardPower kind)
    (hfollows : Follows layer [operator])
    (h : Completes (.expression layer value spine) tokens n)
    (happly : ∀ (below : Nat) (cursor : Cursor) (rest : List Token), cursor.Settled →
      cursor.ahead = operator :: (inner ++ rest) → Follows layer rest →
      Meets (form.parse (standardLevel below) value (Tables.standardPower kind)) cursor (m ≤ below)
        (fun result last => result = whole ∧ last.after = rest)) :
    Completes (.expression layer whole (spine + 1)) (tokens ++ operator :: inner)
      (max n (spine + 2 + m)) := by
  intro power left cursor rest k post fits settled hahead follows hnext
  have hahead : cursor.ahead = tokens ++ operator :: (inner ++ rest) := by simpa using hahead
  have run := h power left cursor _ (max (spine + 2 + m) k) post fits settled hahead hfollows
  refine (run fun henough last hlast hafter => ?_).congr (by omega)
  refine meets_operators_go hlast (by rw [hafter]; exact hkind) (hfits power fits) hform (by omega)
    fun below hbelow next hsettled hsame => ?_
  have applied := happly below next rest hsettled (hsame.trans hafter) follows
  refine (applied.bind fun hm result final hfinal hresult => ?_).congr
    (by omega : m ≤ below ∧ k ≤ left ↔ max (spine + 2 + m) k ≤ left)
  obtain ⟨rfl, hrest⟩ := hresult
  obtain rfl : below = left - 1 - (spine + 1) := by omega
  exact hnext (by omega) final hfinal hrest

theorem Completes.call {opening closing : Token} {values : List Expr} {m : Nat}
    {inner : List Token} (openKind : opening.kind = .openParen)
    (closeKind : closing.kind = .closeParen) (hspine : spine < n)
    (h : Completes (.expression .call value spine) tokens n)
    (hvalues : Completes (.arguments values) inner m) :
    Completes (.expression .call (.call value values) (spine + 1))
      (tokens ++ opening :: (inner ++ [closing])) (max n (spine + 2 + m)) := by
  have fits : ∀ power, Fits power .call → power < Tables.standardPower .openParen :=
    fun power hfits => hfits.resolve_right fun hunary => by cases hunary.2
  have follows : Follows .call [opening] := by
    simp only [Follows, headKind_cons, openKind]
    decide
  apply h.applied openKind rfl hspine fits follows
  intro below cursor rest settled hahead _
  obtain ⟨-, hafter⟩ := Cursor.current_of_ahead hahead
  rw [List.append_assoc] at hafter
  refine ((hvalues below).bracketed settled hafter closeKind).finish
    fun result last hlast hresult => ?_
  obtain ⟨rfl, hrest⟩ := hresult
  exact meets_pure hlast ⟨rfl, hrest⟩

theorem Completes.binary {operator : Token} {other : Expr} {side m : Nat} {inner : List Token}
    (kind : operator.kind ∈ layer.operators) (hspine : spine < n)
    (h : Completes (.expression layer value spine) tokens n)
    (hright : Completes (.expression layer.tighter other side) inner m) :
    Completes (.expression layer (.binary value operator.literal other) (spine + 1))
      (tokens ++ operator :: inner) (max n (spine + 2 + m)) := by
  have power := Layer.standardPower_of_mem kind
  have fits : ∀ bound, Fits bound layer → bound < Tables.standardPower operator.kind := by
    intro bound hfits
    rw [power]
    exact hfits.of_operators kind
  have follows : Follows layer [operator] := by
    refine ⟨?_, fun helse => ?_⟩
    · rw [headKind_cons, power]
      exact Nat.lt_irrefl _
    · rw [headKind_cons] at helse
      rw [helse] at kind
      cases layer <;> revert kind <;> decide
  refine h.applied rfl (Layer.operator_of_mem kind) hspine fits follows
    fun below cursor rest settled hahead hfollows => ?_
  obtain ⟨hcurrent, hafter⟩ := Cursor.current_of_ahead hahead
  have run := hright.operand below (fits_tighter_of_operators kind) settled.advance
    (by rw [Cursor.ahead_advance, hafter]) hfollows.tighter hfollows.1
  rw [power]
  refine meets_current (meets_advance (run.finish fun result last hlast hresult => ?_))
  obtain ⟨rfl, hrest⟩ := hresult
  rw [hcurrent]
  exact meets_pure hlast ⟨rfl, hrest⟩

end Expressions

section Lists

variable {value : Expr} {spine n : Nat} {tokens : List Token}

theorem Completes.argument (start : (headKind tokens).startsExpression = true)
    (h : Completes (.expression .equality value spine) tokens n) (left : Nat) :
    Item (OperatorForm.parseArgument (standardLevel left)) value tokens (n ≤ left) := by
  refine ⟨ne_eof_of_startsExpression start, fun hclose => ?_,
    fun cursor rest settled hafter hends => meets_advance ?_⟩
  · rw [hclose] at start
    cases start
  · refine h.delimited left settled.advance (by rw [Cursor.ahead_advance, hafter]) ?_ ?_
    · rcases hends with hends | hends <;> rw [hends] <;> rfl
    · rcases hends with hends | hends <;> rw [hends] <;> decide

theorem item_parameter {token : Token} (kind : token.kind = .identifier) :
    Item OperandForm.parseParameter token.literal [token] True := by
  refine ⟨by simp [kind], by simp [kind], fun cursor rest settled hafter _ => ?_⟩
  have current : cursor.advance.current = token := by
    have hahead : cursor.advance.ahead = token :: rest := by rw [Cursor.ahead_advance, hafter]; rfl
    exact (Cursor.current_of_ahead hahead).1
  refine meets_expectPeek (by rw [hafter]; exact kind) (meets_current ?_)
  rw [current]
  refine meets_pure settled.advance ⟨rfl, ?_⟩
  rw [Cursor.after_advance settled, hafter]
  rfl

end Lists

section Blocks

variable {n : Nat} {tokens : List Token}

theorem completes_noAlternative : Completes (.alternative none) [] 0 := by
  intro left cursor rest settled hafter helse
  apply meets_peekKind
  rw [hafter, List.nil_append, if_neg helse]
  exact (meets_pure settled ⟨rfl, hafter⟩).congr (by simp)

theorem Completes.alternative {keyword : Token} {body : Block} (kind : keyword.kind = .elseKeyword)
    (curly : headKind tokens = .openCurly) (h : Completes (.block body) tokens n) :
    Completes (.alternative (some body)) (keyword :: tokens) n := by
  intro left cursor rest settled hafter _
  have behind : cursor.advance.after = tokens ++ rest := by
    rw [Cursor.after_advance settled, hafter]
    rfl
  have curlyNext : headKind cursor.advance.after = .openCurly := by
    rw [behind, headKind_append (by rw [curly]; decide), curly]
  apply meets_peekKind
  rw [hafter, if_pos (by exact kind)]
  refine meets_advance (meets_expectPeek curlyNext ?_)
  have inner := h left cursor.advance.advance rest settled.advance.advance
    (by rw [Cursor.ahead_advance, behind])
  apply inner.finish
  intro result last hlast hresult
  obtain ⟨rfl, hrest⟩ := hresult
  exact meets_pure hlast ⟨rfl, hrest⟩

theorem Completes.block {opening closing : Token} {body : Block}
    (closeKind : closing.kind = .closeCurly) (h : Completes (.statements body) tokens n) :
    Completes (.block body) (opening :: (tokens ++ [closing])) (1 + n) := by
  intro left cursor rest settled hahead
  cases left with
  | zero => exact meets_tooDeep (by omega)
  | succ below =>
    rw [List.cons_append, List.append_assoc] at hahead
    obtain ⟨-, hafter⟩ := Cursor.current_of_ahead hahead
    have inner : (cursor.reach (maxNesting - below)).advance.ahead = tokens ++ closing :: rest :=
      (Cursor.ahead_advance _).trans hafter
    have bound : tokens.length ≤ (cursor.reach (maxNesting - below)).advance.remaining := by
      have whole := Cursor.ahead_length_le_remaining (cursor.reach (maxNesting - below)).advance
      rw [inner, List.length_append] at whole
      omega
    refine meets_openLevel (meets_advance (meets_remaining ?_))
    have run := h below _ (closing :: rest) _ (settled.reach _).advance inner closeKind bound
    refine (run.congr (by omega : n ≤ below ↔ 1 + n ≤ below + 1)).finish
      fun result last hlast hresult => ?_
    obtain ⟨rfl, hclosing⟩ := hresult
    apply meets_currentKind
    rw [hclosing, if_pos (by exact closeKind)]
    exact meets_pure hlast ⟨rfl, (Cursor.current_of_ahead hclosing).2⟩

end Blocks

section Statements

variable {value : Expr} {closed : Bool} {spine n : Nat} {tokens ending : List Token}

theorem Terminates.cases (h : Terminates closed ending) {rest : List Token}
    (hrest : closed = false → Separates rest) :
    (ending ++ rest = rest ∧ Separates rest) ∨
      ∃ semicolon : Token, semicolon.kind = .semicolon ∧ ending ++ rest = semicolon :: rest := by
  cases closed with
  | false =>
    have none : ending = [] := by simpa [Terminates] using h
    exact .inl ⟨by rw [none]; rfl, hrest rfl⟩
  | true =>
    obtain ⟨semicolon, hending, hkind⟩ : ∃ semicolon, ending = [semicolon] ∧
        semicolon.kind = .semicolon := by simpa [Terminates, List.map_eq_singleton_iff] using h
    exact .inr ⟨semicolon, hkind, by rw [hending]; rfl⟩

theorem Completes.terminated (h : Completes (.expression .equality value spine) tokens n)
    (terminated : Terminates closed ending) {rest : List Token}
    (hrest : closed = false → Separates rest) {cursor : Cursor} (left : Nat)
    (settled : cursor.Settled) (hahead : cursor.ahead = tokens ++ (ending ++ rest))
    (build : Expr → Stmt) :
    Meets ((standardLevel left).expression .lowest >>= fun value => skipSemicolon >>= fun _ =>
      pure (build value)) cursor (n ≤ left)
      (fun result last => result = build value ∧ last.after = rest) := by
  obtain ⟨hnone, hseparates⟩ | ⟨semicolon, hkind, hsome⟩ := terminated.cases hrest
  · rw [hnone] at hahead
    have run := h.delimited left settled hahead hseparates.1 hseparates.2.1
    apply run.finish
    intro result last hlast hresult
    obtain ⟨rfl, hbehind⟩ := hresult
    refine meets_skipSemicolon hlast fun final hfinal hafter => meets_pure hfinal ⟨rfl, ?_⟩
    rw [hafter, hbehind, if_neg hseparates.2.2]
  · rw [hsome] at hahead
    have run := h.delimited left settled hahead (by simp [hkind, Tables.standardPower])
      (by simp [hkind])
    apply run.finish
    intro result last hlast hresult
    obtain ⟨rfl, hbehind⟩ := hresult
    refine meets_skipSemicolon hlast fun final hfinal hafter => meets_pure hfinal ⟨rfl, ?_⟩
    rw [hafter, hbehind, if_pos (by exact hkind)]
    rfl

theorem Completes.letBinding {keyword name assign : Token} (kind : keyword.kind = .letKeyword)
    (nameKind : name.kind = .identifier) (assignKind : assign.kind = .assignment)
    (h : Completes (.expression .equality value spine) tokens n)
    (terminated : Terminates closed ending) :
    Completes (.statement (.letBinding name.literal value) closed)
      (keyword :: name :: assign :: (tokens ++ ending)) n := by
  intro left cursor rest settled hahead hrest
  obtain ⟨-, hafter⟩ := Cursor.current_of_ahead hahead
  have behind : cursor.advance.after = assign :: (tokens ++ (ending ++ rest)) := by
    rw [Cursor.after_advance settled, hafter]
    simp
  have current : cursor.advance.current = name :=
    (Cursor.current_of_ahead (by rw [Cursor.ahead_advance, hafter]; rfl)).1
  apply meets_currentKind
  rw [hahead, List.cons_append, headKind_cons, kind]
  refine meets_expectPeek (by rw [hafter]; exact nameKind) (meets_current ?_)
  refine meets_expectPeek (by rw [behind]; exact assignKind) (meets_advance ?_)
  rw [current]
  refine h.terminated terminated hrest left settled.advance.advance.advance ?_
    (Stmt.letBinding name.literal)
  rw [Cursor.ahead_advance, Cursor.after_advance settled.advance, behind]
  rfl

theorem Completes.returning {keyword : Token} (kind : keyword.kind = .returnKeyword)
    (h : Completes (.expression .equality value spine) tokens n)
    (terminated : Terminates closed ending) :
    Completes (.statement (.returning value) closed) (keyword :: (tokens ++ ending)) n := by
  intro left cursor rest settled hahead hrest
  rw [List.cons_append, List.append_assoc] at hahead
  obtain ⟨-, hafter⟩ := Cursor.current_of_ahead hahead
  apply meets_currentKind
  rw [hahead, headKind_cons, kind]
  apply meets_advance
  exact h.terminated terminated hrest left settled.advance (by rw [Cursor.ahead_advance, hafter])
    Stmt.returning

theorem Completes.expression (start : (headKind tokens).startsExpression = true)
    (h : Completes (.expression .equality value spine) tokens n)
    (terminated : Terminates closed ending) :
    Completes (.statement (.expression value) closed) (tokens ++ ending) n := by
  intro left cursor rest settled hahead hrest
  rw [List.append_assoc] at hahead
  have form : Tables.standard.statement (headKind cursor.ahead) = none := by
    rw [hahead, headKind_append (ne_eof_of_startsExpression start)]
    revert start
    cases headKind tokens <;> simp [Tables.standard, TokenKind.startsExpression]
  apply meets_currentKind
  rw [form]
  exact h.terminated terminated hrest left settled hahead Stmt.expression

theorem separates_of_startsStatement {rest : List Token}
    (start : (headKind rest).startsStatement = true)
    (boundary : headKind rest ≠ .dash ∧ headKind rest ≠ .openParen) : Separates rest := by
  unfold Separates
  revert start boundary
  cases headKind rest <;> simp [TokenKind.startsStatement, TokenKind.startsExpression,
    Tables.standardPower]

theorem Derives.separates {stmts : List Stmt} {others : List Token}
    (h : Derives (.statements stmts) others n)
    (boundary : headKind others ≠ .dash ∧ headKind others ≠ .openParen) {rest : List Token}
    (hrest : Separates rest) : Separates (others ++ rest) := by
  cases stmts with
  | nil =>
    obtain rfl : others = [] := h.begins
    exact hrest
  | cons stmt later =>
    have start : (headKind others).startsStatement = true := h.begins
    have same := headKind_append (ne_eof_of_startsStatement start) rest
    exact separates_of_startsStatement (by rw [same]; exact start) (by rw [same]; exact boundary)

theorem separates_nil : Separates [] := by
  rw [Separates]
  decide

theorem separates_of_closeCurly {rest : List Token} (h : headKind rest = .closeCurly) :
    Separates rest := by
  rw [Separates, h]
  decide

theorem completes_noStatements : Completes (.statements []) [] 0 := by
  intro left cursor rest bound settled hahead hclose _
  cases bound with
  | zero => exact (meets_pure settled ⟨rfl, hahead⟩).congr (by simp)
  | succ bound =>
    apply meets_currentKind
    rw [hahead, List.nil_append, if_pos (.inl hclose)]
    exact (meets_pure settled ⟨rfl, hahead⟩).congr (by simp)

theorem Completes.moreStatements {stmt : Stmt} {stmts : List Stmt} {m : Nat}
    {others : List Token} (start : (headKind tokens).startsStatement = true)
    (hrest : Derives (.statements stmts) others m)
    (boundary : closed = false → headKind others ≠ .dash ∧ headKind others ≠ .openParen)
    (h : Completes (.statement stmt closed) tokens n)
    (hlater : Completes (.statements stmts) others m) :
    Completes (.statements (stmt :: stmts)) (tokens ++ others) (max n m) := by
  intro left cursor rest bound settled hahead hclose hbound
  rw [List.append_assoc] at hahead
  have some := ne_eof_of_startsStatement start
  have here : headKind cursor.ahead = headKind tokens := by rw [hahead, headKind_append some]
  have stays : ¬ (headKind cursor.ahead = .closeCurly ∨ headKind cursor.ahead = .eof) := by
    rw [here]
    rintro (hkind | hkind) <;> rw [hkind] at start <;> cases start
  have long := length_pos_of_headKind some
  rw [List.length_append] at hbound
  obtain ⟨bound, rfl⟩ : ∃ fewer, bound = fewer + 1 := ⟨bound - 1, by omega⟩
  apply meets_currentKind
  rw [if_neg stays]
  have first := h left cursor (others ++ rest) settled hahead fun hopen =>
    hrest.separates (boundary hopen) (separates_of_closeCurly hclose)
  refine (first.attempt.bind fun _ value? last hlast hvalue => ?_).congr
    (by omega : n ≤ left ∧ m ≤ left ↔ max n m ≤ left)
  obtain ⟨_, rfl, rfl, hbehind⟩ := hvalue
  apply meets_advance
  have later := hlater left last.advance rest bound hlast.advance
    (by rw [Cursor.ahead_advance, hbehind]) hclose (by omega)
  apply later.finish
  intro results final hfinal hresults
  obtain ⟨rfl, hdone⟩ := hresults
  exact meets_pure hfinal ⟨rfl, hdone⟩

end Statements

/-- The parser follows every derivation. -/
theorem Derives.completes {phrase : Phrase} {tokens : List Token} {n : Nat}
    (h : Derives phrase tokens n) : Completes phrase tokens n := by
  induction h with
  | @identifier token kind =>
    apply completes_primary (by rw [kind]; rfl)
    intro cursor hcurrent
    rw [OperandForm.parsePrimary, bind_of_ok (rfl : current cursor = _), hcurrent, kind]
    rfl
  | @number token value kind read =>
    apply completes_primary (by rw [kind]; rfl)
    intro cursor hcurrent
    rw [OperandForm.parsePrimary, bind_of_ok (rfl : current cursor = _), hcurrent, kind]
    simp only [read]
    rfl
  | @boolean token value kind =>
    apply completes_primary (by rw [kind]; cases value <;> rfl)
    intro cursor hcurrent
    rw [OperandForm.parsePrimary, bind_of_ok (rfl : current cursor = _), hcurrent, kind]
    cases value <;> rfl
  | grouping openKind closeKind inner ih => exact ih.grouping openKind closeKind
  | conditional kind openKind closeKind test first second ihTest ihFirst ihSecond =>
    exact ihTest.conditional kind openKind closeKind first.begins ihFirst ihSecond
  | function kind openKind closeKind names inner ihNames ihInner =>
    exact Completes.function kind openKind closeKind inner.begins ihNames ihInner
  | call openKind closeKind left right ihLeft ihRight =>
    exact ihLeft.call openKind closeKind left.spine_lt ihRight
  | unary kind inner ih => exact ih.unary kind
  | binary kind left right ihLeft ihRight => exact ihLeft.binary kind left.spine_lt ihRight
  | looser inner ih =>
    intro power left cursor rest m post fits settled hahead follows hnext
    exact ih power left cursor rest m post fits.tighter settled hahead follows.tighter hnext
  | noArguments => exact fun left => listsTo_nil (Nat.zero_le left)
  | lastArgument only ih => exact fun left => (ih.argument only.begins left).last
  | moreArguments kind first rest ihFirst ihRest =>
    intro left
    have list := (ihFirst.argument first.begins left).more kind (ihRest left)
    exact list.congr (by omega)
  | noParameters =>
    have list : ListsTo OperandForm.parseParameter [] [] True := listsTo_nil trivial
    exact list
  | lastParameter kind => exact (item_parameter kind).last
  | moreParameters kind commaKind rest ih =>
    exact ((item_parameter kind).more commaKind ih).congr (by simp)
  | noAlternative => exact completes_noAlternative
  | alternative kind inner ih => exact ih.alternative kind inner.begins
  | block openKind closeKind inner ih => exact ih.block closeKind
  | letBinding kind nameKind assignKind inner terminated ih =>
    exact ih.letBinding kind nameKind assignKind terminated
  | returning kind inner terminated ih => exact ih.returning kind terminated
  | expression inner terminated ih => exact ih.expression inner.begins terminated
  | noStatements => exact completes_noStatements
  | moreStatements first rest boundary ihFirst ihRest =>
    exact ihFirst.moreStatements first.begins rest boundary ihRest

end Monkey
