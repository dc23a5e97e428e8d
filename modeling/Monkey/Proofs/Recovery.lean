import Monkey.Proofs.Braces

set_option autoImplicit false

namespace Monkey

open Parse

theorem weight_of_operand {kind : TokenKind} {form : OperandForm}
    (h : Tables.standard.operand kind = some form) : kind.weight = 0 := by
  cases kind <;> first | rfl | cases h

theorem weight_of_operator {kind : TokenKind} {form : OperatorForm}
    (h : Tables.standard.operator kind = some form) : kind.weight = 0 := by
  cases kind <;> first | rfl | cases h

theorem weight_of_statement {kind : TokenKind} {form : StatementForm}
    (h : Tables.standard.statement kind = some form) : kind.weight = 0 := by
  cases kind <;> first | rfl | cases h

/-- What is offered accounts for the braces it goes past, from every depth. -/
structure Level.Accounts (offered : Level) : Prop where
  expression {power : BindingPower} {cursor : Cursor} (floor : Int) : cursor.Settled →
    Parse.Accounts (offered.expression power) cursor floor (floor + cursor.current.kind.weight)
      (fun _ _ depth => depth = floor) (Drops floor)
  operators {power : BindingPower} {value : Expr} {cursor : Cursor} (floor : Int) :
    cursor.Settled → Parse.Accounts (offered.operators power value) cursor floor floor
      (fun _ _ depth => depth = floor) (Drops floor)
  block {cursor : Cursor} (floor : Int) : cursor.Settled →
    Parse.Accounts offered.block cursor floor floor
      (fun _ last depth => last.current.kind = .closeCurly ∧ depth = floor - 1) (Over floor)

section Forms

variable {offered : Level} {cursor : Cursor} (floor : Int)

theorem drops_noOperandForm {kind : TokenKind} (h : cursor.current.kind = kind) :
    Drops floor (.noOperandForm kind) cursor (floor + kind.weight) := by
  refine .inl ⟨rfl, fun heavy hend => heavy ?_⟩
  rw [← h, hend]
  rfl

theorem accounts_parsePrimary (light : cursor.current.kind.weight = 0) :
    Accounts OperandForm.parsePrimary cursor floor floor (fun _ _ depth => depth = floor)
      (Drops floor) := by
  apply accounts_current
  split
  · exact accounts_pure rfl
  · exact accounts_pure rfl
  · exact accounts_pure rfl
  · split
    · exact accounts_pure rfl
    · exact accounts_throw rfl (.inl ⟨(Int.add_zero floor).symm, fun heavy => absurd rfl heavy⟩)
  · have drops : Drops floor _ cursor _ := drops_noOperandForm floor rfl
    rw [light, Int.add_zero] at drops
    exact accounts_throw rfl drops

theorem Level.Accounts.behind {α : Type} {next : Expr → Parse α} {power : BindingPower}
    {goal : α → Cursor → Int → Prop} (h : offered.Accounts) (settled : cursor.Settled)
    (hnext : ∀ value last, last.Settled → Parse.Accounts (next value) last floor floor goal
      (Drops floor)) :
    Parse.Accounts (advance >>= fun _ => offered.expression power >>= next) cursor floor floor goal
      (Drops floor) := by
  apply accounts_advance (Int.le_refl floor)
  apply (h.expression floor settled.advance).bind settled.advance
  rintro value last _ hlast rfl
  exact hnext value last hlast

theorem Level.Accounts.blockBehind {α : Type} {next : Block → Parse α}
    {goal : α → Cursor → Int → Prop} (h : offered.Accounts) (settled : cursor.Settled)
    (hnext : ∀ body last, last.Settled → Parse.Accounts (next body) last floor floor goal
      (Drops floor)) :
    Parse.Accounts (expectPeek .openCurly >>= fun _ => offered.block >>= next) cursor floor floor
      goal (Drops floor) := by
  have inner : Parse.Accounts offered.block cursor.advance floor (floor + 1)
      (fun _ _ depth => depth = floor) (Drops floor) := by
    refine (h.block (floor + 1) settled.advance).lower (by omega) ?_ ?_
    · rintro body last depth ⟨-, hdepth⟩
      omega
    · rintro error last depth ⟨ended, light, hdepth⟩
      exact .inr ⟨ended, light, by omega⟩
  refine accounts_expectPeek (inner.bind settled.advance ?_)
  rintro body last _ hlast rfl
  exact hnext body last hlast

theorem Level.Accounts.alternative (h : offered.Accounts) (settled : cursor.Settled) :
    Parse.Accounts (OperandForm.parseAlternative offered) cursor floor floor
      (fun _ _ depth => depth = floor) (Drops floor) := by
  apply accounts_peekKind
  split
  · rename_i helse
    apply accounts_advanceLight (Int.le_refl floor) (by rw [helse]; rfl)
    exact h.blockBehind floor settled.advance fun _ _ _ => accounts_pure rfl
  · exact accounts_pure rfl

theorem Level.Accounts.operandForm (h : offered.Accounts) (settled : cursor.Settled)
    (form : OperandForm) (light : cursor.current.kind.weight = 0) :
    Parse.Accounts (form.parse offered) cursor floor floor (fun _ _ depth => depth = floor)
      (Drops floor) := by
  cases form with
  | primary => exact accounts_parsePrimary floor light
  | unary => exact accounts_current (h.behind floor settled fun _ _ _ => accounts_pure rfl)
  | grouping =>
    apply h.behind floor settled
    intro value last hlast
    exact accounts_expectLight rfl (accounts_pure rfl)
  | conditional =>
    apply accounts_expectLight rfl
    apply h.behind floor settled.advance
    intro condition middle hmiddle
    apply accounts_expectLight rfl
    apply h.blockBehind floor hmiddle.advance
    intro consequence last hlast
    apply (h.alternative floor hlast).bind hlast
    rintro alternative final _ _ rfl
    exact accounts_pure rfl
  | function =>
    apply accounts_expectLight rfl
    refine (accounts_bracketed (fun _ _ => ?_) settled.advance).bind settled.advance ?_
    · exact accounts_expectLight rfl (accounts_current (accounts_pure rfl))
    · rintro parameters last _ hlast rfl
      exact h.blockBehind _ hlast fun _ _ _ => accounts_pure rfl

theorem Level.Accounts.operand (h : offered.Accounts) (settled : cursor.Settled) :
    Parse.Accounts (parseOperand Tables.standard offered) cursor floor
      (floor + cursor.current.kind.weight) (fun _ _ depth => depth = floor) (Drops floor) := by
  apply accounts_current
  split
  · rename_i form hform
    have light := weight_of_operand hform
    rw [light, Int.add_zero]
    exact h.operandForm floor settled form light
  · split
    · rename_i illegal
      refine accounts_throw rfl (.inl ⟨?_, fun heavy => absurd rfl heavy⟩)
      rw [illegal]
      rfl
    · exact accounts_throw rfl (drops_noOperandForm floor rfl)

theorem Level.Accounts.operatorForm (h : offered.Accounts) (settled : cursor.Settled)
    (form : OperatorForm) (value : Expr) (bound : BindingPower) :
    Parse.Accounts (form.parse offered value bound) cursor floor floor
      (fun _ _ depth => depth = floor) (Drops floor) := by
  cases form with
  | binary => exact accounts_current (h.behind floor settled fun _ _ _ => accounts_pure rfl)
  | call =>
    refine (accounts_bracketed (fun middle hmiddle => ?_) settled).bind settled ?_
    · apply accounts_advance (Int.le_refl floor)
      exact h.expression floor hmiddle.advance
    · rintro arguments last _ _ rfl
      exact accounts_pure rfl

theorem Level.Accounts.terminated (h : offered.Accounts) (settled : cursor.Settled)
    (build : Expr → Stmt) :
    Parse.Accounts (offered.expression .lowest >>= fun value => skipSemicolon >>= fun _ =>
      pure (build value)) cursor floor (floor + cursor.current.kind.weight)
      (fun _ _ depth => depth = floor) (Drops floor) := by
  apply (h.expression floor settled).bind settled
  rintro value last _ hlast rfl
  exact accounts_skipSemicolon hlast fun _ _ => accounts_pure rfl

theorem Level.Accounts.statement (h : offered.Accounts) (settled : cursor.Settled) :
    Parse.Accounts (parseStmt Tables.standard offered) cursor floor
      (floor + cursor.current.kind.weight) (fun _ _ depth => depth = floor) (Drops floor) := by
  apply accounts_currentKind
  split
  · rename_i form hform
    rw [weight_of_statement hform, Int.add_zero]
    cases form with
    | letBinding =>
      refine accounts_expectLight rfl (accounts_current ?_)
      apply accounts_expectLight rfl
      apply accounts_advance (Int.le_refl floor)
      exact h.terminated floor settled.advance.advance.advance _
    | returning =>
      apply accounts_advance (Int.le_refl floor)
      exact h.terminated floor settled.advance _
    | block => cases mem_kinds_of_statement hform
  · exact h.terminated floor settled _

end Forms

section Statements

variable {offered : Level} {cursor : Cursor} (floor : Int)

/-- A statement that is attempted ends at the depth at which it began, unless all tokens are used
up: a brace that starts no expression is given up with it. -/
theorem Level.Accounts.attempted (h : offered.Accounts) (settled : cursor.Settled) :
    Parse.Accounts (attempt (parseStmt Tables.standard offered)) cursor floor
      (floor + cursor.current.kind.weight)
      (fun _ last depth => depth = floor ∨ last.ahead = [] ∧ floor ≤ depth)
      (fun _ _ _ => False) := by
  have stmt := h.statement floor settled
  refine ⟨fun value? last run => ?_, fun error last run fatal => ?_⟩
  · cases hrun : parseStmt Tables.standard offered cursor with
    | ok value middle =>
      simp only [attempt, hrun, EStateM.Result.ok.injEq] at run
      obtain ⟨-, rfl⟩ := run
      obtain ⟨depth, walk, hdepth⟩ := stmt.ok value middle hrun
      exact ⟨depth, walk, .inl hdepth⟩
    | error error middle =>
      by_cases fatal : error.isFatal = true
      · simp [attempt, hrun, fatal] at run
      · simp only [attempt, hrun, fatal] at run
        obtain ⟨-, rfl⟩ := run
        have other : error ≠ .nestingTooDeep maxNesting := by
          rintro rfl
          exact fatal rfl
        obtain ⟨-, depth, walk, hdepth⟩ := stmt.error error middle hrun other
        rcases hdepth with ⟨hdepth, present⟩ | ⟨ended, light, hdepth⟩
        · exact ⟨_, walk.record present, .inl (by omega)⟩
        · refine ⟨_, walk.record fun heavy => absurd light heavy, .inr ⟨ended, ?_⟩⟩
          omega
  · cases hrun : parseStmt Tables.standard offered cursor with
    | ok value middle => simp [attempt, hrun] at run
    | error other middle =>
      by_cases hfatal : other.isFatal = true
      · simp only [attempt, hrun, hfatal, if_true, EStateM.Result.error.injEq] at run
        obtain ⟨rfl, rfl⟩ := run
        have calm := (stmt.error other middle hrun fatal).1
        rw [hfatal] at calm
        cases calm
      · simp [attempt, hrun, hfatal] at run

/-- Statements end at a closing brace or with the last token. -/
theorem Level.Accounts.statements (h : offered.Accounts) (settled : cursor.Settled) {start : Int}
    {bound : Nat} (enough : cursor.ahead.length ≤ bound)
    (hstart : start = floor + cursor.current.kind.weight ∨ cursor.ahead = [] ∧ floor ≤ start) :
    Parse.Accounts (parseStmts Tables.standard offered bound) cursor floor start
      (fun _ last depth => last.current.kind = .closeCurly ∧ depth = floor - 1 ∨
        last.ahead = [] ∧ floor ≤ depth) (fun _ _ _ => False) := by
  induction bound generalizing cursor start with
  | zero =>
    have none : cursor.ahead = [] := List.length_eq_zero_iff.1 (by omega)
    have ended : cursor.current.kind = .eof := by
      rw [← Cursor.headKind_ahead, none]
      rfl
    refine accounts_pure (.inr ⟨none, ?_⟩)
    rcases hstart with hstart | hstart
    · rw [hstart, ended]
      exact Int.le_of_eq (Int.add_zero floor).symm
    · exact hstart.2
  | succ bound ih =>
    apply accounts_currentKind
    split
    · rename_i stops
      apply accounts_pure
      rcases stops with hclose | hend
      · have some : cursor.ahead ≠ [] := by
          rw [Cursor.ahead_of_current (by rw [hclose]; decide)]
          simp
        rcases hstart with hstart | hstart
        · exact .inl ⟨hclose, by rw [hstart, hclose]; rfl⟩
        · exact absurd hstart.1 some
      · have none := Cursor.ahead_of_end hend
        refine .inr ⟨none, ?_⟩
        rcases hstart with hstart | hstart
        · rw [hstart, hend]
          exact Int.le_of_eq (Int.add_zero floor).symm
        · exact hstart.2
    · rename_i goes
      have some : cursor.current.kind ≠ .eof := fun hend => goes (.inr hend)
      have full := Cursor.ahead_of_current some
      obtain rfl : start = floor + cursor.current.kind.weight := by
        rcases hstart with hstart | hstart
        · exact hstart
        · rw [full] at hstart
          cases hstart.1
      -- The walk is needed again, for the number of tokens that are left.
      refine (h.attempted floor settled).bindWalk settled
        fun value? last depth walk hlast hdepth => ?_
      have used := walk.ahead_length_le settled
      have fewer : last.advance.ahead.length ≤ bound := by
        rw [Cursor.ahead_advance]
        by_cases ended : last.current.kind = .eof
        · rw [Cursor.after, if_pos (hlast.peek_of_current ended)]
          exact Nat.zero_le bound
        · rw [Cursor.ahead_of_current ended, List.length_cons] at used
          omega
      apply accounts_advance (by omega)
      refine (ih hlast.advance fewer ?_).bind hlast.advance ?_
      · rcases hdepth with rfl | ⟨ended, hdepth⟩
        · exact .inl rfl
        · have current : last.current.kind = .eof := by
            rw [← Cursor.headKind_ahead, ended]
            rfl
          have peek := hlast.peek_of_current current
          refine .inr ⟨by rw [Cursor.ahead_advance, Cursor.after, if_pos peek], ?_⟩
          rw [peek]
          exact Int.le_trans hdepth (Int.le_of_eq (Int.add_zero depth).symm)
      · rintro stmts final depth _ hfinal
        exact accounts_pure hfinal

theorem Level.Accounts.body (h : offered.Accounts) (settled : cursor.Settled) :
    Parse.Accounts (parseBody Tables.standard offered) cursor floor floor
      (fun _ last depth => last.current.kind = .closeCurly ∧ depth = floor - 1) (Over floor) := by
  refine accounts_advance (Int.le_refl floor) (accounts_remaining ?_)
  have enough := Cursor.ahead_length_le_remaining cursor.advance
  have stmts := h.statements floor settled.advance enough (.inl rfl)
  refine (stmts.lower (Int.le_refl floor) (fun _ _ _ hpost => hpost)
    fun _ _ _ never => never.elim).bind settled.advance ?_
  rintro stmts last depth _ hdepth
  apply accounts_currentKind
  split
  · rename_i hclose
    rcases hdepth with hdepth | hdepth
    · exact accounts_pure hdepth
    · rw [Cursor.ahead_of_current (by rw [hclose]; decide)] at hdepth
      cases hdepth.1
  · rename_i other
    rcases hdepth with hdepth | hdepth
    · exact absurd hdepth.1 other
    · exact accounts_throw rfl ⟨hdepth.1, rfl, hdepth.2⟩

end Statements

theorem accounts_applyNext {power : BindingPower} {value : Expr}
    {apply : OperatorForm → BindingPower → Parse Expr} {cursor : Cursor} {floor : Int}
    (hgo : ∀ form, cursor.peek.kind.weight = 0 →
      Accounts (apply form (Tables.standardPower cursor.peek.kind)) cursor floor floor
        (fun _ _ depth => depth = floor) (Drops floor)) :
    Accounts (applyNext Tables.standard power value apply) cursor floor floor
      (fun _ _ depth => depth = floor) (Drops floor) := by
  apply accounts_peekKind
  split
  · split
    · rename_i form hform
      exact hgo form (weight_of_operator hform)
    · exact accounts_pure rfl
  · exact accounts_pure rfl

/-- With any number of levels left, parsing accounts for the braces it goes past. -/
theorem level_accounts (left : Nat) : (standardLevel left).Accounts := by
  induction left with
  | zero =>
    refine ⟨fun _ _ => accounts_tooDeep, fun _ _ => ?_, fun _ _ => accounts_tooDeep⟩
    rw [operators_zero]
    exact accounts_applyNext fun _ _ => accounts_tooDeep
  | succ below ih =>
    refine ⟨fun floor settled => ?_, fun {_ _ cursor} floor settled => ?_, fun floor settled => ?_⟩
    · refine accounts_openLevel ((ih.operand floor (settled.reach _)).bind (settled.reach _) ?_)
      rintro value last _ hlast rfl
      exact ih.operators _ hlast
    · rw [operators_succ]
      refine accounts_applyNext fun form light => accounts_openLevel ?_
      apply accounts_advance (Int.le_refl floor)
      have settledNext := (settled.reach (maxNesting - below)).advance
      have same : (cursor.reach (maxNesting - below)).peek = cursor.peek := rfl
      rw [same, light, Int.add_zero]
      apply (ih.operatorForm floor settledNext form _ _).bind settledNext
      rintro whole last _ hlast rfl
      exact ih.operators _ hlast
    · exact accounts_openLevel (ih.body floor (settled.reach _))

end Monkey
