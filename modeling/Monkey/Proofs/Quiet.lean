import Monkey.Proofs.Moves

set_option autoImplicit false

namespace Monkey.Parse

def Ensures {α : Type} (action : Parse α) (cursor : Cursor) (post : α → Cursor → Prop) : Prop :=
  ∀ value last, action cursor = .ok value last → last.errors = cursor.errors → post value last

section

variable {α β : Type} {first : Parse α} {next : α → Parse β} {cursor middle : Cursor}
  {post : α → Cursor → Prop} {goal : β → Cursor → Prop}

theorem settled_of_run (action : Parse α) [h : Moves action] (settled : cursor.Settled) {value : α}
    (run : action cursor = .ok value middle) : middle.Settled := by
  obtain ⟨trail, htrail⟩ := h.trail cursor
  rw [run] at htrail
  change middle = cursor.moves trail at htrail
  rw [htrail]
  exact settled.moves trail

theorem errors_of_run (action : Parse α) [h : Moves action] (cursor : Cursor) :
    ∃ new, (leaves (action cursor)).errors = cursor.errors ++ new := by
  obtain ⟨trail, htrail⟩ := h.trail cursor
  exact ⟨_, by rw [htrail, Cursor.errors_moves]⟩

theorem Ensures.imp {weaker : α → Cursor → Prop} (h : Ensures first cursor post)
    (himp : ∀ value last, post value last → weaker value last) : Ensures first cursor weaker :=
  fun value last run quiet => himp value last (h value last run quiet)

theorem ensures_pure {value : α} (h : post value cursor) : Ensures (pure value) cursor post := by
  intro result last run _
  cases run
  exact h

theorem ensures_throw (error : ParseError) : Ensures (throw error) cursor post := by
  intro value last run _
  cases run

theorem ensures_tooDeep : Ensures (tooDeep : Parse α) cursor post := by
  intro value last run _
  cases run

theorem Ensures.bind [Moves first] [∀ value, Moves (next value)] (settled : cursor.Settled)
    (hfirst : Ensures first cursor post)
    (hnext : ∀ value last, last.Settled → post value last → Ensures (next value) last goal) :
    Ensures (first >>= next) cursor goal := by
  intro result final run quiet
  obtain ⟨value, last, early, late⟩ := ok_of_bind run
  obtain ⟨new, hnew⟩ := errors_of_run first cursor
  obtain ⟨more, hmore⟩ := errors_of_run (next value) last
  rw [early] at hnew
  rw [late] at hmore
  change last.errors = _ at hnew
  change final.errors = _ at hmore
  have none : new = [] ∧ more = [] := by
    rw [hnew, quiet, List.append_assoc] at hmore
    simpa using hmore
  have quietFirst : last.errors = cursor.errors := by rw [hnew, none.1, List.append_nil]
  have quietNext : final.errors = last.errors := by rw [hmore, none.2, List.append_nil]
  exact hnext value last (settled_of_run first settled early) (hfirst value last early quietFirst)
    result final late quietNext

theorem Ensures.of_ok {value : α} (run : first cursor = .ok value middle)
    (errors : middle.errors = cursor.errors) (h : Ensures (next value) middle goal) :
    Ensures (first >>= next) cursor goal := by
  intro result last whole quiet
  rw [bind_of_ok run] at whole
  exact h result last whole (quiet.trans errors.symm)

theorem ensures_advance {next : Unit → Parse β} (h : Ensures (next ()) cursor.advance goal) :
    Ensures (advance >>= next) cursor goal :=
  Ensures.of_ok rfl (Cursor.errors_advance cursor) h

theorem ensures_current {next : Token → Parse β} (h : Ensures (next cursor.current) cursor goal) :
    Ensures (current >>= next) cursor goal :=
  Ensures.of_ok rfl rfl h

theorem ensures_currentKind {next : TokenKind → Parse β}
    (h : Ensures (next cursor.current.kind) cursor goal) :
    Ensures (currentKind >>= next) cursor goal :=
  Ensures.of_ok rfl rfl h

theorem ensures_peekKind {next : TokenKind → Parse β}
    (h : Ensures (next (headKind cursor.after)) cursor goal) :
    Ensures (peekKind >>= next) cursor goal := by
  rw [Cursor.headKind_after] at h
  exact Ensures.of_ok rfl rfl h

theorem ensures_remaining {next : Nat → Parse β}
    (h : Ensures (next cursor.remaining) cursor goal) :
    Ensures (remaining >>= next) cursor goal :=
  Ensures.of_ok rfl rfl h

theorem ensures_openLevel {next : Unit → Parse β} {depth : Nat}
    (h : Ensures (next ()) (cursor.reach depth) goal) :
    Ensures (openLevel depth >>= next) cursor goal :=
  Ensures.of_ok rfl (Cursor.errors_reach cursor depth) h

theorem ensures_expectPeek {next : Unit → Parse β} {kind : TokenKind} (settled : cursor.Settled)
    (hkind : kind ≠ .eof)
    (h : ∀ token, token.kind = kind → cursor.after = token :: cursor.advance.after →
      cursor.advance.current = token → Ensures (next ()) cursor.advance goal) :
    Ensures (expectPeek kind >>= next) cursor goal := by
  by_cases hpeek : cursor.peek.kind = kind
  · have moved : expectPeek kind cursor = .ok () cursor.advance := by simp [expectPeek, hpeek]
    refine Ensures.of_ok moved (Cursor.errors_advance cursor) ?_
    refine h cursor.peek hpeek ?_ rfl
    rw [Cursor.after_advance settled, Cursor.after, if_neg (by rw [hpeek]; exact hkind)]
    rfl
  · have stuck : expectPeek kind cursor =
        .error (.unexpectedToken kind cursor.peek.kind) cursor := by
      simp [expectPeek, hpeek]
    intro result last run _
    rw [bind_of_error stuck] at run
    cases run

theorem ensures_attempt [Moves first] (h : Ensures first cursor post) :
    Ensures (attempt first) cursor
      (fun value? last => ∃ value, value? = some value ∧ post value last) := by
  intro value? last run quiet
  obtain ⟨new, hnew⟩ := errors_of_run first cursor
  cases hrun : first cursor with
  | ok value middle =>
    simp only [attempt, hrun, EStateM.Result.ok.injEq] at run
    obtain ⟨rfl, rfl⟩ := run
    exact ⟨value, rfl, h value middle hrun quiet⟩
  | error error middle =>
    -- A recorded error would make the list of errors longer.
    rw [hrun] at hnew
    change middle.errors = _ at hnew
    by_cases fatal : error.isFatal = true
    · simp [attempt, hrun, fatal] at run
    · simp only [attempt, hrun, fatal] at run
      obtain ⟨-, rfl⟩ := run
      rw [Cursor.errors_record, hnew] at quiet
      simp at quiet

end

section Lists

variable {α : Type} {item : Parse α} (reads : List Token → α → Prop)

/-- Further items, each behind a comma. -/
def FollowOn : List α → List Token → Prop
  | [], tokens => tokens = []
  | value :: values, tokens => ∃ comma early late, comma.kind = TokenKind.comma ∧
      tokens = comma :: (early ++ late) ∧ reads early value ∧ FollowOn values late

/-- Items with commas between them. -/
def Listed : List α → List Token → Prop
  | [], tokens => tokens = []
  | value :: values, tokens => ∃ early late, tokens = early ++ late ∧ reads early value ∧
      FollowOn reads values late

variable {reads}

theorem ensures_afterCommas [Moves item]
    (h : ∀ cursor : Cursor, cursor.Settled → Ensures item cursor fun value last =>
      ∃ tokens, cursor.after = tokens ++ last.after ∧ reads tokens value)
    {cursor : Cursor} (settled : cursor.Settled) (bound : Nat) :
    Ensures (afterCommas item bound) cursor fun values last =>
      ∃ tokens, cursor.after = tokens ++ last.after ∧ FollowOn reads values tokens := by
  induction bound generalizing cursor with
  | zero => exact ensures_pure ⟨[], rfl, rfl⟩
  | succ bound ih =>
    apply ensures_peekKind
    split
    · rename_i hcomma
      obtain ⟨comma, hkind, hafter⟩ : ∃ comma, comma.kind = TokenKind.comma ∧
          cursor.after = comma :: cursor.advance.after := by
        rw [Cursor.after_advance settled]
        cases hlist : cursor.after with
        | nil => rw [hlist] at hcomma; cases hcomma
        | cons comma rest => exact ⟨comma, by rw [hlist] at hcomma; exact hcomma, rfl⟩
      refine ensures_advance ((h _ settled.advance).bind settled.advance ?_)
      rintro value last hlast ⟨early, hearly, hvalue⟩
      refine (ih hlast).bind hlast ?_
      rintro values final _ ⟨late, hlate, hvalues⟩
      refine ensures_pure ⟨comma :: (early ++ late), ?_, comma, early, late, hkind, rfl, hvalue,
        hvalues⟩
      rw [hafter, hearly, hlate]
      simp
    · exact ensures_pure ⟨[], rfl, rfl⟩

theorem ensures_bracketed [Moves item]
    (h : ∀ cursor : Cursor, cursor.Settled → Ensures item cursor fun value last =>
      ∃ tokens, cursor.after = tokens ++ last.after ∧ reads tokens value)
    {cursor : Cursor} (settled : cursor.Settled) :
    Ensures (bracketed item) cursor fun values last =>
      ∃ tokens closing, closing.kind = TokenKind.closeParen ∧
        cursor.after = tokens ++ closing :: last.after ∧ Listed reads values tokens := by
  apply ensures_peekKind
  split
  · rename_i hclose
    cases hlist : cursor.after with
    | nil => rw [hlist] at hclose; cases hclose
    | cons closing rest =>
      rw [hlist] at hclose
      refine ensures_advance (ensures_pure ⟨[], closing, hclose, ?_, rfl⟩)
      rw [Cursor.after_advance settled, hlist]
      rfl
  · refine (h cursor settled).bind settled ?_
    rintro value last hlast ⟨early, hearly, hvalue⟩
    refine ensures_remaining ((ensures_afterCommas h hlast _).bind hlast ?_)
    rintro values final hfinal ⟨late, hlate, hvalues⟩
    refine ensures_expectPeek hfinal (by decide) fun closing hclosing hafter _ => ?_
    refine ensures_pure ⟨early ++ late, closing, hclosing, ?_, early, late, rfl, hvalue, hvalues⟩
    rw [hearly, hlate, hafter, List.append_assoc]

end Lists

end Monkey.Parse
