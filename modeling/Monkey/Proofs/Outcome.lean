import Monkey.Proofs.Moves

set_option autoImplicit false

namespace Monkey.Parse

structure Meets {α : Type} (action : Parse α) (cursor : Cursor) (enough : Prop)
    (post : α → Cursor → Prop) : Prop where
  gives : enough → ∃ value last, action cursor = .ok value last ∧ last.Settled ∧
    last.errors = cursor.errors ∧ post value last
  sinks : ¬ enough → ∃ last, action cursor = .error (.nestingTooDeep maxNesting) last ∧
    last.Settled ∧ last.errors = cursor.errors ∧ last.ahead = []

section

variable {α β : Type} {first : Parse α} {next : α → Parse β} {cursor middle : Cursor}
  {enough more : Prop} {post : α → Cursor → Prop} {goal : β → Cursor → Prop}

theorem Meets.congr (h : Meets first cursor enough post) (same : enough ↔ more) :
    Meets first cursor more post :=
  ⟨fun hmore => h.gives (same.2 hmore), fun hmore => h.sinks fun henough => hmore (same.1 henough)⟩

theorem meets_of_ok {value : α} (run : first cursor = .ok value middle) (settled : middle.Settled)
    (errors : middle.errors = cursor.errors) (hpost : post value middle) :
    Meets first cursor True post :=
  ⟨fun _ => ⟨value, middle, run, settled, errors, hpost⟩, fun h => absurd trivial h⟩

theorem meets_pure {value : α} (settled : cursor.Settled) (hpost : post value cursor) :
    Meets (pure value) cursor True post :=
  meets_of_ok rfl settled rfl hpost

theorem meets_tooDeep (h : ¬ enough) : Meets (tooDeep : Parse α) cursor enough post :=
  ⟨fun henough => absurd henough h, fun _ => ⟨cursor.abandon, rfl, Cursor.settled_abandon cursor,
    rfl, rfl⟩⟩

/-- What comes after a clean outcome starts where that one gave its value. -/
theorem Meets.bind (hfirst : Meets first cursor enough post)
    (hnext : enough → ∀ value last, last.Settled → post value last →
      Meets (next value) last more goal) :
    Meets (first >>= next) cursor (enough ∧ more) goal := by
  by_cases henough : enough
  · obtain ⟨value, last, run, settled, errors, hpost⟩ := hfirst.gives henough
    have later := hnext henough value last settled hpost
    refine ⟨fun hboth => ?_, fun hboth => ?_⟩
    · obtain ⟨result, final, hrun, hsettled, herrors, hgoal⟩ := later.gives hboth.2
      exact ⟨result, final, by rw [bind_of_ok run, hrun], hsettled, by rw [herrors, errors], hgoal⟩
    · obtain ⟨final, hrun, hsettled, herrors, hahead⟩ :=
        later.sinks fun hmore => hboth ⟨henough, hmore⟩
      exact ⟨final, by rw [bind_of_ok run, hrun], hsettled, by rw [herrors, errors], hahead⟩
  · obtain ⟨last, run, settled, errors, hahead⟩ := hfirst.sinks henough
    exact ⟨fun hboth => absurd hboth.1 henough,
      fun _ => ⟨last, bind_of_error run, settled, errors, hahead⟩⟩

theorem Meets.finish (hfirst : Meets first cursor enough post)
    (hnext : ∀ value last, last.Settled → post value last →
      Meets (next value) last True goal) :
    Meets (first >>= next) cursor enough goal :=
  (hfirst.bind fun _ => hnext).congr (by simp)

theorem Meets.of_ok {value : α} (run : first cursor = .ok value middle)
    (errors : middle.errors = cursor.errors) (h : Meets (next value) middle more goal) :
    Meets (first >>= next) cursor more goal := by
  refine ⟨fun hmore => ?_, fun hmore => ?_⟩
  · obtain ⟨result, final, hrun, hsettled, herrors, hgoal⟩ := h.gives hmore
    exact ⟨result, final, by rw [bind_of_ok run, hrun], hsettled, by rw [herrors, errors], hgoal⟩
  · obtain ⟨final, hrun, hsettled, herrors, hahead⟩ := h.sinks hmore
    exact ⟨final, by rw [bind_of_ok run, hrun], hsettled, by rw [herrors, errors], hahead⟩

end

section

variable {β : Type} {cursor : Cursor} {enough : Prop} {goal : β → Cursor → Prop}

theorem meets_current {next : Token → Parse β}
    (h : Meets (next cursor.current) cursor enough goal) :
    Meets (current >>= next) cursor enough goal :=
  Meets.of_ok rfl rfl h

theorem meets_currentKind {next : TokenKind → Parse β}
    (h : Meets (next (headKind cursor.ahead)) cursor enough goal) :
    Meets (currentKind >>= next) cursor enough goal := by
  rw [Cursor.headKind_ahead] at h
  exact Meets.of_ok rfl rfl h

theorem meets_peekKind {next : TokenKind → Parse β}
    (h : Meets (next (headKind cursor.after)) cursor enough goal) :
    Meets (peekKind >>= next) cursor enough goal := by
  rw [Cursor.headKind_after] at h
  exact Meets.of_ok rfl rfl h

theorem meets_remaining {next : Nat → Parse β}
    (h : Meets (next cursor.remaining) cursor enough goal) :
    Meets (remaining >>= next) cursor enough goal :=
  Meets.of_ok rfl rfl h

theorem meets_advance {next : Unit → Parse β}
    (h : Meets (next ()) cursor.advance enough goal) :
    Meets (advance >>= next) cursor enough goal :=
  Meets.of_ok rfl (Cursor.errors_advance cursor) h

theorem meets_openLevel {next : Unit → Parse β} {depth : Nat}
    (h : Meets (next ()) (cursor.reach depth) enough goal) :
    Meets (openLevel depth >>= next) cursor enough goal :=
  Meets.of_ok rfl (Cursor.errors_reach cursor depth) h

theorem meets_expectPeek {next : Unit → Parse β} {kind : TokenKind}
    (hkind : headKind cursor.after = kind) (h : Meets (next ()) cursor.advance enough goal) :
    Meets (expectPeek kind >>= next) cursor enough goal := by
  rw [Cursor.headKind_after] at hkind
  exact Meets.of_ok (by simp [expectPeek, hkind]) (Cursor.errors_advance cursor) h

theorem meets_skipSemicolon {next : Unit → Parse β} (settled : cursor.Settled)
    (h : ∀ last, last.Settled →
      last.after =
        (if headKind cursor.after = .semicolon then cursor.after.tail else cursor.after) →
      Meets (next ()) last enough goal) :
    Meets (skipSemicolon >>= next) cursor enough goal := by
  by_cases hkind : headKind cursor.after = .semicolon
  · have later := h cursor.advance settled.advance
      (by rw [Cursor.after_advance settled, if_pos hkind])
    rw [Cursor.headKind_after] at hkind
    exact Meets.of_ok (by simp [skipSemicolon, hkind]) (Cursor.errors_advance cursor) later
  · have later := h cursor settled (by rw [if_neg hkind])
    rw [Cursor.headKind_after] at hkind
    exact Meets.of_ok (by simp [skipSemicolon, hkind]) rfl later

theorem Meets.attempt {α : Type} {action : Parse α} {post : α → Cursor → Prop}
    (h : Meets action cursor enough post) :
    Meets (attempt action) cursor enough
      (fun value? last => ∃ value, value? = some value ∧ post value last) := by
  refine ⟨fun henough => ?_, fun henough => ?_⟩
  · obtain ⟨value, last, run, settled, errors, hpost⟩ := h.gives henough
    exact ⟨some value, last, by simp [Parse.attempt, run], settled, errors, value, rfl, hpost⟩
  · obtain ⟨last, run, settled, errors, hahead⟩ := h.sinks henough
    exact ⟨last, by simp [Parse.attempt, run, ParseError.isFatal], settled, errors, hahead⟩

end

section Lists

variable {α : Type} {item : Parse α}

theorem meets_afterCommas_nil {cursor : Cursor} {post : List α → Cursor → Prop} {bound : Nat}
    (settled : cursor.Settled) (hpeek : headKind cursor.after ≠ .comma) (hpost : post [] cursor) :
    Meets (afterCommas item bound) cursor True post := by
  cases bound with
  | zero => exact meets_pure settled hpost
  | succ bound =>
    apply meets_peekKind
    rw [if_neg hpeek]
    exact meets_pure settled hpost

/-- Reading a list of items up to a closing parenthesis. The first item ends somewhere in view and
the others are read from there, with every bound on their number that is large enough. -/
def ListsTo (item : Parse α) (values : List α) (tokens : List Token) (enough : Prop) : Prop :=
  ∀ cursor rest, cursor.Settled → cursor.after = tokens ++ rest → headKind rest = .closeParen →
    match values with
    | [] => tokens = [] ∧ enough
    | value :: others =>
      headKind tokens ≠ .eof ∧ headKind tokens ≠ .closeParen ∧
      ∃ (middle : List Token) (once further : Prop), (once ∧ further ↔ enough) ∧
        middle.length ≤ cursor.after.length ∧
        Meets item cursor once (fun result last => result = value ∧ last.after = middle) ∧
        ∀ last bound, last.Settled → last.after = middle → middle.length ≤ bound →
          Meets (afterCommas item bound) last further
            (fun results final => results = others ∧ final.after = rest)

theorem ListsTo.congr {values : List α} {tokens : List Token} {enough more : Prop}
    (h : ListsTo item values tokens enough) (same : enough ↔ more) :
    ListsTo item values tokens more := by
  rwa [← propext same]

theorem ListsTo.bracketed {values : List α} {tokens rest : List Token} {enough : Prop}
    {cursor : Cursor} (h : ListsTo item values tokens enough) (settled : cursor.Settled)
    (hafter : cursor.after = tokens ++ rest) (hclose : headKind rest = .closeParen) :
    Meets (bracketed item) cursor enough
      (fun results last => results = values ∧ last.after = rest.tail) := by
  have list := h cursor rest settled hafter hclose
  apply meets_peekKind
  cases values with
  | nil =>
    obtain ⟨rfl, henough⟩ := list
    rw [hafter, List.nil_append, if_pos hclose]
    refine Meets.congr (meets_advance (meets_pure settled.advance ⟨rfl, ?_⟩)) (by simp [henough])
    rw [Cursor.after_advance settled, hafter, List.nil_append]
  | cons value others =>
    obtain ⟨some, open', middle, once, further, same, short, hitem, hothers⟩ := list
    rw [hafter, headKind_append some, if_neg open']
    refine Meets.congr (hitem.bind fun _ result last hlast hresult => ?_) same
    obtain ⟨rfl, hmiddle⟩ := hresult
    apply meets_remaining
    have enoughBound : middle.length ≤ last.remaining := by
      rw [← hmiddle]
      exact Cursor.after_length_le_remaining last
    have later := hothers last last.remaining hlast hmiddle enoughBound
    apply later.finish
    intro results final hfinal hresults
    obtain ⟨rfl, hrest⟩ := hresults
    refine meets_expectPeek (by rw [hrest, hclose]) (meets_pure hfinal.advance ⟨rfl, ?_⟩)
    rw [Cursor.after_advance hfinal, hrest]

theorem listsTo_nil {enough : Prop} (h : enough) : ListsTo item ([] : List α) [] enough :=
  fun _ _ _ _ _ => ⟨rfl, h⟩

/-- One item of such a list. -/
structure Item (item : Parse α) (value : α) (tokens : List Token) (enough : Prop) : Prop where
  some : headKind tokens ≠ .eof
  starts : headKind tokens ≠ .closeParen
  run (cursor : Cursor) (rest : List Token) : cursor.Settled → cursor.after = tokens ++ rest →
    headKind rest = .comma ∨ headKind rest = .closeParen →
    Meets item cursor enough (fun result last => result = value ∧ last.after = rest)

theorem Item.last {value : α} {tokens : List Token} {enough : Prop}
    (h : Item item value tokens enough) : ListsTo item [value] tokens enough := by
  intro cursor rest settled hafter hclose
  refine ⟨h.some, h.starts, rest, enough, True, by simp, ?_,
    h.run cursor rest settled hafter (.inr hclose), fun last bound hlast hrest _ => ?_⟩
  · simp [hafter]
  · refine meets_afterCommas_nil hlast ?_ ⟨rfl, hrest⟩
    rw [hrest, hclose]
    decide

theorem Item.more {value next : α} {values : List α} {comma : Token} {tokens others : List Token}
    {enough further : Prop} (h : Item item value tokens enough) (hcomma : comma.kind = .comma)
    (hrest : ListsTo item (next :: values) others further) :
    ListsTo item (value :: next :: values) (tokens ++ comma :: others) (enough ∧ further) := by
  intro cursor rest settled hafter hclose
  have start := headKind_append h.some (comma :: others)
  rw [List.append_assoc] at hafter
  refine ⟨start ▸ h.some, start ▸ h.starts, comma :: others ++ rest, enough, further, Iff.rfl, ?_,
    h.run cursor _ settled hafter (.inl hcomma), fun last bound hlast hlater hbound => ?_⟩
  · simp [hafter]
  · cases bound with
    | zero => simp at hbound
    | succ bound =>
      have behind : last.advance.after = others ++ rest := by
        rw [Cursor.after_advance hlast, hlater]
        rfl
      obtain ⟨_, _, middle, once, again, same, short, hitem, hothers⟩ :=
        hrest last.advance rest hlast.advance behind hclose
      apply meets_peekKind
      rw [hlater, if_pos (by exact hcomma)]
      apply meets_advance
      refine (hitem.bind fun _ result final hfinal hresult => ?_).congr same
      obtain ⟨rfl, hmiddle⟩ := hresult
      have fits : middle.length ≤ bound := by
        rw [behind] at short
        simp only [List.cons_append, List.length_cons] at hbound
        omega
      refine (hothers final bound hfinal hmiddle fits).finish
        fun results final hfinal hresults => ?_
      obtain ⟨rfl, hdone⟩ := hresults
      exact meets_pure hfinal ⟨rfl, hdone⟩

end Lists

end Monkey.Parse
