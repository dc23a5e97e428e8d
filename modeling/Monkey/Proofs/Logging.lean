import Monkey.Log
import Monkey.Proofs.Location
import Monkey.Proofs.Operations

set_option autoImplicit false

namespace Monkey

namespace LogEvent

def errorText? : LogEvent → Option String
  | syntaxError error => some error.message
  | _ => none

def isFlaw : LogEvent → Bool
  | flaw _ _ _ => true
  | _ => false

def isResult : LogEvent → Bool
  | parsed _ _ => true
  | _ => false

variable {entries : List Entry} {emissions : List Emission}

theorem ofEmission?_eq_some_iff {emission : Emission} {event : LogEvent} :
    ofEmission? emission = some event ↔
      ∃ reason, emission.flaw = some reason ∧
        event = .flaw reason emission.token.literal emission.offset := by
  rw [ofEmission?, Option.map_eq_some_iff]
  simp only [eq_comm]

theorem errorText_ofEmission (emission : Emission) :
    (ofEmission? emission).toList.filterMap errorText? = [] := by
  cases reason : emission.flaw <;> simp [ofEmission?, reason, errorText?]

theorem isFlaw_of_mem_ofEmission {emission : Emission} {event : LogEvent}
    (h : event ∈ (ofEmission? emission).toList) : event.isFlaw = true := by
  obtain ⟨reason, -, rfl⟩ := ofEmission?_eq_some_iff.1 (Option.mem_toList.1 h)
  rfl

theorem errorText_ofEntries (entries : List Entry) (emissions : List Emission) :
    (ofEntries entries emissions).filterMap errorText? =
      (entries.filterMap Entry.error?).map ParseError.message := by
  fun_induction ofEntries entries emissions with
  | case1 => rfl
  | case2 entries ih => rw [ih, List.filterMap_cons_none rfl]
  | case3 entries emission emissions ih =>
    rw [List.filterMap_append, errorText_ofEmission, List.nil_append, ih,
      List.filterMap_cons_none rfl]
  | case4 error entries emissions ih => simpa [Entry.error?, errorText?] using ih

theorem filter_isFlaw_ofEntries (entries : List Entry) (emissions : List Emission) :
    (ofEntries entries emissions).filter isFlaw =
      (emissions.take (entries.count .pulled)).filterMap ofEmission? := by
  fun_induction ofEntries entries emissions with
  | case1 => simp
  | case2 entries ih => simpa using ih
  | case3 entries emission emissions ih =>
    have all : (ofEmission? emission).toList.filter isFlaw = (ofEmission? emission).toList :=
      List.filter_eq_self.2 fun event => isFlaw_of_mem_ofEmission
    rw [List.filter_append, all, ih, List.count_cons_self, List.take_succ_cons]
    cases told : ofEmission? emission <;> simp [told]
  | case4 error entries emissions ih => simpa [isFlaw] using ih

theorem not_isResult_ofEntries {event : LogEvent} (h : event ∈ ofEntries entries emissions) :
    event.isResult = false := by
  fun_induction ofEntries entries emissions with
  | case1 => cases h
  | case2 entries ih => exact ih h
  | case3 entries emission emissions ih =>
    rcases List.mem_append.1 h with here | later
    · obtain ⟨reason, -, rfl⟩ := ofEmission?_eq_some_iff.1 (Option.mem_toList.1 here)
      rfl
    · exact ih later
  | case4 error entries emissions ih =>
    rcases List.mem_cons.1 h with rfl | later
    · rfl
    · exact ih later

theorem syntaxError_mem_ofEntries_iff {error : ParseError} :
    syntaxError error ∈ ofEntries entries emissions ↔ .recorded error ∈ entries := by
  fun_induction ofEntries entries emissions with
  | case1 => simp
  | case2 entries ih => simpa using ih
  | case3 entries emission emissions ih =>
    have other : syntaxError error ∉ (ofEmission? emission).toList := fun here => by
      cases isFlaw_of_mem_ofEmission here
    simpa [other] using ih
  | case4 other entries emissions ih => simp [ih]

theorem exists_call_of_flaw {before after : List LogEvent} {reason : Flaw} {literal : String}
    {offset : Nat}
    (h : ofEntries entries emissions = before ++ .flaw reason literal offset :: after) :
    ∃ early late emission, entries = early ++ .pulled :: late ∧
      before = ofEntries early emissions ∧
      emissions[early.count .pulled]? = some emission ∧
      ofEmission? emission = some (.flaw reason literal offset) := by
  fun_induction ofEntries entries emissions generalizing before with
  | case1 => simp at h
  | case2 entries ih =>
    obtain ⟨_, _, _, -, -, fetched, -⟩ := ih h
    simp at fetched
  | case3 entries emission emissions ih =>
    have later {front : List LogEvent}
        (rest : ofEntries entries emissions = front ++ .flaw reason literal offset :: after)
        (whole : before = (ofEmission? emission).toList ++ front) :
        ∃ early late other, .pulled :: entries = early ++ .pulled :: late ∧
          before = ofEntries early (emission :: emissions) ∧
          (emission :: emissions)[early.count .pulled]? = some other ∧
          ofEmission? other = some (.flaw reason literal offset) := by
      obtain ⟨early, late, other, rfl, rfl, fetched, told⟩ := ih rest
      exact ⟨.pulled :: early, late, other, rfl, whole, by simpa using fetched, told⟩
    cases told : ofEmission? emission with
    | none =>
      rw [told] at h
      exact later h (by rw [told]; rfl)
    | some event =>
      rw [told] at h
      rcases List.cons_eq_append_iff.1 h with ⟨rfl, same⟩ | ⟨front, rfl, rest⟩
      · obtain ⟨rfl, -⟩ := List.cons.inj same
        exact ⟨[], entries, emission, rfl, rfl, rfl, told⟩
      · exact later rest (by rw [told]; rfl)
  | case4 error entries emissions ih =>
    rcases List.cons_eq_append_iff.1 h with ⟨rfl, same⟩ | ⟨front, rfl, rest⟩
    · cases same
    · obtain ⟨early, late, emission, rfl, rfl, fetched, told⟩ := ih rest
      exact ⟨.recorded error :: early, late, emission, rfl, rfl, by simpa using fetched, told⟩

end LogEvent

/-- Errors that name an illegal token are recorded behind a number of calls at least. The latest
entry of a journal stands first. -/
def FetchedFirst (calls : Nat) (journal : List Entry) : Prop :=
  ∀ late literal early, journal = late ++ .recorded (.illegalToken literal) :: early →
    calls ≤ early.count .pulled

theorem FetchedFirst.cons {calls : Nat} {journal : List Entry} {entry : Entry}
    (h : FetchedFirst calls journal)
    (here : ∀ literal, entry = .recorded (.illegalToken literal) →
      calls ≤ journal.count .pulled) : FetchedFirst calls (entry :: journal) := by
  intro late literal early split
  rcases List.cons_eq_append_iff.1 split with ⟨rfl, same⟩ | ⟨front, rfl, rest⟩
  · obtain ⟨rfl, rfl⟩ := List.cons.inj same
    exact here literal rfl
  · exact h front literal early rest

theorem FetchedFirst.of_ne {calls : Nat} {journal : List Entry} {entry : Entry}
    (h : FetchedFirst calls journal)
    (other : ∀ literal, entry ≠ .recorded (.illegalToken literal)) :
    FetchedFirst calls (entry :: journal) :=
  h.cons fun literal same => absurd same (other literal)

theorem Token.kind_of_rejection {token : Token} {literal : String}
    (h : .illegalToken literal = token.rejection) : token.kind = .illegal := by
  unfold Token.rejection Token.flaw? at h
  split at h
  · assumption
  · split at h <;> cases h
  · cases h

section Fetching

variable {tokens : List Token} {origin last : Cursor} {start place : Place}

/-- A cursor on some tokens, or one that expects nothing any more. -/
def Cursor.Within (tokens : List Token) (cursor : Cursor) : Prop :=
  (∃ count, cursor.Advanced tokens count) ∨ cursor.GivenUp

theorem Visits.within (visit : Visits origin start last place) (h : origin.Within tokens) :
    last.Within tokens := by
  induction visit with
  | refl => exact h
  | read _ _ ih | close _ ih => exact ih
  | advance _ _ ih =>
    rcases ih with ⟨count, here⟩ | gone
    · exact .inl ⟨_, here.advance⟩
    · exact .inr (by rwa [gone.advance_eq])
  | reach _ levels ih =>
    rcases ih with ⟨count, here⟩ | gone
    · exact .inl ⟨_, here.reach levels⟩
    · exact .inr ⟨gone.exhausted, gone.current, gone.peek⟩
  | miss _ _ ih | reject _ ih | unclosed _ _ ih =>
    rcases ih with ⟨count, here⟩ | gone
    · exact .inl ⟨_, here.record _⟩
    · exact .inr (gone.record _)
  | abandon _ _ => exact .inr ((Cursor.givenUp_abandon _).record _)

theorem Cursor.Within.exists_index {cursor : Cursor} (h : cursor.Within tokens)
    (some : cursor.current.kind ≠ .eof) :
    ∃ index, tokens[index]? = .some cursor.current ∧ index < cursor.pulls := by
  rcases h with ⟨count, here⟩ | gone
  · have current := here.current
    have pulls := here.pulls
    rcases count with _ | _ | index
    · exact absurd (congrArg Token.kind current) some
    · exact absurd (congrArg Token.kind current) some
    · have inside : index < tokens.length := Nat.lt_of_not_le fun past =>
        some (by rw [current, tokenAt_cons, tokenAt_cons, tokenAt_of_length_le past]; rfl)
      rw [tokenAt_cons, tokenAt_cons, tokenAt, List.getD_eq_getElem _ _ inside] at current
      exact ⟨index, by rw [current, List.getElem?_eq_getElem inside], by omega⟩
  · exact absurd (congrArg Token.kind gone.current) some

/-- If illegal tokens stand behind a number of others, they are named behind as many calls. -/
theorem Visits.fetchedFirst {calls : Nat} (visit : Visits origin start last place)
    (within : origin.Within tokens)
    (illegal : ∀ index token, tokens[index]? = some token → token.kind = .illegal →
      calls ≤ index + 1)
    (h : FetchedFirst calls origin.journal) : FetchedFirst calls last.journal := by
  induction visit with
  | refl => exact h
  | read _ _ ih | close _ ih | reach _ _ ih => exact ih
  | @advance last _ _ _ ih =>
    have step := congrArg List.reverse last.journal_advance
    rw [List.reverse_append, List.reverse_reverse, List.reverse_reverse] at step
    rw [step]
    split
    · exact ih
    · exact ih.of_ne nofun
  | miss _ _ ih | unclosed _ _ ih | abandon _ ih => exact ih.of_ne nofun
  | @reject last visit ih =>
    refine ih.cons fun literal same => ?_
    have kind := Token.kind_of_rejection (Entry.recorded.inj same).symm
    obtain ⟨index, here, fetched⟩ :=
      (visit.within within).exists_index (by rw [kind]; decide)
    have enough := illegal index _ here kind
    change index < last.journal.count .pulled at fetched
    omega

end Fetching

theorem flaws_eq {clear : List Emission} {last : Emission} (calls : Nat)
    (goesOn : ∀ emission ∈ clear, emission.flaw = none ∧ emission.token.isTerminal = false) :
    ((clear ++ [last]).take calls).filterMap LogEvent.ofEmission? =
      if clear.length < calls then (LogEvent.ofEmission? last).toList else [] := by
  have none (front : List Emission) (sub : front ⊆ clear) :
      front.filterMap LogEvent.ofEmission? = [] :=
    List.filterMap_eq_nil_iff.2 fun emission member => by
      rw [LogEvent.ofEmission?, (goesOn emission (sub member)).1, Option.map_none]
  split
  · rename_i beyond
    have all : (clear ++ [last]).length ≤ calls := by
      rw [List.length_append]
      exact beyond
    rw [List.take_of_length_le all, List.filterMap_append,
      none clear (List.Subset.refl _), List.nil_append]
    cases told : LogEvent.ofEmission? last <;> simp [told]
  · rename_i within
    rw [List.take_append_of_le_length (Nat.le_of_not_lt within)]
    exact none _ (List.take_subset _ _)

theorem any_isFlaw_iff (events : List LogEvent) :
    events.any LogEvent.isFlaw = true ↔ events.filter LogEvent.isFlaw ≠ [] := by
  rw [List.any_eq_true, Ne, List.filter_eq_nil_iff]
  simp

section

variable [Alphabet]

/-- The number of calls that a parser makes for a source. -/
def callsFor (source : String) : Nat :=
  (Parser.ofSource ((tokenize source).map some)).parseProgram.2.pulls

section Sources

variable {source : String} {clear : List Token} {last : Token}

theorem exists_throughEnd (split : tokenize source = clear ++ [last])
    (goesOn : ∀ token ∈ clear, token.isTerminal = false) :
    ∃ rest, throughEnd ((tokenize source).map some) = clear ++ rest ∧ 0 < rest.length := by
  have some (token : Token) (member : token ∈ clear) : token.kind ≠ .eof := fun ended => by
    have open' := goesOn token member
    rw [Token.isTerminal, ended] at open'
    cases open'
  refine ⟨throughEnd [.some last], ?_, throughEnd_length_pos _⟩
  rw [split, List.map_append]
  exact throughEnd_append some _

theorem length_le_callsFor (split : tokenize source = clear ++ [last])
    (goesOn : ∀ token ∈ clear, token.isTerminal = false)
    (mild : (parse ((tokenize source).map some)).2.any ParseError.isFatal = false) :
    (tokenize source).length ≤ callsFor source := by
  obtain ⟨rest, whole, more⟩ := exists_throughEnd split goesOn
  rw [callsFor, pulls_parseProgram mild, whole, split, List.length_append, List.length_append]
  exact Nat.add_le_add_left more _

/-- The last token of a source is fetched before it is named as an illegal one. -/
theorem fetchedFirst_parseProgram (split : tokenize source = clear ++ [last])
    (goesOn : ∀ token ∈ clear, token.isTerminal = false) :
    FetchedFirst (clear.length + 1)
      (Parser.ofSource ((tokenize source).map some)).parseProgram.2.cursor.journal := by
  obtain ⟨rest, whole, -⟩ := exists_throughEnd split goesOn
  have settled := Cursor.settled_ofSource ((tokenize source).map some)
  have enough := Cursor.ahead_length_le_remaining (Cursor.ofSource ((tokenize source).map some))
  have run := visits_parseStmtsToEnd (standardLevel maxNesting) settled enough
  refine run.fetchedFirst (.inl ⟨2, Cursor.advanced_ofSource _⟩) (fun index token here kind => ?_)
    fun late literal early recorded => ?_
  · rw [whole] at here
    refine Nat.succ_le_succ (Nat.le_of_not_lt fun inside => ?_)
    rw [List.getElem?_append_left inside] at here
    have open' := goesOn token (List.mem_of_getElem? here)
    rw [Token.isTerminal, kind] at open'
    cases open'
  · have errors := Cursor.errors_ofSource ((tokenize source).map some)
    rw [Cursor.errors, recorded] at errors
    simp [Entry.error?] at errors

theorem parseSource_eq (source : String) (config : Config) :
    parseSource source config = parse ((tokenize source).map some) := by
  rw [parseSource, LexMode.answers_eq]

theorem events_logSource (source : String) (config : Config) :
    (logSource source config).events =
      LogEvent.ofEntries
          (Parser.ofSource ((tokenize source).map some)).parseProgram.2.cursor.journal.reverse
          (Lexer.ofString source).emissions ++
        [.parsed (parseSource source config).1.length (parseSource source config).2.length] := by
  have answers : (Lexer.ofString source).emissions.map (fun emission => some emission.token) =
      (tokenize source).map some := by
    rw [tokenize, Lexer.tokens, List.map_map]
    rfl
  rw [parseSource_eq, logSource, answers]
  rfl

theorem syntaxError_mem_logSource_iff {config : Config} {error : ParseError} :
    .syntaxError error ∈ (logSource source config).events ↔
      error ∈ (parseSource source config).2 := by
  have recorded (entry : Entry) : entry.error? = some error ↔ entry = .recorded error := by
    cases entry <;> simp [Entry.error?]
  rw [events_logSource, parseSource_eq, List.mem_append, List.mem_singleton,
    LogEvent.syntaxError_mem_ofEntries_iff]
  change _ ↔ error ∈ List.filterMap Entry.error? _
  simp [List.mem_filterMap, recorded]

theorem count_pulled_reverse (source : String) :
    ((Parser.ofSource ((tokenize source).map some)).parseProgram.2.cursor.journal.reverse).count
      .pulled = callsFor source := List.count_reverse

theorem filter_isFlaw_logSource (source : String) (config : Config) :
    (logSource source config).events.filter LogEvent.isFlaw =
      ((Lexer.ofString source).emissions.take (callsFor source)).filterMap
        LogEvent.ofEmission? := by
  rw [events_logSource, List.filter_append, LogEvent.filter_isFlaw_ofEntries,
    count_pulled_reverse]
  exact List.append_nil _

theorem tokenize_of_emissions {clear : List Emission} {last : Emission}
    (emitted : (Lexer.ofString source).emissions = clear ++ [last])
    (goesOn : ∀ emission ∈ clear, emission.flaw = none ∧ emission.token.isTerminal = false) :
    tokenize source = clear.map Emission.token ++ [last.token] ∧
      ∀ token ∈ clear.map Emission.token, token.isTerminal = false := by
  refine ⟨?_, List.forall_mem_map.2 fun emission member => (goesOn emission member).2⟩
  rw [tokenize, Lexer.tokens, emitted, List.map_append]
  rfl

theorem exists_entries_of_flaw {config : Config} {before after : List LogEvent} {reason : Flaw}
    {literal : String} {offset : Nat}
    (h : (logSource source config).events = before ++ .flaw reason literal offset :: after) :
    ∃ more, LogEvent.ofEntries
        (Parser.ofSource ((tokenize source).map some)).parseProgram.2.cursor.journal.reverse
        (Lexer.ofString source).emissions = before ++ .flaw reason literal offset :: more := by
  rw [events_logSource] at h
  rcases List.append_eq_append_iff.1 h with ⟨front, -, whole⟩ | ⟨back, whole, rest⟩
  · rcases List.cons_eq_append_iff.1 whole with ⟨-, same⟩ | ⟨_, -, none⟩
    · cases same
    · simp at none
  · rcases List.cons_eq_append_iff.1 rest with ⟨-, same⟩ | ⟨more, rfl, -⟩
    · cases same
    · exact ⟨more, whole⟩

/-- A flaw is told of with the last call, and before any error that names the token. -/
theorem last_of_flaw {clear : List Emission} {last : Emission} {config : Config}
    (emitted : (Lexer.ofString source).emissions = clear ++ [last])
    (goesOn : ∀ emission ∈ clear, emission.flaw = none ∧ emission.token.isTerminal = false)
    {before after : List LogEvent} {reason : Flaw} {literal : String} {offset : Nat}
    (h : (logSource source config).events = before ++ .flaw reason literal offset :: after) :
    last.flaw = some reason ∧ last.token.literal = literal ∧ last.offset = offset ∧
      .syntaxError (.illegalToken literal) ∉ before := by
  obtain ⟨more, told⟩ := exists_entries_of_flaw h
  obtain ⟨early, late, emission, entries, rfl, fetched, event⟩ := LogEvent.exists_call_of_flaw told
  obtain ⟨_, flawed, same⟩ := LogEvent.ofEmission?_eq_some_iff.1 event
  obtain ⟨rfl, rfl, rfl⟩ := LogEvent.flaw.inj same
  rw [emitted] at fetched
  have beyond : clear.length ≤ early.count .pulled := Nat.le_of_not_lt fun inside => by
    rw [List.getElem?_append_left inside] at fetched
    have sound := (goesOn emission (List.mem_of_getElem? fetched)).1
    rw [flawed] at sound
    cases sound
  rw [List.getElem?_append_right beyond, List.getElem?_singleton] at fetched
  split at fetched
  · rename_i place
    cases fetched
    refine ⟨flawed, rfl, rfl, fun member => ?_⟩
    -- An error that names the token would have been recorded before the token was fetched.
    obtain ⟨first, second, rfl⟩ :=
      List.append_of_mem (LogEvent.syntaxError_mem_ofEntries_iff.1 member)
    obtain ⟨split, tokens⟩ := tokenize_of_emissions emitted goesOn
    have journal := congrArg List.reverse entries
    rw [List.reverse_reverse, List.reverse_append, List.reverse_cons, List.reverse_append,
      List.reverse_cons] at journal
    have calls := fetchedFirst_parseProgram split tokens
      (late.reverse ++ [.pulled] ++ second.reverse) last.token.literal first.reverse
      (by rw [journal]; simp)
    rw [List.count_reverse, List.length_map] at calls
    rw [List.count_append] at place
    omega
  · cases fetched

end Sources

/-- The log of a source that is lexed in place. It begins with the name of the source and ends with
the sizes of what is returned, which it tells only there. The texts of the errors that are returned
are told in their order. At most one flaw is told, which is that of an illegal token at the end of
the source, if the parser fetched that token, as it does unless it nests too deep. It is told with
the text of that token and the byte at which it stands in the source, and before the error that
names the token. The source in front of it has the tokens in front of it. -/
theorem logSource_tells (source : String) (name? : Option String) :
    let config : Config := ⟨.inline, name?⟩
    let log := logSource source config
    let returned := parseSource source config
    log.source = config.sourceName ∧
    log.events.filterMap LogEvent.errorText? = returned.2.map ParseError.message ∧
    (log.events.filter LogEvent.isFlaw).length ≤ 1 ∧
    (log.events.any LogEvent.isFlaw = true ↔
      (tokenize source).getLast?.map Token.kind = some .illegal ∧
        (tokenize source).length ≤ callsFor source) ∧
    (returned.2.any ParseError.isFatal = false → (tokenize source).length ≤ callsFor source) ∧
    (∃ before, log.events = before ++ [.parsed returned.1.length returned.2.length] ∧
      before.any LogEvent.isResult = false) ∧
    ∀ before after reason literal offset,
      log.events = before ++ .flaw reason literal offset :: after →
        ∃ tokens front behind, tokenize source = tokens ++ [⟨.illegal, literal⟩] ∧
          source = front ++ literal ++ behind ∧ front.utf8ByteSize = offset ∧
          tokenize front = tokens ++ [Token.eof] ∧
          .syntaxError (.illegalToken literal) ∉ before ∧
          (.illegalToken literal ∈ returned.2 →
            .syntaxError (.illegalToken literal) ∈ after) := by
  intro config log returned
  obtain ⟨clear, last, emitted, goesOn, kinds⟩ := exists_emissions source
  obtain ⟨split, tokens⟩ := tokenize_of_emissions emitted goesOn
  have length : (tokenize source).length = clear.length + 1 := by
    rw [split, List.length_append, List.length_map]
    rfl
  have flaws : log.events.filter LogEvent.isFlaw =
      if clear.length < callsFor source then (LogEvent.ofEmission? last).toList else [] := by
    rw [filter_isFlaw_logSource, emitted, flaws_eq _ goesOn]
  have errors : log.events.filterMap LogEvent.errorText? = returned.2.map ParseError.message := by
    rw [events_logSource, List.filterMap_append, LogEvent.errorText_ofEntries]
    exact List.append_nil _
  refine ⟨rfl, errors, ?_, ?_, fun mild => ?_, ?_,
    fun before after reason literal offset told => ?_⟩
  · rw [flaws]
    split
    · cases LogEvent.ofEmission? last <;> simp
    · simp
  · rw [any_isFlaw_iff, flaws, length, split, List.getLast?_concat, Option.map_some]
    rcases kinds with ⟨sound, ended⟩ | ⟨reason, _, _, flawed, illegal, -⟩
    · simp [LogEvent.ofEmission?, sound, ended, Token.eof]
    · simp only [LogEvent.ofEmission?, flawed, illegal, Option.map_some, Option.toList_some,
        ne_eq, ite_eq_right_iff, List.cons_ne_self, imp_false, not_not, true_and]
      exact Nat.lt_iff_add_one_le
  · exact length_le_callsFor split tokens (by rwa [← parseSource_eq source config])
  · refine ⟨_, events_logSource source config, List.any_eq_false.2 fun event member => ?_⟩
    rw [LogEvent.not_isResult_ofEntries member]
    decide
  · obtain ⟨flawed, rfl, rfl, unnamed⟩ := last_of_flaw emitted goesOn told
    rcases kinds with ⟨sound, -⟩ | ⟨_, front, behind, -, illegal, whole, size, prefixTokens⟩
    · rw [flawed] at sound
      cases sound
    · refine ⟨_, front, behind, ?_, whole, size, prefixTokens, unnamed, fun named => ?_⟩
      · rw [split, ← illegal]
      · have member := syntaxError_mem_logSource_iff.2 named
        rw [told, List.mem_append, List.mem_cons] at member
        simpa [unnamed] using member

end

theorem logSource_tells_spoiltNumber :
    (logSource ") é 1x" ⟨.inline, none⟩).events =
      [.syntaxError (.noOperandForm .closeParen), .flaw .badNumber "1x" 5,
        .syntaxError (.illegalToken "1x"), .parsed 1 2] ∧
    ∃ tokens front behind, tokenize ") é 1x" = tokens ++ [⟨.illegal, "1x"⟩] ∧
      ") é 1x" = front ++ "1x" ++ behind ∧ front.utf8ByteSize = 5 ∧
      tokenize front = tokens ++ [Token.eof] := by
  have events : (logSource ") é 1x" ⟨.inline, none⟩).events =
      [.syntaxError (.noOperandForm .closeParen)] ++ .flaw .badNumber "1x" 5 ::
        [.syntaxError (.illegalToken "1x"), .parsed 1 2] := by decide +kernel
  obtain ⟨-, -, -, -, -, -, located⟩ := logSource_tells ") é 1x" none
  obtain ⟨tokens, front, behind, split, whole, size, before, -⟩ := located _ _ _ _ _ events
  exact ⟨events, tokens, front, behind, split, whole, size, before⟩

end Monkey
