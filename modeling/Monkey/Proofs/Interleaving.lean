import Monkey.FrontEnd
import Monkey.Proofs.Demand
import Monkey.Unicode.Alphabet

set_option autoImplicit false

namespace Monkey

namespace TokenStream

variable [Alphabet]

theorem take_disconnected (producer : Producer) (count : Nat) :
    take count ⟨producer, false⟩ = List.replicate count none := by
  induction count with
  | zero => rfl
  | succ count ih => exact congrArg (List.cons none) ih

theorem take_lexing (lexer : Lexer) (count : Nat) : take count ⟨.lexing lexer, true⟩ =
    (lexer.tokens.take count).map some ++
      List.replicate (count - lexer.tokens.length) none := by
  induction count generalizing lexer with
  | zero => simp [take]
  | succ count ih =>
    cases step : lexer.next? with
    | none =>
      have ended : next ⟨.lexing lexer, true⟩ = (none, ⟨.done, false⟩) := by
        simp [next, Producer.work, step]
      rw [Lexer.tokens_of_stopped step, take, ended, take_disconnected]
      rfl
    | some produced =>
      obtain ⟨emission, after⟩ := produced
      have offered : next ⟨.lexing lexer, true⟩ = (some emission.token, ⟨.lexing after, true⟩) := by
        simp [next, Producer.work, step]
      rw [Lexer.tokens_of_step step, take, offered, ih, List.take_succ_cons, List.map_cons,
        List.length_cons, Nat.add_sub_add_right, List.cons_append]

end TokenStream

namespace Rendezvous

/-- The token that the producer has lexed in a step, if it has. -/
def lexedIn (before after : State) : List Token :=
  match before.producer, after.producer with
  | .lexing _, .offering token _ => [token]
  | _, _ => []

/-- The consumer waits for the producer, in a call or to be joined with it. -/
def State.Blocked (state : State) : Prop :=
  state.consumer = .waiting ∨ state.consumer = .joining

def delay : Producer → Nat
  | .lexing _ => 2
  | .offering _ _ => 1
  | .done => 0

theorem received_append (producer : Producer) (consumer : Consumer) (connected : Bool)
    (answers : List (Option Token)) (answer : Option Token) :
    (State.mk producer consumer connected (answers ++ [answer])).received =
      (State.mk producer consumer connected answers).received ++ answer.toList := by
  cases answer <;> simp [State.received]

section

variable [Alphabet]

/-- The states of all interleavings, with the tokens that the producer has lexed so far. -/
inductive Run (source : String) : List Token → State → Prop where
  | start : Run source [] (.start source)
  | step {lexed : List Token} {before after : State} (run : Run source lexed before)
      (step : Step before after) : Run source (lexed ++ lexedIn before after) after

/-- What has become of the tokens of a source: which were received and which were lexed. -/
inductive Account (source : String) (received : List Token) :
    List Token → Producer → Bool → Prop where
  | lexing {lexer : Lexer} {connected : Bool}
      (whole : received ++ lexer.tokens = tokenize source) :
      Account source received received (.lexing lexer) connected
  | offering {token : Token} {lexer : Lexer} {connected : Bool}
      (whole : received ++ token :: lexer.tokens = tokenize source) :
      Account source received (received ++ [token]) (.offering token lexer) connected
  | finished {connected : Bool} (whole : received = tokenize source) :
      Account source received received .done connected
  | refused {token : Token} {rest : List Token}
      (whole : received ++ token :: rest = tokenize source) :
      Account source received (received ++ [token]) .done false

namespace Account

variable {source : String} {received lexed : List Token} {producer : Producer} {connected : Bool}

theorem lexed_prefix (h : Account source received lexed producer connected) :
    lexed <+: tokenize source := by
  cases h with
  | lexing whole => exact ⟨_, whole⟩
  | offering whole => exact ⟨_, by rw [List.append_assoc]; exact whole⟩
  | finished whole => exact ⟨[], by rw [List.append_nil]; exact whole⟩
  | refused whole => exact ⟨_, by rw [List.append_assoc]; exact whole⟩

theorem lexed_eq (h : Account source received lexed producer connected) :
    ∃ ahead, lexed = received ++ ahead ∧ ahead.length ≤ 1 := by
  cases h with
  | lexing => exact ⟨[], (List.append_nil _).symm, Nat.zero_le _⟩
  | offering => exact ⟨_, rfl, Nat.le_refl _⟩
  | finished => exact ⟨[], (List.append_nil _).symm, Nat.zero_le _⟩
  | refused => exact ⟨_, rfl, Nat.le_refl _⟩

theorem disconnect (h : Account source received lexed producer connected) :
    Account source received lexed producer false := by
  cases h with
  | lexing whole => exact .lexing whole
  | offering whole => exact .offering whole
  | finished whole => exact .finished whole
  | refused whole => exact .refused whole

end Account

/-- What every step of an interleaving keeps. -/
structure Invariant (source : String) (lexed : List Token) (state : State) : Prop where
  account : Account source state.received lexed state.producer state.connected
  answers : ∃ ends, state.answers = state.received.map some ++ List.replicate ends none ∧
    (0 < ends → state.received = tokenize source ∧ state.connected = false)
  connected_of_waiting : state.consumer = .waiting → state.connected = true
  disconnected_of_joining : state.consumer = .joining → state.connected = false
  /-- The consumer lets go of its end when it has received everything, or hangs up. -/
  received_of_idle : state.consumer = .idle → state.connected = false →
    state.received = tokenize source

variable {source : String} {lexed : List Token} {state next : State}

theorem invariant_start (source : String) : Invariant source [] (.start source) where
  account := .lexing rfl
  answers := ⟨0, rfl, nofun⟩
  connected_of_waiting := nofun
  disconnected_of_joining := nofun
  received_of_idle _ := nofun

theorem Invariant.step (h : Invariant source lexed state) (step : Step state next) :
    Invariant source (lexed ++ lexedIn state next) next := by
  obtain ⟨account, ⟨ends, answered, last⟩, waiting, joining, idle⟩ := h
  cases step with
  | lex lexer consumer connected answers emission after produced =>
    refine ⟨?_, ⟨ends, answered, last⟩, waiting, joining, idle⟩
    cases account with
    | lexing whole =>
      rw [Lexer.tokens_of_step produced] at whole
      exact .offering whole
  | finish lexer consumer connected answers stopped =>
    rw [lexedIn, List.append_nil]
    refine ⟨?_, ⟨ends, answered, last⟩, waiting, joining, idle⟩
    cases account with
    | lexing whole =>
      rw [Lexer.tokens_of_stopped stopped, List.append_nil] at whole
      exact .finished whole
  | ask producer answers =>
    have same : lexedIn ⟨producer, .idle, true, answers⟩ ⟨producer, .waiting, true, answers⟩ = [] :=
      by cases producer <;> rfl
    rw [same, List.append_nil]
    exact ⟨account, ⟨ends, answered, last⟩, fun _ => rfl, nofun, nofun⟩
  | handOver token lexer answers =>
    obtain rfl : ends = 0 := Nat.eq_zero_of_not_pos fun some => nomatch (last some).2
    rw [lexedIn, List.append_nil]
    have received := received_append (.lexing lexer) .idle true answers (some token)
    refine ⟨?_, ⟨0, ?_, nofun⟩, nofun, nofun, fun _ => nofun⟩
    · rw [received]
      cases account with
      | offering whole =>
        exact .lexing (by rw [List.append_assoc]; exact whole)
    · rw [received, List.map_append, List.replicate_zero, List.append_nil]
      rw [List.replicate_zero, List.append_nil] at answered
      exact congrArg (· ++ [some token]) answered
  | learnEnd answers =>
    obtain rfl : ends = 0 := Nat.eq_zero_of_not_pos fun some => nomatch (last some).2
    rw [lexedIn, List.append_nil]
    have received := received_append .done .idle false answers none
    rw [Option.toList_none, List.append_nil] at received
    cases account with
    | finished whole =>
      refine ⟨?_, ⟨1, ?_, fun _ => ⟨received.trans whole, rfl⟩⟩, nofun, nofun,
        fun _ _ => received.trans whole⟩
      · rw [received]
        exact .finished whole
      · rw [received]
        rw [List.replicate_zero, List.append_nil] at answered
        exact congrArg (· ++ [none]) answered
  | askAfterEnd producer answers =>
    have whole := idle rfl rfl
    have received := received_append producer .idle false answers none
    rw [Option.toList_none, List.append_nil] at received
    have same : lexedIn ⟨producer, .idle, false, answers⟩
        ⟨producer, .idle, false, answers ++ [none]⟩ = [] := by cases producer <;> rfl
    rw [same, List.append_nil]
    refine ⟨?_, ⟨ends + 1, ?_, fun _ => ⟨received.trans whole, rfl⟩⟩, nofun, nofun,
      fun _ _ => received.trans whole⟩
    · rw [received]
      exact account
    · rw [received, List.replicate_succ', ← List.append_assoc]
      exact congrArg (· ++ [none]) answered
  | hangUp producer connected answers =>
    have same : lexedIn ⟨producer, .idle, connected, answers⟩
        ⟨producer, .joining, false, answers⟩ = [] := by cases producer <;> rfl
    rw [same, List.append_nil]
    exact ⟨account.disconnect, ⟨ends, answered, fun some => ⟨(last some).1, rfl⟩⟩, nofun,
      fun _ => rfl, nofun⟩
  | refuse token lexer consumer answers =>
    rw [lexedIn, List.append_nil]
    refine ⟨?_, ⟨ends, answered, last⟩, waiting, joining, idle⟩
    cases account with
    | offering whole => exact .refused whole
  | join answers =>
    rw [lexedIn, List.append_nil]
    exact ⟨account, ⟨ends, answered, last⟩, nofun, nofun, nofun⟩

theorem Run.invariant (run : Run source lexed state) : Invariant source lexed state := by
  induction run with
  | start => exact invariant_start source
  | step _ step ih => exact ih.step step

theorem Invariant.exists_step (h : Invariant source lexed state) (blocked : state.Blocked) :
    ∃ next, Step state next := by
  obtain ⟨-, -, waiting, joining, -⟩ := h
  obtain ⟨producer, consumer, connected, answers⟩ := state
  cases producer with
  | lexing lexer =>
    cases produced : lexer.next? with
    | none => exact ⟨_, .finish lexer consumer connected answers produced⟩
    | some emitted => exact ⟨_, .lex lexer consumer connected answers _ _ produced⟩
  | offering token lexer =>
    rcases blocked with rfl | rfl
    · obtain rfl : connected = true := waiting rfl
      exact ⟨_, .handOver token lexer answers⟩
    · obtain rfl : connected = false := joining rfl
      exact ⟨_, .refuse token lexer .joining answers⟩
  | done =>
    rcases blocked with rfl | rfl
    · obtain rfl : connected = true := waiting rfl
      exact ⟨_, .learnEnd answers⟩
    · obtain rfl : connected = false := joining rfl
      exact ⟨_, .join answers⟩

theorem delay_lt (step : Step state next) (blocked : state.Blocked) (still : next.Blocked) :
    delay next.producer < delay state.producer := by
  cases step with
  | lex => exact Nat.lt_add_one 1
  | finish => exact Nat.two_pos
  | refuse => exact Nat.one_pos
  | ask => exact absurd blocked (by simp [State.Blocked])
  | askAfterEnd => exact absurd blocked (by simp [State.Blocked])
  | hangUp => exact absurd blocked (by simp [State.Blocked])
  | handOver => exact absurd still (by simp [State.Blocked])
  | learnEnd => exact absurd still (by simp [State.Blocked])
  | join => exact absurd still (by simp [State.Blocked])

theorem Invariant.received_prefix (h : Invariant source lexed state) :
    state.received <+: tokenize source := by
  obtain ⟨ahead, rfl, -⟩ := h.account.lexed_eq
  exact (List.prefix_append _ _).trans h.account.lexed_prefix

/-- The answers are those that a consumer has for whom the producer only works while it waits. -/
theorem Invariant.answers_eq_take (h : Invariant source lexed state) :
    state.answers = (TokenStream.spawn source).take state.answers.length := by
  obtain ⟨ends, answered, last⟩ := h.answers
  obtain ⟨rest, whole⟩ := h.received_prefix
  have tokens : (Lexer.ofString source).tokens = state.received ++ rest := whole.symm
  have count : state.answers.length = state.received.length + ends := by
    rw [answered, List.length_append, List.length_map, List.length_replicate]
  rw [TokenStream.spawn, TokenStream.take_lexing, tokens, count, answered]
  rcases Nat.eq_zero_or_pos ends with rfl | some
  · have none : state.received.length - (state.received ++ rest).length = 0 := by simp
    rw [Nat.add_zero, none, List.take_left]
  · obtain rfl : rest = [] := List.append_right_eq_self.1 (whole.trans (last some).1.symm)
    rw [List.append_nil, Nat.add_sub_cancel_left, List.take_of_length_le (Nat.le_add_right _ _)]

end

end Rendezvous

theorem untilEnd_append_none (answers : List (Option Token)) (ends : Nat) :
    untilEnd (answers ++ List.replicate ends none) = untilEnd answers := by
  induction answers with
  | nil => cases ends <;> rfl
  | cons answer rest ih =>
    cases answer with
    | none => rfl
    | some token =>
      rw [List.cons_append, untilEnd, untilEnd, ih]

theorem parse_take_spawn [Alphabet] {source : String} {count : Nat}
    (enough : Suffices ((TokenStream.spawn source).take count)) (config : Config) :
    parse ((TokenStream.spawn source).take count) = parseSource source config := by
  obtain ⟨tokens, htokens⟩ : ∃ tokens, tokens = tokenize source := ⟨_, rfl⟩
  have answers : (TokenStream.spawn source).take count =
      (tokens.map some ++ List.replicate count none).take count := by
    rw [TokenStream.spawn, TokenStream.take_lexing, List.take_append, ← List.map_take,
      List.take_replicate, List.length_map, Nat.min_eq_left (Nat.sub_le _ _), htokens]
    rfl
  rw [answers] at enough ⊢
  rw [parse_take enough, parse_eq_of_untilEnd (untilEnd_append_none _ count), parseSource,
    LexMode.answers_eq, htokens]

namespace Rendezvous

section

variable [Alphabet] {source : String} {lexed : List Token} {state : State}

/-- In every interleaving what was received is a beginning of the tokens of the source, and at most
one token more was lexed. The consumer is answered with an end once it has received them all, and
with nothing else from then on. Whoever is blocked can be helped by a step, and by the third one at
the latest. So a parser on this stream, which is answered enough at the first end or before it, has
the program of the source that is lexed in place, whether or not it reads to the end. -/
theorem rendezvous_delivers (run : Run source lexed state) :
    (state.received <+: lexed ∧ lexed.length ≤ state.received.length + 1 ∧
      lexed <+: tokenize source) ∧
    (∃ ends, state.answers = state.received.map some ++ List.replicate ends none ∧
      (0 < ends → state.received = tokenize source)) ∧
    (state.Blocked → (∃ next, Step state next) ∧
      ∀ next, Step state next → next.Blocked → delay next.producer < delay state.producer) ∧
    (none ∈ state.answers → Suffices state.answers) ∧
    (Suffices state.answers → ∀ config, parse state.answers = parseSource source config) ∧
    ∀ config other, parseSource source config = parseSource source other := by
  have invariant := run.invariant
  refine ⟨⟨?_, ?_, invariant.account.lexed_prefix⟩, ?_, fun blocked =>
    ⟨invariant.exists_step blocked, fun _ step => delay_lt step blocked⟩, suffices_of_none_mem,
    fun enough config => ?_, fun config other => ?_⟩
  · obtain ⟨ahead, rfl, -⟩ := invariant.account.lexed_eq
    exact List.prefix_append _ _
  · obtain ⟨ahead, rfl, short⟩ := invariant.account.lexed_eq
    rw [List.length_append]
    exact Nat.add_le_add_left short _
  · obtain ⟨ends, answered, last⟩ := invariant.answers
    exact ⟨ends, answered, fun some => (last some).1⟩
  · have answers := invariant.answers_eq_take
    rw [answers] at enough ⊢
    exact parse_take_spawn enough config
  · rw [parseSource, parseSource, LexMode.answers_eq, LexMode.answers_eq]

end

/-- A consumer that hangs up once it has a name and the end token. The producer is yet to find out
that there is nothing more to lex. -/
theorem rendezvous_delivers_hungUp :
    let name : Token := ⟨.identifier, "a"⟩
    let last : State := ⟨.lexing ⟨1, [], [], true⟩, .joining, false, [some name, some Token.eof]⟩
    Run "a" [name, Token.eof] last ∧ (∃ next, Step last next) ∧
      ∀ config, parse [some name, some Token.eof] = parseSource "a" config := by
  intro name last
  have run : Run "a" [name, Token.eof] last :=
    .step (.step (.step (.step (.step (.step (.step .start
      (.ask _ _))
      (.lex _ _ _ _ ⟨name, 0, none⟩ ⟨1, [], [], false⟩ (by decide)))
      (.handOver _ _ _))
      (.ask _ _))
      (.lex _ _ _ _ ⟨Token.eof, 1, none⟩ ⟨1, [], [], true⟩ (by decide)))
      (.handOver _ _ _))
      (.hangUp _ _ _)
  obtain ⟨-, -, helped, -, program, -⟩ := rendezvous_delivers run
  exact ⟨run, (helped (.inr rfl)).1, program (by decide)⟩

end Rendezvous

end Monkey
