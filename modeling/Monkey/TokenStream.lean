import Monkey.Lexer

set_option autoImplicit false

namespace Monkey

inductive Producer where
  | lexing (lexer : Lexer)
  | offering (token : Token) (lexer : Lexer)
  | done
  deriving DecidableEq, Repr

namespace Producer

variable [Alphabet]

def work : Producer → Producer
  | lexing lexer =>
    match lexer.next? with
    | some (emission, after) => offering emission.token after
    | none => done
  | waiting => waiting

def remaining : Producer → Nat
  | lexing lexer => lexer.remaining
  | offering _ lexer => lexer.remaining + 1
  | done => 0

theorem work_remaining_le (producer : Producer) : producer.work.remaining ≤ producer.remaining := by
  cases producer with
  | lexing lexer =>
    simp only [work]
    split
    · rename_i step
      exact Lexer.next?_remaining_lt step
    · exact Nat.zero_le _
  | offering token lexer => exact Nat.le_refl _
  | done => exact Nat.le_refl _

end Producer

structure TokenStream where
  producer : Producer
  connected : Bool
  deriving DecidableEq, Repr

namespace TokenStream

def spawn (source : String) : TokenStream := ⟨.lexing (Lexer.ofString source), true⟩

variable [Alphabet]

/-- Waits for a token. After the first `none` the consumer does not ask the producer again. -/
def next (stream : TokenStream) : Option Token × TokenStream :=
  if stream.connected then
    match stream.producer.work with
    | .offering token lexer => (some token, ⟨.lexing lexer, true⟩)
    | idle => (none, ⟨idle, false⟩)
  else (none, stream)

def take : Nat → TokenStream → List (Option Token)
  | 0, _ => []
  | count + 1, stream => stream.next.1 :: take count stream.next.2

theorem next_remaining_lt {stream : TokenStream} {token : Token}
    (taken : stream.next.1 = some token) :
    stream.next.2.producer.remaining < stream.producer.remaining := by
  have worked := stream.producer.work_remaining_le
  unfold next at taken ⊢
  split at taken
  · split at taken
    · rename_i connected _ next lexer offered
      rw [offered] at worked
      simp only [connected, if_true]
      exact worked
    · cases taken
  · cases taken

def tokens (stream : TokenStream) : List Token :=
  match taken : stream.next.1 with
  | none => []
  | some token =>
    have := next_remaining_lt taken
    token :: stream.next.2.tokens
termination_by stream.producer.remaining

theorem tokens_of_end {stream : TokenStream} (ended : stream.next.1 = none) :
    stream.tokens = [] := by
  rw [tokens]
  split
  · rfl
  · rename_i taken
    rw [ended] at taken
    cases taken

theorem tokens_of_taken {stream : TokenStream} {token : Token}
    (taken : stream.next.1 = some token) : stream.tokens = token :: stream.next.2.tokens := by
  rw [tokens]
  split
  · rename_i ended
    rw [taken] at ended
    cases ended
  · rename_i other
    rw [taken] at other
    cases other
    rfl

theorem tokens_lexing (lexer : Lexer) : tokens ⟨.lexing lexer, true⟩ = lexer.tokens := by
  cases step : lexer.next? with
  | none =>
    rw [Lexer.tokens_of_stopped step, tokens_of_end]
    simp [next, Producer.work, step]
  | some produced =>
    obtain ⟨emission, after⟩ := produced
    have shorter := Lexer.next?_remaining_lt step
    have offered : next ⟨.lexing lexer, true⟩ = (some emission.token, ⟨.lexing after, true⟩) := by
      simp [next, Producer.work, step]
    rw [Lexer.tokens_of_step step, tokens_of_taken (congrArg Prod.fst offered), offered,
      tokens_lexing after]
termination_by lexer.remaining

theorem tokens_spawn (source : String) : (spawn source).tokens = tokenize source :=
  tokens_lexing _

end TokenStream

namespace Rendezvous

/-- What the consumer is doing: nothing, waiting in `next`, waiting for the producer to end after
it hung up, or nothing any more. -/
inductive Consumer where
  | idle
  | waiting
  | joining
  | gone
  deriving DecidableEq, Repr

/-- Both sides, what the consumer was answered so far, and whether it still holds its end. -/
structure State where
  producer : Producer
  consumer : Consumer
  connected : Bool
  answers : List (Option Token)
  deriving DecidableEq, Repr

def State.start (source : String) : State := ⟨.lexing (Lexer.ofString source), .idle, true, []⟩

def State.received (state : State) : List Token := state.answers.filterMap id

/-- One move of one side, or the rendezvous of both. -/
inductive Step [Alphabet] : State → State → Prop where
  | lex (lexer : Lexer) (consumer : Consumer) (connected : Bool) (answers : List (Option Token))
      (emission : Emission) (after : Lexer) (produced : lexer.next? = some (emission, after)) :
      Step ⟨.lexing lexer, consumer, connected, answers⟩
        ⟨.offering emission.token after, consumer, connected, answers⟩
  | finish (lexer : Lexer) (consumer : Consumer) (connected : Bool)
      (answers : List (Option Token)) (stopped : lexer.next? = none) :
      Step ⟨.lexing lexer, consumer, connected, answers⟩ ⟨.done, consumer, connected, answers⟩
  | ask (producer : Producer) (answers : List (Option Token)) :
      Step ⟨producer, .idle, true, answers⟩ ⟨producer, .waiting, true, answers⟩
  | handOver (token : Token) (lexer : Lexer) (answers : List (Option Token)) :
      Step ⟨.offering token lexer, .waiting, true, answers⟩
        ⟨.lexing lexer, .idle, true, answers ++ [some token]⟩
  | learnEnd (answers : List (Option Token)) :
      Step ⟨.done, .waiting, true, answers⟩ ⟨.done, .idle, false, answers ++ [none]⟩
  | askAfterEnd (producer : Producer) (answers : List (Option Token)) :
      Step ⟨producer, .idle, false, answers⟩ ⟨producer, .idle, false, answers ++ [none]⟩
  | hangUp (producer : Producer) (connected : Bool) (answers : List (Option Token)) :
      Step ⟨producer, .idle, connected, answers⟩ ⟨producer, .joining, false, answers⟩
  | refuse (token : Token) (lexer : Lexer) (consumer : Consumer)
      (answers : List (Option Token)) :
      Step ⟨.offering token lexer, consumer, false, answers⟩ ⟨.done, consumer, false, answers⟩
  | join (answers : List (Option Token)) :
      Step ⟨.done, .joining, false, answers⟩ ⟨.done, .gone, false, answers⟩

end Rendezvous
end Monkey
