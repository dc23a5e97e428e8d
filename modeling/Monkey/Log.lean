import Monkey.FrontEnd
import Monkey.Unicode.Alphabet

set_option autoImplicit false

namespace Monkey

inductive LogEvent where
  | flaw (flaw : Flaw) (literal : String) (offset : Nat)
  | syntaxError (error : ParseError)
  | parsed (statements errors : Nat)
  deriving DecidableEq, Repr

namespace LogEvent

def message : LogEvent → String
  | flaw reason _ _ => reason.reason
  | syntaxError _ => "syntax error"
  | parsed _ _ => "parsed source"

def ofEmission? (emission : Emission) : Option LogEvent :=
  emission.flaw.map fun reason => flaw reason emission.token.literal emission.offset

/-- The events of journal entries, first entry first, over the emissions still to be fetched. -/
def ofEntries : List Entry → List Emission → List LogEvent
  | [], _ => []
  | .pulled :: entries, [] => ofEntries entries []
  | .pulled :: entries, emission :: emissions =>
    (ofEmission? emission).toList ++ ofEntries entries emissions
  | .recorded error :: entries, emissions => syntaxError error :: ofEntries entries emissions

end LogEvent

structure Log where
  /-- The name of the source, which is logged before all events. -/
  source : String
  events : List LogEvent
  deriving DecidableEq, Repr

/-- The log of parsing a source text that is lexed in place. -/
def logSource [Alphabet] (source : String) (config : Config) : Log :=
  let emissions := (Lexer.ofString source).emissions
  let parsed := (Parser.ofSource (emissions.map fun emission => some emission.token)).parseProgram
  let cursor := parsed.2.cursor
  { source := config.sourceName
    events := LogEvent.ofEntries cursor.journal.reverse emissions ++
      [.parsed parsed.1.length cursor.errors.length] }

end Monkey
