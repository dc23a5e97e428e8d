import Monkey.Parser
import Monkey.Program.Text
import Monkey.TokenStream

set_option autoImplicit false

namespace Monkey

inductive LexMode where
  | inline
  | threaded
  deriving DecidableEq, Repr

structure Config where
  mode : LexMode := .inline
  sourceName? : Option String := none
  deriving DecidableEq, Repr

namespace LexMode

variable [Alphabet]

def answers (mode : LexMode) (source : String) : List (Option Token) :=
  match mode with
  | inline => (tokenize source).map some
  | threaded => (TokenStream.spawn source).tokens.map some

theorem answers_eq (mode : LexMode) (source : String) :
    mode.answers source = (tokenize source).map some := by
  cases mode with
  | inline => rfl
  | threaded => rw [answers, TokenStream.tokens_spawn]

end LexMode

namespace Config

def sourceName (config : Config) : String := config.sourceName?.getD "shell"

end Config

def parseSource [Alphabet] (source : String) (config : Config) : Program × List ParseError :=
  parse (config.mode.answers source)

end Monkey
