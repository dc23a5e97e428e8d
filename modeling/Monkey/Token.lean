set_option autoImplicit false

namespace Monkey

inductive TokenKind where
  | illegal
  | eof
  | identifier
  | number
  | assignment
  | plus
  | dash
  | not
  | star
  | slash
  | less
  | greater
  | equals
  | notEquals
  | comma
  | semicolon
  | openParen
  | closeParen
  | openCurly
  | closeCurly
  | fnKeyword
  | letKeyword
  | trueKeyword
  | falseKeyword
  | ifKeyword
  | elseKeyword
  | returnKeyword
  deriving DecidableEq, Repr

namespace TokenKind

def all : List TokenKind :=
  [illegal, eof, identifier, number, assignment, plus, dash, not, star, slash, less, greater,
    equals, notEquals, comma, semicolon, openParen, closeParen, openCurly, closeCurly, fnKeyword,
    letKeyword, trueKeyword, falseKeyword, ifKeyword, elseKeyword, returnKeyword]

theorem mem_all (kind : TokenKind) : kind ∈ all := by cases kind <;> decide

def name : TokenKind → String
  | illegal => "Illegal"
  | eof => "EOF"
  | identifier => "Identifier"
  | number => "Number"
  | assignment => "Assignment"
  | plus => "Plus"
  | dash => "Dash"
  | not => "Not"
  | star => "Star"
  | slash => "Slash"
  | less => "Less"
  | greater => "Greater"
  | equals => "Equals"
  | notEquals => "NotEquals"
  | comma => "Comma"
  | semicolon => "Semicolon"
  | openParen => "OpenParen"
  | closeParen => "CloseParen"
  | openCurly => "OpenCurly"
  | closeCurly => "CloseCurly"
  | fnKeyword => "Fn"
  | letKeyword => "Let"
  | trueKeyword => "True"
  | falseKeyword => "False"
  | ifKeyword => "If"
  | elseKeyword => "Else"
  | returnKeyword => "Return"

def ofName? (name : String) : Option TokenKind := all.find? fun kind => kind.name == name

theorem ofName?_name (kind : TokenKind) : ofName? kind.name = some kind := by
  cases kind <;> decide

/-- The kinds after which a lexer produces nothing else. -/
def isTerminal (kind : TokenKind) : Bool := kind == eof || kind == illegal

/-- The kinds whose text is not fixed by the kind. -/
def hasOwnText (kind : TokenKind) : Bool := kind == identifier || kind == number || kind == illegal

end TokenKind

def keywords : List (String × TokenKind) :=
  [("fn", .fnKeyword), ("let", .letKeyword), ("true", .trueKeyword), ("false", .falseKeyword),
    ("if", .ifKeyword), ("else", .elseKeyword), ("return", .returnKeyword)]

def wordKind (word : String) : TokenKind := (keywords.lookup word).getD .identifier

def punctuation : List (Char × TokenKind) :=
  [('=', .assignment), ('!', .not), ('+', .plus), ('-', .dash), ('*', .star), ('/', .slash),
    ('<', .less), ('>', .greater), (',', .comma), (';', .semicolon), ('(', .openParen),
    (')', .closeParen), ('{', .openCurly), ('}', .closeCurly)]

def punctuationKind? (c : Char) : Option TokenKind := punctuation.lookup c

structure Token where
  kind : TokenKind
  literal : String
  deriving DecidableEq, Repr

namespace Token

def eof : Token := ⟨.eof, ""⟩

def isTerminal (token : Token) : Bool := token.kind.isTerminal

/-- The kind alone, or with the text in round brackets where the kind leaves the text open. -/
def display (token : Token) : String :=
  if token.kind.hasOwnText then token.kind.name ++ " (" ++ token.literal ++ ")" else token.kind.name

end Token
end Monkey
