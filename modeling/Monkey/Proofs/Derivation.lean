import Monkey.Proofs.View
import Monkey.Program
import Monkey.Text.Integer

set_option autoImplicit false

namespace Monkey

/-- The layers of expressions, the loosest first. -/
inductive Layer where
  | equality
  | comparison
  | sum
  | product
  | unary
  | call
  deriving DecidableEq, Repr

namespace Layer

def tighter : Layer → Layer
  | equality => comparison
  | comparison => sum
  | sum => product
  | product => unary
  | unary => call
  | call => call

def operators : Layer → List TokenKind
  | equality => [.equals, .notEquals]
  | comparison => [.less, .greater]
  | sum => [.plus, .dash]
  | product => [.star, .slash]
  | unary => []
  | call => []

end Layer

/-- What tokens are read as, with the tree they are read to. -/
inductive Phrase where
  /-- The last number says how many operators and calls the left spine has. -/
  | expression (layer : Layer) (value : Expr) (spine : Nat)
  | arguments (values : List Expr)
  | parameters (names : List String)
  | alternative (body : Option Block)
  | block (body : Block)
  /-- A statement is closed by a semicolon or left open. -/
  | statement (stmt : Stmt) (closed : Bool)
  | statements (stmts : List Stmt)

/-- The end of a statement: a semicolon if it is closed, nothing if it is left open. -/
def Terminates (closed : Bool) (ending : List Token) : Prop :=
  ending.map Token.kind = if closed then [.semicolon] else []

/-- The rules of the grammar. The number is how many levels are open at once at most. -/
inductive Derives : Phrase → List Token → Nat → Prop where
  | identifier {token : Token} (kind : token.kind = .identifier) :
      Derives (.expression .call (.identifier token.literal) 0) [token] 1
  | number {token : Token} {value : Int64} (kind : token.kind = .number)
      (read : Integer.read? token.literal = some value) :
      Derives (.expression .call (.integer value) 0) [token] 1
  | boolean {token : Token} {value : Bool}
      (kind : token.kind = if value then .trueKeyword else .falseKeyword) :
      Derives (.expression .call (.boolean value) 0) [token] 1
  | grouping {opening closing : Token} {value : Expr} {spine levels : Nat} {tokens : List Token}
      (openKind : opening.kind = .openParen) (closeKind : closing.kind = .closeParen)
      (inner : Derives (.expression .equality value spine) tokens levels) :
      Derives (.expression .call value 0) (opening :: (tokens ++ [closing])) (1 + levels)
  | conditional {keyword opening closing : Token} {condition : Expr} {consequence : Block}
      {alternative : Option Block} {spine n m k : Nat} {tokens body other : List Token}
      (kind : keyword.kind = .ifKeyword) (openKind : opening.kind = .openParen)
      (closeKind : closing.kind = .closeParen)
      (test : Derives (.expression .equality condition spine) tokens n)
      (first : Derives (.block consequence) body m)
      (second : Derives (.alternative alternative) other k) :
      Derives (.expression .call (.conditional condition consequence alternative) 0)
        (keyword :: opening :: (tokens ++ closing :: (body ++ other))) (1 + max n (max m k))
  | function {keyword opening closing : Token} {parameters : List String} {block : Block}
      {m k : Nat} {tokens body : List Token}
      (kind : keyword.kind = .fnKeyword) (openKind : opening.kind = .openParen)
      (closeKind : closing.kind = .closeParen)
      (names : Derives (.parameters parameters) tokens k)
      (inner : Derives (.block block) body m) :
      Derives (.expression .call (.function parameters block) 0)
        (keyword :: opening :: (tokens ++ closing :: body)) (1 + m)
  | call {opening closing : Token} {callee : Expr} {values : List Expr} {spine n m : Nat}
      {tokens inner : List Token}
      (openKind : opening.kind = .openParen) (closeKind : closing.kind = .closeParen)
      (left : Derives (.expression .call callee spine) tokens n)
      (right : Derives (.arguments values) inner m) :
      Derives (.expression .call (.call callee values) (spine + 1))
        (tokens ++ opening :: (inner ++ [closing])) (max n (spine + 2 + m))
  | unary {operator : Token} {operand : Expr} {spine n : Nat} {tokens : List Token}
      (kind : operator.kind = .not ∨ operator.kind = .dash)
      (inner : Derives (.expression .unary operand spine) tokens n) :
      Derives (.expression .unary (.unary operator.literal operand) 0) (operator :: tokens) (1 + n)
  | binary {layer : Layer} {operator : Token} {value other : Expr} {spine side n m : Nat}
      {tokens inner : List Token}
      (kind : operator.kind ∈ layer.operators)
      (left : Derives (.expression layer value spine) tokens n)
      (right : Derives (.expression layer.tighter other side) inner m) :
      Derives (.expression layer (.binary value operator.literal other) (spine + 1))
        (tokens ++ operator :: inner) (max n (spine + 2 + m))
  | looser {layer : Layer} {value : Expr} {spine n : Nat} {tokens : List Token}
      (inner : Derives (.expression layer.tighter value spine) tokens n) :
      Derives (.expression layer value spine) tokens n
  | noArguments : Derives (.arguments []) [] 0
  | lastArgument {value : Expr} {spine n : Nat} {tokens : List Token}
      (only : Derives (.expression .equality value spine) tokens n) :
      Derives (.arguments [value]) tokens n
  | moreArguments {comma : Token} {value next : Expr} {values : List Expr} {spine n m : Nat}
      {tokens others : List Token} (kind : comma.kind = .comma)
      (first : Derives (.expression .equality value spine) tokens n)
      (rest : Derives (.arguments (next :: values)) others m) :
      Derives (.arguments (value :: next :: values)) (tokens ++ comma :: others) (max n m)
  | noParameters : Derives (.parameters []) [] 0
  | lastParameter {token : Token} (kind : token.kind = .identifier) :
      Derives (.parameters [token.literal]) [token] 0
  | moreParameters {token comma : Token} {next : String} {names : List String} {n : Nat}
      {others : List Token} (kind : token.kind = .identifier) (commaKind : comma.kind = .comma)
      (rest : Derives (.parameters (next :: names)) others n) :
      Derives (.parameters (token.literal :: next :: names)) (token :: comma :: others) n
  | noAlternative : Derives (.alternative none) [] 0
  | alternative {keyword : Token} {body : Block} {n : Nat} {tokens : List Token}
      (kind : keyword.kind = .elseKeyword) (inner : Derives (.block body) tokens n) :
      Derives (.alternative (some body)) (keyword :: tokens) n
  | block {opening closing : Token} {body : Block} {n : Nat} {tokens : List Token}
      (openKind : opening.kind = .openCurly) (closeKind : closing.kind = .closeCurly)
      (inner : Derives (.statements body) tokens n) :
      Derives (.block body) (opening :: (tokens ++ [closing])) (1 + n)
  | letBinding {keyword name assign : Token} {value : Expr} {closed : Bool} {spine n : Nat}
      {tokens ending : List Token} (kind : keyword.kind = .letKeyword)
      (nameKind : name.kind = .identifier) (assignKind : assign.kind = .assignment)
      (inner : Derives (.expression .equality value spine) tokens n)
      (terminated : Terminates closed ending) :
      Derives (.statement (.letBinding name.literal value) closed)
        (keyword :: name :: assign :: (tokens ++ ending)) n
  | returning {keyword : Token} {value : Expr} {closed : Bool} {spine n : Nat}
      {tokens ending : List Token} (kind : keyword.kind = .returnKeyword)
      (inner : Derives (.expression .equality value spine) tokens n)
      (terminated : Terminates closed ending) :
      Derives (.statement (.returning value) closed) (keyword :: (tokens ++ ending)) n
  | expression {value : Expr} {closed : Bool} {spine n : Nat} {tokens ending : List Token}
      (inner : Derives (.expression .equality value spine) tokens n)
      (terminated : Terminates closed ending) :
      Derives (.statement (.expression value) closed) (tokens ++ ending) n
  | noStatements : Derives (.statements []) [] 0
  /-- Nothing that goes on from an expression may stand behind a statement that is left open. -/
  | moreStatements {stmt : Stmt} {stmts : List Stmt} {closed : Bool} {n m : Nat}
      {tokens others : List Token}
      (first : Derives (.statement stmt closed) tokens n)
      (rest : Derives (.statements stmts) others m)
      (boundary : closed = false → headKind others ≠ .dash ∧ headKind others ≠ .openParen) :
      Derives (.statements (stmt :: stmts)) (tokens ++ others) (max n m)

def TokenKind.startsExpression : TokenKind → Bool
  | identifier | number | trueKeyword | falseKeyword | not | dash | openParen | ifKeyword
  | fnKeyword => true
  | _ => false

def TokenKind.startsStatement : TokenKind → Bool
  | letKeyword | returnKeyword => true
  | kind => kind.startsExpression

theorem TokenKind.startsStatement_of_startsExpression {kind : TokenKind}
    (h : kind.startsExpression = true) : kind.startsStatement = true := by
  cases kind <;> first | rfl | cases h

/-- What a phrase begins with. -/
def Phrase.Begins : Phrase → List Token → Prop
  | .expression _ _ _, tokens => (headKind tokens).startsExpression = true
  | .statement _ _, tokens => (headKind tokens).startsStatement = true
  | .statements [], tokens => tokens = []
  | .statements (_ :: _), tokens => (headKind tokens).startsStatement = true
  | .alternative none, tokens => tokens = []
  | .alternative (some _), tokens => headKind tokens = .elseKeyword
  | .block _, tokens => headKind tokens = .openCurly
  | .arguments [], tokens => tokens = []
  | .arguments (_ :: _), tokens => (headKind tokens).startsExpression = true
  | .parameters [], tokens => tokens = []
  | .parameters (_ :: _), tokens => headKind tokens = .identifier

theorem ne_eof_of_startsExpression {kind : TokenKind} (h : kind.startsExpression = true) :
    kind ≠ .eof := by
  rintro rfl
  cases h

theorem ne_eof_of_startsStatement {kind : TokenKind} (h : kind.startsStatement = true) :
    kind ≠ .eof := by
  rintro rfl
  cases h

theorem Derives.begins {phrase : Phrase} {tokens : List Token} {levels : Nat}
    (h : Derives phrase tokens levels) : phrase.Begins tokens := by
  induction h with
  | identifier kind => simp [Phrase.Begins, kind, TokenKind.startsExpression]
  | number kind read => simp [Phrase.Begins, kind, TokenKind.startsExpression]
  | @boolean token value kind =>
    cases value <;> simp [Phrase.Begins, kind, TokenKind.startsExpression]
  | grouping openKind closeKind inner ih =>
    simp [Phrase.Begins, openKind, TokenKind.startsExpression]
  | conditional kind openKind closeKind test first second =>
    simp [Phrase.Begins, kind, TokenKind.startsExpression]
  | function kind openKind closeKind names inner =>
    simp [Phrase.Begins, kind, TokenKind.startsExpression]
  | call openKind closeKind left right ihLeft ihRight =>
    have start := headKind_append (ne_eof_of_startsExpression ihLeft)
    simpa only [Phrase.Begins, start] using ihLeft
  | unary kind inner ih =>
    rcases kind with kind | kind <;> simp [Phrase.Begins, kind, TokenKind.startsExpression]
  | binary kind left right ihLeft ihRight =>
    have start := headKind_append (ne_eof_of_startsExpression ihLeft)
    simpa only [Phrase.Begins, start] using ihLeft
  | looser inner ih => exact ih
  | noArguments => rfl
  | lastArgument only ih => exact ih
  | moreArguments kind first rest ihFirst ihRest =>
    have start := headKind_append (ne_eof_of_startsExpression ihFirst)
    simpa only [Phrase.Begins, start] using ihFirst
  | noParameters => rfl
  | lastParameter kind => exact kind
  | moreParameters kind commaKind rest ih => exact kind
  | noAlternative => rfl
  | alternative kind inner ih => exact kind
  | block openKind closeKind inner ih => exact openKind
  | letBinding kind nameKind assignKind inner terminated ih =>
    simp [Phrase.Begins, kind, TokenKind.startsStatement]
  | returning kind inner terminated ih => simp [Phrase.Begins, kind, TokenKind.startsStatement]
  | expression inner terminated ih =>
    have start := headKind_append (ne_eof_of_startsExpression ih)
    simp only [Phrase.Begins, start]
    exact TokenKind.startsStatement_of_startsExpression ih
  | noStatements => rfl
  | moreStatements first rest boundary ihFirst ihRest =>
    have start := headKind_append (ne_eof_of_startsStatement ihFirst)
    simpa only [Phrase.Begins, start] using ihFirst

theorem Layer.ne_eof_of_mem {layer : Layer} {kind : TokenKind} (h : kind ∈ layer.operators) :
    kind ≠ .eof := by
  rintro rfl
  cases layer <;> simp [Layer.operators] at h

theorem Terminates.kind_ne_eof {closed : Bool} {ending : List Token}
    (h : Terminates closed ending) : ∀ token ∈ ending, token.kind ≠ .eof := by
  intro token member hkind
  have there : token.kind ∈ ending.map Token.kind := List.mem_map_of_mem member
  rw [h, hkind] at there
  cases closed <;> simp at there

theorem Derives.kind_ne_eof {phrase : Phrase} {tokens : List Token} {levels : Nat}
    (h : Derives phrase tokens levels) : ∀ token ∈ tokens, token.kind ≠ .eof := by
  induction h with
  | identifier kind => simp [kind]
  | number kind read => simp [kind]
  | @boolean token value kind => cases value <;> simp [kind]
  | grouping openKind closeKind inner ih =>
    simpa [or_imp, forall_and, openKind, closeKind] using ih
  | conditional kind openKind closeKind test first second ihTest ihFirst ihSecond =>
    simpa [or_imp, forall_and, kind, openKind, closeKind] using ⟨ihTest, ihFirst, ihSecond⟩
  | function kind openKind closeKind names inner ihNames ihInner =>
    simpa [or_imp, forall_and, kind, openKind, closeKind] using ⟨ihNames, ihInner⟩
  | call openKind closeKind left right ihLeft ihRight =>
    simpa [or_imp, forall_and, openKind, closeKind] using ⟨ihLeft, ihRight⟩
  | unary kind inner ih =>
    rcases kind with kind | kind <;> simpa [or_imp, forall_and, kind] using ih
  | binary kind left right ihLeft ihRight =>
    simpa [or_imp, forall_and, Layer.ne_eof_of_mem kind] using ⟨ihLeft, ihRight⟩
  | looser inner ih => exact ih
  | noArguments => simp
  | lastArgument only ih => exact ih
  | moreArguments kind first rest ihFirst ihRest =>
    simpa [or_imp, forall_and, kind] using ⟨ihFirst, ihRest⟩
  | noParameters => simp
  | lastParameter kind => simp [kind]
  | moreParameters kind commaKind rest ih =>
    simpa [or_imp, forall_and, kind, commaKind] using ih
  | noAlternative => simp
  | alternative kind inner ih => simpa [or_imp, forall_and, kind] using ih
  | block openKind closeKind inner ih =>
    simpa [or_imp, forall_and, openKind, closeKind] using ih
  | letBinding kind nameKind assignKind inner terminated ih =>
    simpa [or_imp, forall_and, kind, nameKind, assignKind] using ⟨ih, terminated.kind_ne_eof⟩
  | returning kind inner terminated ih =>
    simpa [or_imp, forall_and, kind] using ⟨ih, terminated.kind_ne_eof⟩
  | expression inner terminated ih =>
    simpa [or_imp, forall_and] using ⟨ih, terminated.kind_ne_eof⟩
  | noStatements => simp
  | moreStatements first rest boundary ihFirst ihRest =>
    simpa [or_imp, forall_and] using ⟨ihFirst, ihRest⟩

/-- The levels of an operand count the operand itself and its whole left spine. -/
theorem Derives.spine_lt {layer : Layer} {value : Expr} {spine levels : Nat} {tokens : List Token}
    (h : Derives (.expression layer value spine) tokens levels) : spine < levels := by
  generalize hphrase : Phrase.expression layer value spine = phrase at h
  induction h generalizing layer value spine with
  | looser inner ih => cases hphrase; exact ih rfl
  | _ => cases hphrase <;> omega

end Monkey
