import Monkey.Program.Text
import Monkey.Proofs.Completeness
import Monkey.Proofs.Scanning

set_option autoImplicit false

namespace Monkey

namespace Token

def symbol (c : Char) : Token := ⟨(punctuationKind? c).getD .illegal, String.ofList [c]⟩

def word (text : String) : Token := ⟨wordKind text, text⟩

def operator (text : String) : Token := ⟨(operatorTable.lookup text).getD .illegal, text⟩

end Token

def unaryOperators : List String := ["!", "-"]

def binaryOperators : List String := ["+", "-", "*", "/", "<", ">", "==", "!="]

/-- How many calls stand on the spine of the text, which has no brackets around a callee. -/
def Expr.calls : Expr → Nat
  | .call callee _ => callee.calls + 1
  | _ => 0

mutual

/-- The levels that the canonical text needs. -/
def Expr.need : Expr → Nat
  | .unary _ operand => 2 + operand.need
  | .binary left _ right => 1 + max left.need (2 + left.calls + right.need)
  | .conditional condition consequence alternative =>
    1 + max condition.need (max (1 + Program.need consequence) (Block.needElse alternative))
  | .function _ body => 1 + (1 + Program.need body)
  | .call callee arguments => max callee.need (2 + callee.calls + Expr.needEach arguments)
  | _ => 1

def Expr.needEach : List Expr → Nat
  | [] => 0
  | value :: values => max value.need (Expr.needEach values)

def Stmt.need : Stmt → Nat
  | .letBinding _ value => value.need
  | .returning value => value.need
  | .expression value => value.need
  | .block body => 1 + Program.need body

def Program.need : List Stmt → Nat
  | [] => 0
  | stmt :: rest => max stmt.need (Program.need rest)

def Block.needElse : Option (List Stmt) → Nat
  | none => 0
  | some body => 1 + Program.need body

end

def commaTokens : List (List Token) → List Token
  | [] => []
  | item :: items => item ++ items.flatMap fun next => Token.symbol ',' :: next

def braced (inside : List Token) : List Token :=
  Token.symbol '{' :: (inside ++ [Token.symbol '}'])

/-- What the text puts behind a statement, given whether the statement is the last. -/
def Stmt.terminator (stmt : Stmt) (last : Bool) : List Token :=
  if !last && stmt.needsTerminator then [Token.symbol ';'] else []

mutual

def Expr.tokens : Expr → List Token
  | .identifier name => [Token.word name]
  | .integer value => [⟨.number, Integer.write value⟩]
  | .boolean true => [Token.word "true"]
  | .boolean false => [Token.word "false"]
  | .unary operator operand =>
    Token.symbol '(' :: ((Token.operator operator :: operand.tokens) ++ [Token.symbol ')'])
  | .binary left operator right =>
    Token.symbol '(' ::
      ((left.tokens ++ Token.operator operator :: right.tokens) ++ [Token.symbol ')'])
  | .conditional condition consequence alternative =>
    Token.word "if" :: Token.symbol '(' :: (condition.tokens ++ Token.symbol ')' ::
      (braced (Program.tokens consequence) ++ Block.elseTokens alternative))
  | .function parameters body =>
    Token.word "fn" :: Token.symbol '(' :: (commaTokens (parameters.map fun name =>
      [Token.word name]) ++ Token.symbol ')' :: braced (Program.tokens body))
  | .call callee arguments =>
    callee.tokens ++ Token.symbol '(' ::
      (commaTokens (Expr.tokensEach arguments) ++ [Token.symbol ')'])

def Expr.tokensEach : List Expr → List (List Token)
  | [] => []
  | value :: values => value.tokens :: Expr.tokensEach values

def Stmt.tokens : Stmt → List Token
  | .letBinding name value =>
    Token.word "let" :: Token.word name :: Token.symbol '=' :: (value.tokens ++ [Token.symbol ';'])
  | .returning value => Token.word "return" :: (value.tokens ++ [Token.symbol ';'])
  | .expression value => value.tokens
  | .block body => braced (Program.tokens body)

def Program.tokens : List Stmt → List Token
  | [] => []
  | stmt :: rest => (stmt.tokens ++ stmt.terminator rest.isEmpty) ++ Program.tokens rest

def Block.elseTokens : Option (List Stmt) → List Token
  | none => []
  | some body => Token.word "else" :: braced (Program.tokens body)

end

theorem kind_of_unary {text : String} (h : text ∈ unaryOperators) :
    (Token.operator text).kind = .not ∨ (Token.operator text).kind = .dash := by
  simp only [unaryOperators, List.mem_cons, List.not_mem_nil, or_false] at h
  rcases h with rfl | rfl
  · exact .inl rfl
  · exact .inr rfl

theorem layer_of_binary {text : String} (h : text ∈ binaryOperators) :
    ∃ layer : Layer, (Token.operator text).kind ∈ layer.operators := by
  simp only [binaryOperators, List.mem_cons, List.not_mem_nil, or_false] at h
  rcases h with rfl | rfl | rfl | rfl | rfl | rfl | rfl | rfl
  · exact ⟨.sum, by decide⟩
  · exact ⟨.sum, by decide⟩
  · exact ⟨.product, by decide⟩
  · exact ⟨.product, by decide⟩
  · exact ⟨.comparison, by decide⟩
  · exact ⟨.comparison, by decide⟩
  · exact ⟨.equality, by decide⟩
  · exact ⟨.equality, by decide⟩

theorem Derives.inLayer {value : Expr} {spine n : Nat} {tokens : List Token}
    (h : Derives (.expression .call value spine) tokens n) (layer : Layer) :
    Derives (.expression layer value spine) tokens n :=
  h.loosen (by cases layer <;> decide)

theorem Derives.bracketed {layer : Layer} {value : Expr} {spine n : Nat} {tokens : List Token}
    (h : Derives (.expression layer value spine) tokens n) :
    Derives (.expression .call value 0)
      (Token.symbol '(' :: (tokens ++ [Token.symbol ')'])) (1 + n) :=
  .grouping rfl rfl (h.loosen (by cases layer <;> decide))

theorem derives_integer {value : Int64} :
    Derives (.expression .call (.integer value) 0) [⟨.number, Integer.write value⟩] 1 := by
  refine @Derives.number ⟨.number, Integer.write value⟩ value rfl ?_
  rw [Integer.read?, Integer.write, String.toList_ofList, Integer.readChars?_writeChars]

theorem derives_braced {body : Block} {tokens : List Token} {n : Nat}
    (h : Derives (.statements body) tokens n) : Derives (.block body) (braced tokens) (1 + n) :=
  .block rfl rfl h

variable [Alphabet]

mutual

def Expr.wellFormed : Expr → Bool
  | .identifier name => isName name
  | .integer value => decide (0 ≤ value.toInt)
  | .boolean _ => true
  | .unary operator operand => unaryOperators.contains operator && operand.wellFormed
  | .binary left operator right =>
    left.wellFormed && binaryOperators.contains operator && right.wellFormed
  | .conditional condition consequence alternative =>
    condition.wellFormed && Program.wellFormed consequence && Block.wellFormedElse alternative
  | .function parameters body => parameters.all isName && Program.wellFormed body
  | .call callee arguments => callee.wellFormed && Expr.wellFormedEach arguments

def Expr.wellFormedEach : List Expr → Bool
  | [] => true
  | value :: values => value.wellFormed && Expr.wellFormedEach values

def Stmt.wellFormed : Stmt → Bool
  | .letBinding name value => isName name && value.wellFormed
  | .returning value => value.wellFormed
  | .expression value => value.wellFormed
  | .block _ => false

def Program.wellFormed : List Stmt → Bool
  | [] => true
  | stmt :: rest => stmt.wellFormed && Program.wellFormed rest

def Block.wellFormedElse : Option (List Stmt) → Bool
  | none => true
  | some body => Program.wellFormed body

end

theorem kind_of_isName {text : String} (h : isName text = true) :
    (Token.word text).kind = .identifier := by
  simp only [isName, Bool.and_eq_true, beq_iff_eq] at h
  exact h.2

theorem derives_parameters {names : List String} (h : names.all isName = true) :
    Derives (.parameters names) (commaTokens (names.map fun name => [Token.word name])) 0 := by
  induction names with
  | nil => exact .noParameters
  | cons name names ih =>
    rw [List.all_cons, Bool.and_eq_true] at h
    have first := kind_of_isName h.1
    cases names with
    | nil => exact @Derives.lastParameter (Token.word name) first
    | cons next names =>
      exact @Derives.moreParameters (Token.word name) (Token.symbol ',') next names 0 _ first rfl
        (ih h.2)

mutual

/-- The canonical tokens of an expression are a call chain of that expression. -/
theorem Expr.derives : ∀ value : Expr, value.wellFormed = true →
    Derives (.expression .call value value.calls) value.tokens value.need
  | .identifier name, h => @Derives.identifier (Token.word name) (kind_of_isName h)
  | .integer _, _ => derives_integer
  | .boolean true, _ => @Derives.boolean (Token.word "true") true rfl
  | .boolean false, _ => @Derives.boolean (Token.word "false") false rfl
  | .unary operator operand, h => by
    rw [Expr.wellFormed, Bool.and_eq_true, List.contains_iff_mem] at h
    have inner := (Expr.derives operand h.2).inLayer .unary
    have whole := @Derives.unary (Token.operator operator) _ _ _ _ (kind_of_unary h.1) inner
    have levels : (Expr.unary operator operand).need = 1 + (1 + operand.need) := by
      rw [Expr.need]
      omega
    rw [levels]
    exact whole.bracketed
  | .binary left operator right, h => by
    rw [Expr.wellFormed, Bool.and_eq_true, Bool.and_eq_true, List.contains_iff_mem] at h
    obtain ⟨layer, kind⟩ := layer_of_binary h.1.2
    have first := (Expr.derives left h.1.1).inLayer layer
    have second := (Expr.derives right h.2).inLayer layer.tighter
    have whole := @Derives.binary layer (Token.operator operator) _ _ _ _ _ _ _ _ kind first second
    have levels : (Expr.binary left operator right).need =
        1 + max left.need (left.calls + 2 + right.need) := by
      rw [Expr.need]
      omega
    rw [levels]
    exact whole.bracketed
  | .conditional condition consequence alternative, h => by
    rw [Expr.wellFormed, Bool.and_eq_true, Bool.and_eq_true] at h
    have test := (Expr.derives condition h.1.1).inLayer .equality
    have first := derives_braced (Program.derives consequence h.1.2)
    have second := Block.elseDerives alternative h.2
    exact Derives.conditional rfl rfl rfl test first second
  | .function parameters body, h => by
    rw [Expr.wellFormed, Bool.and_eq_true] at h
    have inner := derives_braced (Program.derives body h.2)
    exact Derives.function rfl rfl rfl (derives_parameters h.1) inner
  | .call callee arguments, h => by
    rw [Expr.wellFormed, Bool.and_eq_true] at h
    have first := Expr.derives callee h.1
    have values := Expr.derivesEach arguments h.2
    have levels : (Expr.call callee arguments).need =
        max callee.need (callee.calls + 2 + Expr.needEach arguments) := by
      rw [Expr.need]
      omega
    rw [levels]
    exact Derives.call rfl rfl first values

theorem Expr.derivesEach : ∀ values : List Expr, Expr.wellFormedEach values = true →
    Derives (.arguments values) (commaTokens (Expr.tokensEach values)) (Expr.needEach values)
  | [], _ => .noArguments
  | [value], h => by
    rw [Expr.wellFormedEach, Bool.and_eq_true] at h
    have only := (Expr.derives value h.1).inLayer .equality
    simpa [Expr.tokensEach, commaTokens, Expr.needEach] using Derives.lastArgument only
  | value :: next :: values, h => by
    rw [Expr.wellFormedEach, Bool.and_eq_true] at h
    have first := (Expr.derives value h.1).inLayer .equality
    have rest := Expr.derivesEach (next :: values) h.2
    exact @Derives.moreArguments (Token.symbol ',') _ _ _ _ _ _ _ _ rfl first rest

/-- A statement with its terminator is left open only if it is the last one. -/
theorem Stmt.derives : ∀ (stmt : Stmt) (last : Bool), stmt.wellFormed = true →
    Derives (.statement stmt (!last || !stmt.needsTerminator))
      (stmt.tokens ++ stmt.terminator last) stmt.need
  | .letBinding name value, last, h => by
    rw [Stmt.wellFormed, Bool.and_eq_true] at h
    have inner := (Expr.derives value h.2).inLayer .equality
    have closed : (!last || !(Stmt.letBinding name value).needsTerminator) = true := by
      simp [Stmt.needsTerminator]
    have ending : (Stmt.letBinding name value).terminator last = [] := by
      simp [Stmt.terminator, Stmt.needsTerminator]
    rw [closed, ending, List.append_nil]
    exact @Derives.letBinding _ (Token.word name) _ _ true _ _ _ [Token.symbol ';'] rfl
      (kind_of_isName h.1) rfl inner rfl
  | .returning value, last, h => by
    have inner := (Expr.derives value h).inLayer .equality
    have closed : (!last || !(Stmt.returning value).needsTerminator) = true := by
      simp [Stmt.needsTerminator]
    have ending : (Stmt.returning value).terminator last = [] := by
      simp [Stmt.terminator, Stmt.needsTerminator]
    rw [closed, ending, List.append_nil]
    exact @Derives.returning _ _ true _ _ _ [Token.symbol ';'] rfl inner rfl
  | .expression value, last, h => by
    have inner := (Expr.derives value h).inLayer .equality
    refine .expression inner ?_
    cases last <;> rfl
  | .block _, _, h => by cases h

theorem Program.derives : ∀ program : List Stmt, Program.wellFormed program = true →
    Derives (.statements program) (Program.tokens program) (Program.need program)
  | [], _ => .noStatements
  | stmt :: rest, h => by
    rw [Program.wellFormed, Bool.and_eq_true] at h
    refine .moreStatements (Stmt.derives stmt rest.isEmpty h.1) (Program.derives rest h.2)
      fun hopen => ?_
    cases rest with
    | nil => exact ⟨by decide, by decide⟩
    | cons next rest => cases hopen

theorem Block.elseDerives : ∀ body : Option (List Stmt), Block.wellFormedElse body = true →
    Derives (.alternative body) (Block.elseTokens body) (Block.needElse body)
  | none, _ => .noAlternative
  | some body, h => .alternative rfl (derives_braced (Program.derives body h))

end

end Monkey
