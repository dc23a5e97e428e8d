set_option autoImplicit false

namespace Monkey

mutual

inductive Expr where
  | identifier (name : String)
  | integer (value : Int64)
  | boolean (value : Bool)
  | unary (operator : String) (operand : Expr)
  | binary (left : Expr) (operator : String) (right : Expr)
  | conditional (condition : Expr) (consequence : List Stmt) (alternative : Option (List Stmt))
  | function (parameters : List String) (body : List Stmt)
  | call (callee : Expr) (arguments : List Expr)

inductive Stmt where
  | letBinding (name : String) (value : Expr)
  | returning (value : Expr)
  | expression (value : Expr)
  | block (body : List Stmt)

end

abbrev Block := List Stmt

abbrev Program := List Stmt

instance : Inhabited Expr := ⟨.boolean false⟩

instance : Inhabited Stmt := ⟨.block []⟩

mutual

def Expr.same : Expr → Expr → Bool
  | .identifier a, .identifier b => a == b
  | .integer a, .integer b => a == b
  | .boolean a, .boolean b => a == b
  | .unary a x, .unary b y => a == b && x.same y
  | .binary x a y, .binary z b w => x.same z && a == b && y.same w
  | .conditional c t e, .conditional d u f => c.same d && Block.same t u && Block.same? e f
  | .function ps t, .function qs u => ps == qs && Block.same t u
  | .call c xs, .call d ys => c.same d && Expr.sameAll xs ys
  | _, _ => false

def Expr.sameAll : List Expr → List Expr → Bool
  | [], [] => true
  | x :: xs, y :: ys => x.same y && Expr.sameAll xs ys
  | _, _ => false

def Stmt.same : Stmt → Stmt → Bool
  | .letBinding a x, .letBinding b y => a == b && x.same y
  | .returning x, .returning y => x.same y
  | .expression x, .expression y => x.same y
  | .block t, .block u => Block.same t u
  | _, _ => false

def Block.same : List Stmt → List Stmt → Bool
  | [], [] => true
  | s :: ss, t :: ts => s.same t && Block.same ss ts
  | _, _ => false

def Block.same? : Option (List Stmt) → Option (List Stmt) → Bool
  | none, none => true
  | some t, some u => Block.same t u
  | _, _ => false

end

mutual

theorem Expr.same_iff : ∀ x y : Expr, x.same y = true ↔ x = y
  | .identifier a, y => by cases y <;> simp [Expr.same]
  | .integer a, y => by cases y <;> simp [Expr.same]
  | .boolean a, y => by cases y <;> simp [Expr.same]
  | .unary a x, y => by cases y <;> simp [Expr.same, Expr.same_iff x]
  | .binary x a z, y => by
    cases y <;> simp [Expr.same, Expr.same_iff x, Expr.same_iff z, and_assoc]
  | .conditional c t e, y => by
    cases y <;>
      simp [Expr.same, Expr.same_iff c, Block.same_iff t, Block.same?_iff e, and_assoc]
  | .function ps t, y => by cases y <;> simp [Expr.same, Block.same_iff t]
  | .call c xs, y => by cases y <;> simp [Expr.same, Expr.same_iff c, Expr.sameAll_iff xs]

theorem Expr.sameAll_iff : ∀ xs ys : List Expr, Expr.sameAll xs ys = true ↔ xs = ys
  | [], ys => by cases ys <;> simp [Expr.sameAll]
  | x :: xs, ys => by
    cases ys <;> simp [Expr.sameAll, Expr.same_iff x, Expr.sameAll_iff xs]

theorem Stmt.same_iff : ∀ s t : Stmt, s.same t = true ↔ s = t
  | .letBinding a x, t => by cases t <;> simp [Stmt.same, Expr.same_iff x]
  | .returning x, t => by cases t <;> simp [Stmt.same, Expr.same_iff x]
  | .expression x, t => by cases t <;> simp [Stmt.same, Expr.same_iff x]
  | .block b, t => by cases t <;> simp [Stmt.same, Block.same_iff b]

theorem Block.same_iff : ∀ t u : List Stmt, Block.same t u = true ↔ t = u
  | [], u => by cases u <;> simp [Block.same]
  | s :: ss, u => by cases u <;> simp [Block.same, Stmt.same_iff s, Block.same_iff ss]

theorem Block.same?_iff : ∀ t u : Option (List Stmt), Block.same? t u = true ↔ t = u
  | none, u => by cases u <;> simp [Block.same?]
  | some b, u => by cases u <;> simp [Block.same?, Block.same_iff b]

end

instance : DecidableEq Expr := fun x y => decidable_of_iff _ (Expr.same_iff x y)

instance : DecidableEq Stmt := fun s t => decidable_of_iff _ (Stmt.same_iff s t)

end Monkey
