set_option autoImplicit false

namespace Monkey

inductive BindingPower where
  | lowest
  | equals
  | lessGreater
  | sum
  | product
  | unary
  | call
  deriving DecidableEq, Repr

namespace BindingPower

def all : List BindingPower := [lowest, equals, lessGreater, sum, product, unary, call]

def rank : BindingPower → Nat
  | lowest => 0
  | equals => 1
  | lessGreater => 2
  | sum => 3
  | product => 4
  | unary => 5
  | call => 6

def name : BindingPower → String
  | lowest => "Lowest"
  | equals => "Equals"
  | lessGreater => "LessGreater"
  | sum => "Sum"
  | product => "Product"
  | unary => "Prefix"
  | call => "Call"

def ofName? (name : String) : Option BindingPower := all.find? fun power => power.name == name

instance : LT BindingPower := ⟨fun a b => a.rank < b.rank⟩

instance (a b : BindingPower) : Decidable (a < b) := inferInstanceAs (Decidable (a.rank < b.rank))

theorem lt_iff {a b : BindingPower} : a < b ↔ a.rank < b.rank := Iff.rfl

theorem rank_injective {a b : BindingPower} (same : a.rank = b.rank) : a = b := by
  cases a <;> cases b <;> first | rfl | exact absurd same (by decide)

end BindingPower
end Monkey
