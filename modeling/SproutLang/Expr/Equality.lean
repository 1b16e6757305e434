import SproutLang.Expr

/-!
Two notions of equality. Inside the language, `Value.equals` compares numbers and the two constants
and holds of nothing else. A host compares with `Value.matches`, which also looks into its own
values and counts truth values as numbers. Under both a function or a native equals nothing, not
even itself.
-/

namespace SproutLang

/-- Equality inside the language: of numbers, of `void` and of `falsity`. -/
def Value.equals : Value → Value → Bool
  | .int a, .int b => a == b
  | .void, .void => true
  | .falsity, .falsity => true
  | _, _ => false

/-- The number that a host takes the truth value for. -/
def boolNumber (b : Bool) : Int :=
  if b then 1 else 0

mutual

/-- Equality as a host sees it. -/
def Value.matches : Value → Value → Bool
  | .void, .void => true
  | .falsity, .falsity => true
  | .int a, .int b => a == b
  | .int a, .bool b => a == boolNumber b
  | .bool a, .int b => boolNumber a == b
  | .bool a, .bool b => a == b
  | .text a, .text b => a == b
  | .absent, .absent => true
  | .list as, .list bs => Value.matchesAll as bs
  | _, _ => false

def Value.matchesAll : List Value → List Value → Bool
  | [], [] => true
  | a :: as, b :: bs => a.matches b && Value.matchesAll as bs
  | _, _ => false

end

/-- Does a host find the value equal to itself, as one and the same object? -/
def Value.matchesItself (v : Value) : Bool :=
  !v.isCallable

mutual

def Expr.matches : Expr → Expr → Bool
  | .literal v, .literal w => v.matches w
  | .ref k, .ref l => k == l
  | .define k e, .define l f => k == l && e.matches f
  | .call f as, .call g bs => f.matches g && Expr.matchesAll as bs
  | .stray v, .stray w => v.matches w
  | _, _ => false

def Expr.matchesAll : List Expr → List Expr → Bool
  | [], [] => true
  | a :: as, b :: bs => a.matches b && Expr.matchesAll as bs
  | _, _ => false

end

end SproutLang
