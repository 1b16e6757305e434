import SproutLang.Key

/-!
Values and expressions. A function is a value that holds expressions, and a literal is an
expression that holds a value, so the two are defined together.

A host may bind values of its own, which the language carries around without looking inside: truth
values, texts, the absent value and lists. It may also put a value where an expression should
stand; such a stray is neither printed as code nor evaluated.
-/

namespace SproutLang

/-- What a native does: one of the three that the language brings along, or an action that the
host knows by its tag. -/
inductive NativeOp
  | add
  | eq
  | choose
  | host (tag : String)
  deriving DecidableEq, Repr

mutual

inductive Value
  | void
  | falsity
  | int (n : Int)
  | function (params : List Key) (body : List Expr)
  | native (op : NativeOp) (name : String)
  | bool (b : Bool)
  | text (s : String)
  | absent
  | list (items : List Value)

inductive Expr
  | literal (v : Value)
  | ref (k : Key)
  | define (k : Key) (value : Expr)
  | call (callee : Expr) (args : List Expr)
  | stray (v : Value)

end

instance : Inhabited Value := ⟨.void⟩

instance : Inhabited Expr := ⟨.literal .void⟩

namespace Value

/-- Is the value a number? Truth values are none. -/
def isInt : Value → Bool
  | .int _ => true
  | _ => false

def isCallable : Value → Bool
  | .function _ _ => true
  | .native _ _ => true
  | _ => false

def isTruthy : Value → Bool
  | .falsity => false
  | .int n => n != 0
  | .bool b => b
  | .text s => s != ""
  | .absent => false
  | .list items => !items.isEmpty
  | _ => true

end Value

end SproutLang
