import SproutLang.Action
import SproutLang.Expr.Equality

/-!
Natives: callables that are not written in the language. Three come with it. `add` sums its
numbers, `eq` compares its arguments and `choose` picks a branch; `void` stands for true and
`falsity` for false, and everything but `falsity` counts as true. A host may supply more; a native
of the host sees its arguments and the world of the host, and never a scope.
-/

namespace SproutLang

namespace Native

/-- Numbers wrap around at this bound when they are added. -/
def wordBound : Int := 0x10000000000000000

/-- The sum of the numbers among the arguments, from `total` on, wrapped around at every step; and
a warning for every other argument. -/
def addFrom (total : Int) : List Value → Int × List Warning
  | [] => (total, [])
  | .int n :: args => addFrom ((total + n) % wordBound) args
  | _ :: args =>
      let (sum, warnings) := addFrom total args
      (sum, .skippedAddend :: warnings)

def add (args : List Value) : Int × List Warning :=
  addFrom 0 args

/-- `void` if all arguments equal the first, else `falsity`. -/
def eq : List Value → Value
  | [] => .void
  | head :: args => if args.all (fun v => v.equals head) then .void else .falsity

/-- The second argument, unless the first is `falsity`: then the third, or `void` without one. -/
def choose : List Value → Except Failure Value
  | [] => .error .noCondition
  | [_] => .error .noBranch
  | [.falsity, _] => .ok .void
  | [.falsity, _, otherwise] => .ok otherwise
  | [_, branch] => .ok branch
  | [_, branch, _] => .ok branch
  | _ => .error .tooManyBranches

/-- The name of a native: the one it is given if that is not empty, else its own, and `native` if
it has none. -/
def nameFor (given own : Option String) : String :=
  match given with
  | some "" => own.getD "native"
  | some name => name
  | none => own.getD "native"

def ownName : NativeOp → Option String
  | .add => some "add"
  | .eq => some "eq"
  | .choose => some "if_"
  | .host _ => none

def standard : List (String × Value) :=
  [("add", .native .add "add"), ("eq", .native .eq "eq"), ("if", .native .choose "if")]

end Native

structure HostReply (σ : Type) where
  outcome : Except Failure Value
  world : σ
  log : List Notice

/-- A host: what its natives do, by tag. -/
structure Host (σ : Type) where
  call : String → List Value → σ → HostReply σ

def Host.bare : Host Unit where
  call tag _ world := ⟨.error (.host "unknown" ("Unknown native: " ++ tag)), world, []⟩

namespace Native

variable {σ : Type}

def call (host : Host σ) : NativeOp → List Value → Action σ Value
  | .add, args => fun scope world =>
      let (sum, warnings) := add args
      ⟨.value (.int sum), scope, world, warnings.map .warning⟩
  | .eq, args => .ret (eq args)
  | .choose, args =>
      match choose args with
      | .ok v => .ret v
      | .error f => .fail f
  | .host tag, args => fun scope world =>
      let reply := host.call tag args world
      match reply.outcome with
      | .ok v => ⟨.value v, scope, reply.world, reply.log⟩
      | .error f => ⟨.failed f, scope, reply.world, reply.log⟩

end Native

end SproutLang
