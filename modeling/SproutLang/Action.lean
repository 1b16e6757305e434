import SproutLang.Failure
import SproutLang.Notice
import SproutLang.Scope

/-!
Actions: computations that may change the scope and the world of the host, write notices, fail, or
exhaust their budget. What an action did before it failed stays done. To have exhausted the budget
is an outcome of its own, never taken for a failure.
-/

namespace SproutLang

inductive Outcome (α : Type)
  | value (a : α)
  | failed (f : Failure)
  | exhausted

/-- The end of an action: what it came to, the scope and the world that it left, and the notices
that it wrote, in order. -/
structure Run (σ α : Type) where
  outcome : Outcome α
  scope : Scope
  world : σ
  log : List Notice

def Action (σ α : Type) : Type :=
  Scope → σ → Run σ α

namespace Action

variable {σ α β : Type}

def ret (a : α) : Action σ α :=
  fun scope world => ⟨.value a, scope, world, []⟩

/-- Does `x`, and then what `f` makes of its value; without a value that is all. -/
def andThen (x : Action σ α) (f : α → Action σ β) : Action σ β :=
  fun scope world =>
    let r := x scope world
    match r.outcome with
    | .value a =>
        let q := f a r.scope r.world
        { q with log := r.log ++ q.log }
    | .failed e => ⟨.failed e, r.scope, r.world, r.log⟩
    | .exhausted => ⟨.exhausted, r.scope, r.world, r.log⟩

instance : Monad (Action σ) where
  pure := ret
  bind := andThen

def fail (f : Failure) : Action σ α :=
  fun scope world => ⟨.failed f, scope, world, []⟩

def relabel (x : Action σ α) (g : Failure → Failure) : Action σ α :=
  fun scope world =>
    let r := x scope world
    match r.outcome with
    | .failed f => { r with outcome := .failed (g f) }
    | _ => r

def exhaust : Action σ α :=
  fun scope world => ⟨.exhausted, scope, world, []⟩

def warn (w : Warning) : Action σ Unit :=
  fun scope world => ⟨.value (), scope, world, [.warning w]⟩

def getScope : Action σ Scope :=
  fun scope world => ⟨.value scope, scope, world, []⟩

def bindKey (k : Key) (v : Value) : Action σ Unit :=
  fun scope world => ⟨.value (), scope.insert k v, world, []⟩

def lookUp (k : Key) : Action σ Value :=
  fun scope world =>
    match scope.find? k with
    | some v => ⟨.value v, scope, world, []⟩
    | none => ⟨.failed (.unbound k), scope, world, []⟩

/-- Does `x` in the scope `inner`, which is dropped afterwards. -/
def inScope (inner : Scope) (x : Action σ α) : Action σ α :=
  fun scope world =>
    let r := x inner world
    { r with scope := scope }

end Action

end SproutLang
