import SproutLang.Native

/-!
Evaluation. A call evaluates its callee first and its arguments after it, from left to right, in
the scope of the caller. A function runs in a copy of the caller's scope, taken before the
arguments are evaluated, in which its parameters are bound; what it binds itself is dropped with
the copy. So a name in a function means what it means where the function is called.

The evaluator is closed up from `step`, which takes the evaluator of the parts as an argument, by
recursion on a budget: the number of evaluations that may be in progress at once.
-/

namespace SproutLang

variable {σ : Type}

def evaluateArgs (ev : Expr → Action σ Value) : List Expr → Action σ (List Value)
  | [] => return []
  | arg :: args => do
      let v ← ev arg
      let vs ← evaluateArgs ev args
      return v :: vs

/-- Evaluates as many arguments as there are parameters and binds them in `inner`; yields `inner`
with the bindings. -/
def bindArgs (ev : Expr → Action σ Value) : List Key → List Expr → Scope → Action σ Scope
  | param :: params, arg :: args, inner => do
      let v ← ev arg
      bindArgs ev params args (inner.insert param v)
  | _, _, inner => return inner

/-- Evaluates the statements in order; yields the value of the last, and `last` without any. -/
def runBody (ev : Expr → Action σ Value) : List Expr → Value → Action σ Value
  | [], last => return last
  | stmt :: stmts, _ => do
      let v ← ev stmt
      runBody ev stmts v

def applyFunction (ev : Expr → Action σ Value) (params : List Key) (body args : List Expr) :
    Action σ Value := do
  let scope ← Action.getScope
  if params.length ≠ args.length then
    Action.warn (.arity params.length args.length)
  let inner ← bindArgs ev params args scope
  Action.inScope inner (runBody ev body .void)

def apply (host : Host σ) (ev : Expr → Action σ Value) (head : Value) (args : List Expr) :
    Action σ Value :=
  match head with
  | .function params body => applyFunction ev params body args
  | .native op _ => do
      let vs ← (evaluateArgs ev args).relabel .fromArguments
      Native.call host op vs
  | _ => Action.fail (.notCallable head)

/-- Evaluates an expression, with `ev` as the evaluator of its parts. -/
def step (host : Host σ) (ev : Expr → Action σ Value) : Expr → Action σ Value
  | .literal v => return v
  | .ref k => Action.lookUp k
  | .define k value => do
      let v ← ev value
      Action.bindKey k v
      return .void
  | .call callee args => do
      let head ← ev callee
      apply host ev head args
  | .stray v => Action.fail (.notAnExpression v)

/-- Evaluates an expression with at most `depth` evaluations in progress at once. -/
def evaluate (host : Host σ) : Nat → Expr → Action σ Value
  | 0, _ => Action.exhaust
  | depth + 1, e => step host (evaluate host depth) e

/-- The end of evaluating several expressions: the values of those that had one, and whether all
had. -/
structure Series (σ : Type) where
  values : List Value
  ending : Outcome Unit
  scope : Scope
  world : σ
  log : List Notice

def evaluateAll (host : Host σ) (depth : Nat) : List Expr → Scope → σ → Series σ
  | [], scope, world => ⟨[], .value (), scope, world, []⟩
  | e :: es, scope, world =>
      let r := evaluate host depth e scope world
      match r.outcome with
      | .value v =>
          let s := evaluateAll host depth es r.scope r.world
          { s with values := v :: s.values, log := r.log ++ s.log }
      | .failed f => ⟨[], .failed f, r.scope, r.world, r.log⟩
      | .exhausted => ⟨[], .exhausted, r.scope, r.world, r.log⟩

end SproutLang
