import SproutLang.Expr.Printer

/-! Why an evaluation failed, and what the user is told about it. -/

namespace SproutLang

inductive Failure
  /-- a name without a binding was looked up -/
  | unbound (k : Key)
  /-- a value that is neither a function nor a native was called -/
  | notCallable (v : Value)
  /-- a choice was given no condition -/
  | noCondition
  /-- a choice was given a condition and nothing else -/
  | noBranch
  /-- a choice was given more than a condition and two branches -/
  | tooManyBranches
  /-- a value stood where an expression should -/
  | notAnExpression (v : Value)
  /-- a native of the host failed, in a way that the host names and words -/
  | host (kind wording : String)
  /-- a native of the host failed with the sign that ends an iteration -/
  | stopSign (wording : String)
  /-- that sign came from an argument of a native; natives take their arguments by an iteration,
  which cannot let it pass -/
  | strayStopSign

/-- What becomes of a failure among the arguments of a native. -/
def Failure.fromArguments : Failure → Failure
  | .stopSign _ => .strayStopSign
  | f => f

def Failure.message (spell : Key → String) : Failure → String
  | .unbound k => "Variable does not exist: " ++ spell k
  | .notCallable v => "Attempted to call a non-function: " ++ v.render spell
  | .noCondition => "No condition for if"
  | .noBranch => "No body for if"
  | .tooManyBranches => "Too many arguments supplied to `if`"
  | .notAnExpression v => "Cannot evaluate non-AST object " ++ v.describe
  | .host _ wording => wording
  | .stopSign wording => wording
  | .strayStopSign => "generator raised StopIteration"

end SproutLang
