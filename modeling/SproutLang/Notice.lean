import SproutLang.Expr

/-!
Notices: what an evaluation remarks on without stopping. The language itself gives warnings; a host
may leave a note of the arguments that one of its natives was called with.
-/

namespace SproutLang

inductive Warning
  /-- a function was called with a number of arguments that is not its number of parameters -/
  | arity (expected got : Nat)
  /-- an addend that is no number was left out of a sum -/
  | skippedAddend
  deriving DecidableEq, Repr

def Warning.line : Warning → String
  | .arity expected got =>
      "WARNING sprout.evaluation.apply: Called function with incorrect number of arguments "
        ++ "(expected " ++ toString expected ++ ", got " ++ toString got ++ ")"
  | .skippedAddend => "WARNING sprout.builtin.natives: Tried to add a non-int"

inductive Notice
  | warning (w : Warning)
  | note (args : List Value)

end SproutLang
