import SproutLang.Evaluate
import SproutLang.Source
import SproutLang.Spellings

/-!
Sessions: texts evaluated one after another in a scope that persists. A text is read to its end
before any of it is evaluated, so a fault in it means that nothing happens; an evaluation that fails
keeps what was done before.
-/

namespace SproutLang

/-- How deep reading and evaluation may go: the number of forms that may be open at once, and the
number of evaluations that may be in progress at once. -/
structure Limits where
  room : Nat
  depth : Nat
  deriving DecidableEq, Repr

/-- Limits that a bound on nested calls is taken to stand for: three calls for an open form, one for
an evaluation. Both take more calls than that, so a deep program may come to its end under these
limits where the bound itself would stop it. What is proved about limits holds for all limits. -/
def Limits.ofCalls (calls : Nat) : Limits :=
  ⟨calls / 3, calls⟩

def Limits.standard : Limits :=
  .ofCalls 1000

inductive Trouble
  | reading (fault : ReadFault)
  | running (failure : Failure)
  | exhausted

structure Session (σ : Type) where
  scope : Scope
  spellings : Spellings
  world : σ

structure Session.Step (σ α : Type) where
  outcome : Except Trouble α
  session : Session σ
  log : List Notice

namespace Session

variable {σ α : Type}

/-- Binds a spelled name, and remembers its spelling. -/
def bindName (s : Session σ) (name : String) (v : Value) : Session σ :=
  { s with scope := s.scope.bindName name v, spellings := s.spellings.record name }

def bindNames (s : Session σ) (items : List (String × Value)) : Session σ :=
  items.foldl (fun s item => s.bindName item.1 item.2) s

def outcomeOf : Outcome α → Except Trouble α
  | .value a => .ok a
  | .failed f => .error (.running f)
  | .exhausted => .error .exhausted

def act (s : Session σ) (x : Action σ α) : Step σ α :=
  let r := x s.scope s.world
  ⟨outcomeOf r.outcome, { s with scope := r.scope, world := r.world }, r.log⟩

/-- Reads a text to its end and evaluates its expressions in order; yields their values. -/
def run (host : Host σ) (limits : Limits) (s : Session σ) (text : List Char) :
    Step σ (List Value) :=
  let reply := Source.all limits.room text
  let s := { s with spellings := s.spellings.recordAll reply.names }
  match reply.outcome with
  | .error fault => ⟨.error (.reading fault), s, []⟩
  | .ok exprs =>
      let series := evaluateAll host limits.depth exprs s.scope s.world
      ⟨(outcomeOf series.ending).map (fun _ => series.values),
        { s with scope := series.scope, world := series.world }, series.log⟩

/-- The one value that stands for the values of a text: a single one for itself, and `void` for
none. -/
def summary : List Value → Value
  | [] => .void
  | [v] => v
  | vs => .list vs

def eval (host : Host σ) (limits : Limits) (s : Session σ) (text : List Char) : Step σ Value :=
  let r := s.run host limits text
  ⟨r.outcome.map summary, r.session, r.log⟩

def load (host : Host σ) (limits : Limits) (s : Session σ) (text : List Char) : Step σ Unit :=
  let r := s.run host limits text
  ⟨r.outcome.map (fun _ => ()), r.session, r.log⟩

def begin (spellings : Spellings) (world : σ) (natives : Bool) : Session σ :=
  let s : Session σ := ⟨.empty, spellings, world⟩
  if natives then s.bindNames Native.standard else s

def beginWith (host : Host σ) (limits : Limits) (spellings : Spellings) (world : σ)
    (natives : Bool) (prelude : List Char) : Step σ Unit :=
  let s := begin spellings world natives
  if prelude.isEmpty then ⟨.ok (), s, []⟩ else s.load host limits prelude

end Session

end SproutLang
