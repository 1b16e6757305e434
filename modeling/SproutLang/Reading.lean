import SproutLang.Expr
import SproutLang.Token

/-!
Reading: from tokens to expressions. The reader is a machine that takes one token at a time. Its
state says which forms are open, innermost first, what they hold so far, and so which tokens may
come next. It never goes back: a token that the state does not accept ends the reading.

`one` reads a single expression, `all` reads expressions to the end of the text. Both report the
names that they accepted, in order, whether they succeed or not.
-/

namespace SproutLang.Reading

/-- An open form that waits for an expression, with what has been read of it. -/
inductive Pending
  /-- after `(` -/
  | callee
  /-- after `(\(params)` -/
  | statement (params : List Key) (body : List Expr)
  /-- after `(= name` -/
  | value (name : Key)
  /-- after `(callee` -/
  | argument (callee : Expr) (args : List Expr)

/-- What the reader has before it; `outer` are the open forms around it, innermost first. -/
inductive State
  /-- an expression, or the end of the innermost form where that may end -/
  | expr (outer : List Pending)
  /-- the start of the parameter list, after `(\` -/
  | header (outer : List Pending)
  /-- a parameter, or the end of the list -/
  | params (names : List Key) (outer : List Pending)
  /-- the name that a definition binds, after `(=` -/
  | target (outer : List Pending)
  /-- the end of a definition -/
  | defined (name : Key) (value : Expr) (outer : List Pending)

def State.start : State := .expr []

def exprKinds : List Token.Kind :=
  [.falseMark, .lparen, .digit, .identifier]

/-- The kinds of token that a state accepts, in the order in which messages list them. -/
def State.expected : State → List Token.Kind
  | .expr [] => exprKinds
  | .expr (.callee :: _) => [.falseMark, .lparen, .equals, .backslash, .digit, .identifier]
  | .expr (.statement _ _ :: _) => [.falseMark, .lparen, .rparen, .digit, .identifier]
  | .expr (.value _ :: _) => exprKinds
  | .expr (.argument _ _ :: _) => [.falseMark, .lparen, .rparen, .digit, .identifier]
  | .header _ => [.lparen]
  | .params _ _ => [.rparen, .identifier]
  | .target _ => [.identifier]
  | .defined _ _ _ => [.rparen]

inductive Move
  /-- the token is accepted and more has to come -/
  | go (s : State)
  /-- the token completes the expression -/
  | done (e : Expr)
  /-- the state does not accept the token -/
  | unexpected
  /-- the token is a number that does not fit 64 bits -/
  | outOfRange (run : List Char)
  /-- the token is a number of more digits than can be converted -/
  | tooManyDigits (count : Nat)
  /-- the token would open more forms than there is room for -/
  | tooDeep

def maxInt : Nat := 0xFFFFFFFFFFFFFFFF

def maxDigits : Nat := 4300

/-- An expression is complete: the innermost open form takes it. -/
def complete (e : Expr) : List Pending → Move
  | [] => .done e
  | .callee :: outer => .go (.expr (.argument e [] :: outer))
  | .statement params body :: outer => .go (.expr (.statement params (body ++ [e]) :: outer))
  | .value name :: outer => .go (.defined name e outer)
  | .argument callee args :: outer => .go (.expr (.argument callee (args ++ [e]) :: outer))

def integer (run : List Char) (outer : List Pending) : Move :=
  if maxDigits < run.length then .tooManyDigits run.length
  else if maxInt < Text.decimalNumber run then .outOfRange run
  else complete (.literal (.int (Text.decimalNumber run))) outer

def keyOf (run : List Char) : Key :=
  Key.ofName (String.ofList run)

/-- One step of the reader. At most `room` forms may be open at once. -/
def step (room : Nat) : State → Token → Move
  | .expr outer, .falseMark => complete (.literal .falsity) outer
  | .expr outer, .digits run => integer run outer
  | .expr outer, .name run => complete (.ref (keyOf run)) outer
  | .expr outer, .lparen => if outer.length < room then .go (.expr (.callee :: outer)) else .tooDeep
  | .expr (.callee :: outer), .backslash => .go (.header outer)
  | .expr (.callee :: outer), .equals => .go (.target outer)
  | .expr (.statement params body :: outer), .rparen =>
      complete (.literal (.function params body)) outer
  | .expr (.argument callee args :: outer), .rparen => complete (.call callee args) outer
  | .header outer, .lparen => .go (.params [] outer)
  | .params names outer, .name run => .go (.params (names ++ [keyOf run]) outer)
  | .params names outer, .rparen => .go (.expr (.statement names [] :: outer))
  | .target outer, .name run => .go (.expr (.value (keyOf run) :: outer))
  | .defined name value outer, .rparen => complete (.define name value) outer
  | _, _ => .unexpected

inductive Halt
  /-- the lexemes `rest` begin with none that `state` accepts -/
  | unexpected (state : State) (rest : List Lexeme)
  /-- the number at `pos` does not fit 64 bits -/
  | outOfRange (pos : Nat) (run : List Char)
  /-- a number has more digits than can be converted -/
  | tooManyDigits (count : Nat)
  /-- there was no room for another open form -/
  | tooDeep

/-- The names that a reading accepted, in order, and what it came to. -/
structure Result (α : Type) where
  names : List String
  outcome : Except Halt α

def Result.after {α : Type} (r : Result α) (names : List String) : Result α :=
  { r with names := names ++ r.names }

/-- Reads to the end of the expression in progress; yields it and the lexemes after it. -/
def one (room : Nat) : State → List Lexeme → Result (Expr × List Lexeme)
  | s, [] => ⟨[], .error (.unexpected s [])⟩
  | s, l :: rest =>
      match step room s l.token with
      | .go s' => (one room s' rest).after l.token.names
      | .done e => ⟨l.token.names, .ok (e, rest)⟩
      | .unexpected => ⟨[], .error (.unexpected s (l :: rest))⟩
      | .outOfRange run => ⟨[], .error (.outOfRange l.start run)⟩
      | .tooManyDigits count => ⟨[], .error (.tooManyDigits count)⟩
      | .tooDeep => ⟨[], .error .tooDeep⟩

/-- What reading a whole text gave: the names accepted and the expressions completed, in order, and
what ended the reading before the end of the text. -/
structure Harvest where
  names : List String
  exprs : List Expr
  halt : Option Halt

def Harvest.after (h : Harvest) (names : List String) : Harvest :=
  { h with names := names ++ h.names }

def Harvest.cons (e : Expr) (h : Harvest) : Harvest :=
  { h with exprs := e :: h.exprs }

def all (room : Nat) : State → List Lexeme → Harvest
  | .expr [], [] => ⟨[], [], none⟩
  | s, [] => ⟨[], [], some (.unexpected s [])⟩
  | s, l :: rest =>
      match step room s l.token with
      | .go s' => (all room s' rest).after l.token.names
      | .done e => ((all room .start rest).cons e).after l.token.names
      | .unexpected => ⟨[], [], some (.unexpected s (l :: rest))⟩
      | .outOfRange run => ⟨[], [], some (.outOfRange l.start run)⟩
      | .tooManyDigits count => ⟨[], [], some (.tooManyDigits count)⟩
      | .tooDeep => ⟨[], [], some .tooDeep⟩

end SproutLang.Reading
