import SproutLang.Reading.Fault

/-!
Reading of whole texts, in three ways: `first` reads one expression, `many` as many as there are
before something that starts none, and `all` insists on reading the text to its end. Each reports
the names that it accepted, also when it fails.
-/

namespace SproutLang.Source

variable [Text.Alphabet]

/-- The names that were accepted, in order, and what came of reading the text. -/
structure Reply (α : Type) where
  names : List String
  outcome : Except ReadFault α

def remainder (source : List Char) (rest : List Lexeme) : List Char :=
  source.drop (Reading.position source.length rest)

/-- The first expression of the text, and the text after it and the blanks that follow it. -/
def first (room : Nat) (source : List Char) : Reply (Expr × List Char) :=
  let r := Reading.one room .start (Lexeme.scan 0 source)
  { names := r.names
    outcome :=
      match r.outcome with
      | .ok (e, rest) => .ok (e, remainder source rest)
      | .error halt => .error (halt.fault source 0) }

/-- The expressions at the start of the text, and the text that is left. The reading stops at a
token that starts no expression; one that breaks off an expression is a fault. -/
def many (room : Nat) (source : List Char) : Reply (List Expr × List Char) :=
  let h := Reading.all room .start (Lexeme.scan 0 source)
  { names := h.names
    outcome :=
      match h.halt with
      | none => .ok (h.exprs, [])
      | some (.unexpected (.expr []) rest) => .ok (h.exprs, remainder source rest)
      | some halt => .error (halt.fault source 0) }

def all (room : Nat) (source : List Char) : Reply (List Expr) :=
  let h := Reading.all room .start (Lexeme.scan 0 source)
  { names := h.names
    outcome :=
      match h.halt with
      | none => .ok h.exprs
      | some halt => .error (halt.fault source 0) }

end SproutLang.Source
