import SproutLang.Source

/-!
A cursor in a text, from which expressions are read one after another, and a tap on it: the cursor
together with a stream that hands out the expressions from wherever the cursor is. A stream that
has come to the end, or to a fault, hands out nothing more.
-/

namespace SproutLang

variable [Text.Alphabet]

/-- A text and a position in it. The position may lie past the end. -/
structure Cursor where
  source : List Char
  pos : Nat

namespace Cursor

def lexemes (c : Cursor) : List Lexeme :=
  Lexeme.scan c.pos (c.source.drop c.pos)

def remainder (c : Cursor) : List Char :=
  c.source.drop c.pos

def atEnd (c : Cursor) : Bool :=
  c.source.length ≤ c.pos

def moveTo (c : Cursor) (rest : List Lexeme) : Cursor :=
  { c with pos := Reading.position c.source.length rest }

/-- The cursor after the blanks that it stands before. From past the end it comes back to the
end. -/
def skipBlanks (c : Cursor) : Cursor :=
  c.moveTo c.lexemes

/-- Reads an expression. The cursor moves past it and the blanks after it; on a fault it stays. -/
def read (room : Nat) (c : Cursor) : Source.Reply Expr × Cursor :=
  let r := Reading.one room .start c.lexemes
  match r.outcome with
  | .ok (e, rest) => (⟨r.names, .ok e⟩, c.moveTo rest)
  | .error halt => (⟨r.names, .error (halt.fault c.source c.pos)⟩, c)

/-- Reads the next expression, if there is more than blanks before the end. -/
def next (room : Nat) (c : Cursor) : Source.Reply (Option Expr) × Cursor :=
  let c := c.skipBlanks
  if c.atEnd then (⟨[], .ok none⟩, c)
  else
    let (reply, c) := c.read room
    (⟨reply.names, reply.outcome.map some⟩, c)

end Cursor

/-- A cursor and whether the stream on it can still hand out expressions. -/
structure Tap where
  cursor : Cursor
  live : Bool

namespace Tap

def of (source : List Char) : Tap :=
  ⟨⟨source, 0⟩, false⟩

inductive Request
  /-- read an expression at the cursor -/
  | read
  /-- read an expression unless the text is at its end -/
  | next
  /-- start a new stream -/
  | stream
  /-- let the stream hand out an expression -/
  | advance
  /-- move the cursor -/
  | seek (pos : Nat)

/-- A stream that hands something out can go on; at the end, or after a fault, it is over. -/
def goesOn : Except ReadFault (Option Expr) → Bool
  | .ok (some _) => true
  | _ => false

def advance (room : Nat) (t : Tap) : Source.Reply (Option Expr) × Tap :=
  if t.live then
    let (reply, cursor) := t.cursor.next room
    (reply, ⟨cursor, goesOn reply.outcome⟩)
  else (⟨[], .ok none⟩, t)

def serve (room : Nat) (t : Tap) : Request → Source.Reply (Option Expr) × Tap
  | .read =>
      let (reply, cursor) := t.cursor.read room
      (⟨reply.names, reply.outcome.map some⟩, { t with cursor := cursor })
  | .next =>
      let (reply, cursor) := t.cursor.next room
      (reply, { t with cursor := cursor })
  | .stream => (⟨[], .ok none⟩, { t with live := true })
  | .advance => t.advance room
  | .seek pos => (⟨[], .ok none⟩, { t with cursor := { t.cursor with pos := pos } })

def drainUpTo (room : Nat) : Nat → Tap → Source.Reply (List Expr) × Tap
  | 0, t => (⟨[], .ok []⟩, t)
  | count + 1, t =>
      let (reply, t) := t.advance room
      match reply.outcome with
      | .error fault => (⟨reply.names, .error fault⟩, t)
      | .ok none => (⟨reply.names, .ok []⟩, t)
      | .ok (some e) =>
          let (more, t) := drainUpTo room count t
          (⟨reply.names ++ more.names, more.outcome.map (e :: ·)⟩, t)

/-- Lets the stream hand out all it has. An expression takes at least one character, so the length
of the text bounds their number. -/
def drain (room : Nat) (t : Tap) : Source.Reply (List Expr) × Tap :=
  t.drainUpTo room (t.cursor.source.length + 1)

end Tap

end SproutLang
