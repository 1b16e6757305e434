import SproutLang.Text.Basic

/-!
Decoding of UTF-8. The decoder is a machine that reads one byte at a time: between characters it
looks at the lead byte, inside a character it knows which range the next byte has to lie in. On
ill-formed input it names the bytes at fault: the lead byte and those after it that could still
have been part of a character.
-/

namespace SproutLang.Text.Utf8

inductive Reason
  | start
  | continuation
  | ended
  deriving DecidableEq, Repr

def Reason.text : Reason → String
  | .start => "invalid start byte"
  | .continuation => "invalid continuation byte"
  | .ended => "unexpected end of data"

/-- The bytes from position `first` to `last` are no character; `lead` is the first of them. -/
structure Fault where
  lead : UInt8
  first : Nat
  last : Nat
  reason : Reason
  deriving DecidableEq, Repr

/-- The wording of a fault: one byte is shown, several are only counted. -/
def Fault.message (f : Fault) : String :=
  let bytes :=
    if f.first = f.last then
      "byte 0x" ++ String.ofList (hexDigits 2 f.lead.toNat) ++ " in position " ++ toString f.first
    else
      "bytes in position " ++ toString f.first ++ "-" ++ toString f.last
  "'utf-8' codec can't decode " ++ bytes ++ ": " ++ f.reason.text

/-- The payload of a lead byte, and the ranges that the following bytes have to lie in. -/
def lead (b : UInt8) : Option (Nat × List (UInt8 × UInt8)) :=
  let n := b.toNat
  let any : UInt8 × UInt8 := (0x80, 0xBF)
  if n < 0x80 then some (n, [])
  else if n < 0xC2 then none
  else if n < 0xE0 then some (n - 0xC0, [any])
  else if n = 0xE0 then some (0, [(0xA0, 0xBF), any])
  else if n = 0xED then some (0xD, [(0x80, 0x9F), any])
  else if n < 0xF0 then some (n - 0xE0, [any, any])
  else if n = 0xF0 then some (0, [(0x90, 0xBF), any, any])
  else if n < 0xF4 then some (n - 0xF0, [any, any, any])
  else if n = 0xF4 then some (4, [(0x80, 0x8F), any, any])
  else none

/-- A character of which some bytes have been read: its lead byte and where that stands, the
payload so far, and the ranges of the bytes that are to come. -/
structure Open where
  lead : UInt8
  first : Nat
  payload : Nat
  next : UInt8 × UInt8
  later : List (UInt8 × UInt8)

def decodeFrom : Nat → Option Open → List UInt8 → Except Fault (List Char)
  | _, none, [] => .ok []
  | pos, some o, [] => .error ⟨o.lead, o.first, pos - 1, .ended⟩
  | pos, none, b :: rest =>
      match lead b with
      | none => .error ⟨b, pos, pos, .start⟩
      | some (code, []) => (decodeFrom (pos + 1) none rest).map (Char.ofNat code :: ·)
      | some (code, next :: later) => decodeFrom (pos + 1) (some ⟨b, pos, code, next, later⟩) rest
  | pos, some o, b :: rest =>
      if o.next.1 ≤ b && b ≤ o.next.2 then
        let code := 0x40 * o.payload + (b.toNat - 0x80)
        match o.later with
        | [] => (decodeFrom (pos + 1) none rest).map (Char.ofNat code :: ·)
        | next :: later => decodeFrom (pos + 1) (some ⟨o.lead, o.first, code, next, later⟩) rest
      else .error ⟨o.lead, o.first, pos - 1, .continuation⟩

def decode (bytes : List UInt8) : Except Fault (List Char) :=
  decodeFrom 0 none bytes

end SproutLang.Text.Utf8
