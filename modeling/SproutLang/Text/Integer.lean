import SproutLang.Text.Decimal

/-!
Whole numbers in the text of a setting: an optional sign, then decimal digits of any script, with
single underscores between digits for legibility. The number of digits is limited.
-/

namespace SproutLang.Text

inductive IntegerFault
  | malformed
  | tooManyDigits (count : Nat)
  deriving DecidableEq, Repr

def isDigitOrSeparator (c : Char) : Bool :=
  c = '_' || (decimalValue c).isSome

/-- Is there a digit on both sides of every underscore, and a digit at all? -/
def wellSeparated : List Char → Bool
  | [] => false
  | [c] => c ≠ '_'
  | c :: '_' :: rest => c ≠ '_' && wellSeparated rest
  | c :: rest => c ≠ '_' && wellSeparated rest

def takeSign : List Char → Bool × List Char
  | '+' :: rest => (false, rest)
  | '-' :: rest => (true, rest)
  | text => (false, text)

/-- The number that a text writes. More than `maxDigits` digits are refused; where the text is also
malformed behind its digits, that is the fault that is told. -/
def integer (maxDigits : Nat) (text : List Char) : Except IntegerFault Int :=
  let (negative, unsigned) := takeSign text
  let run := unsigned.takeWhile isDigitOrSeparator
  let digits := run.filterMap decimalValue
  if !wellSeparated run then .error .malformed
  else if maxDigits < digits.length then .error (.tooManyDigits digits.length)
  else if run.length < unsigned.length then .error .malformed
  else
    let magnitude : Nat := digits.foldl (fun n d => 10 * n + d) 0
    .ok (if negative then -(magnitude : Int) else magnitude)

end SproutLang.Text
