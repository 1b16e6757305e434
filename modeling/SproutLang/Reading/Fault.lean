import SproutLang.Reading
import SproutLang.Text.Basic
import SproutLang.Text.Quoted
import SproutLang.Text.Site

/-!
What a reading that fails tells its caller. A halt of the reader names lexemes; a fault names a site
in the text, what stands there, and the kinds of token that could have stood there instead.
-/

namespace SproutLang

inductive ReadFault
  /-- a token that no expression can go on with; `found` is its first character, if the text does
  not end there -/
  | unexpected (site : Text.Site) (found : Option Char) (expected : List Token.Kind)
  /-- a number that does not fit 64 bits -/
  | outOfRange (site : Text.Site) (run : List Char)
  /-- a number of more digits than can be converted -/
  | tooManyDigits (count : Nat)
  /-- more open forms than there is room for -/
  | tooDeep

namespace ReadFault

def tooManyDigitsText (count : Nat) : String :=
  "Exceeds the limit (" ++ toString Reading.maxDigits ++
    " digits) for integer string conversion: value has " ++ toString count ++
    " digits; use sys.set_int_max_str_digits() to increase the limit"

def foundText : Option Char → String
  | some c => String.ofList (Text.quoted [c])
  | none => "end of input"

def siteText (site : Text.Site) : String :=
  toString site.line ++ ":" ++ toString site.col ++ ": "

def message : ReadFault → String
  | .unexpected site found expected =>
      siteText site ++ "unexpected " ++ foundText found ++ ", expected " ++
        Text.joinWith " or " (expected.map Token.Kind.text)
  | .outOfRange site run =>
      siteText site ++ "integer literal out of range: " ++ String.ofList run
  | .tooManyDigits count => tooManyDigitsText count
  | .tooDeep => "maximum recursion depth exceeded"

end ReadFault

namespace Reading

/-- The position of the first of the lexemes; `finish` if there is none. -/
def position (finish : Nat) : List Lexeme → Nat
  | [] => finish
  | l :: _ => l.start

/-- What a halt means in the text `source`, when the reading began at position `start`. A reading
that began past the end of the text fails where it began. -/
def Halt.fault (source : List Char) (start : Nat) : Halt → ReadFault
  | .unexpected state rest =>
      let pos := position (max start source.length) rest
      .unexpected (.of source pos) source[pos]? state.expected
  | .outOfRange pos run => .outOfRange (.of source pos) run
  | .tooManyDigits count => .tooManyDigits count
  | .tooDeep => .tooDeep

end Reading

end SproutLang
