import SproutLang.Text.Alphabet
import SproutLang.Text.Decimal

/-!
Tokens. A text is cut into tokens from left to right, each as long as possible: the mark `#f`, runs
of ASCII digits, runs of letters, and four single characters. Blanks may stand between tokens and
are dropped. A character that starts none of these is a token of its own, which no form of the
language accepts.
-/

namespace SproutLang

variable [Text.Alphabet]

inductive Token
  | falseMark
  | digits (run : List Char)
  | name (run : List Char)
  | lparen
  | rparen
  | equals
  | backslash
  | unknown (c : Char)
  deriving DecidableEq, Repr

namespace Token

/-- The kinds of token that the language uses. Messages list them in the order of their texts, which
is the order here. -/
inductive Kind
  | falseMark
  | lparen
  | rparen
  | equals
  | backslash
  | digit
  | identifier
  deriving DecidableEq, Repr

def Kind.all : List Kind :=
  [.falseMark, .lparen, .rparen, .equals, .backslash, .digit, .identifier]

def Kind.text : Kind → String
  | .falseMark => "'#f'"
  | .lparen => "'('"
  | .rparen => "')'"
  | .equals => "'='"
  | .backslash => "'\\\\'"
  | .digit => "digit"
  | .identifier => "identifier"

def kind? : Token → Option Kind
  | .falseMark => some .falseMark
  | .digits _ => some .digit
  | .name _ => some .identifier
  | .lparen => some .lparen
  | .rparen => some .rparen
  | .equals => some .equals
  | .backslash => some .backslash
  | .unknown _ => none

def text : Token → List Char
  | .falseMark => ['#', 'f']
  | .digits run => run
  | .name run => run
  | .lparen => ['(']
  | .rparen => [')']
  | .equals => ['=']
  | .backslash => ['\\']
  | .unknown c => [c]

def names : Token → List String
  | .name run => [String.ofList run]
  | _ => []

def single (c : Char) : Token :=
  if c = '(' then .lparen
  else if c = ')' then .rparen
  else if c = '=' then .equals
  else if c = '\\' then .backslash
  else .unknown c

/-- The first token of the text `c :: rest`, where `c` is no blank, and the text after it. -/
def first (c : Char) (rest : List Char) : Token × List Char :=
  if Text.isAsciiDigit c then
    (.digits (c :: rest.takeWhile Text.isAsciiDigit), rest.dropWhile Text.isAsciiDigit)
  else if Text.isAlphabetic c then
    (.name (c :: rest.takeWhile Text.isAlphabetic), rest.dropWhile Text.isAlphabetic)
  else if c = '#' then
    match rest with
    | 'f' :: after => (.falseMark, after)
    | _ => (.unknown c, rest)
  else (single c, rest)

/-- The first token takes at least one character. -/
theorem length_first_le (c : Char) (rest : List Char) :
    (first c rest).2.length ≤ rest.length := by
  unfold first
  split
  · exact (List.dropWhile_sublist _).length_le
  split
  · exact (List.dropWhile_sublist _).length_le
  split
  · split <;> simp
  · exact Nat.le_refl _

end Token

structure Lexeme where
  start : Nat
  token : Token
  deriving DecidableEq, Repr

def Lexeme.scan (pos : Nat) (text : List Char) : List Lexeme :=
  match text with
  | [] => []
  | c :: rest =>
      if Text.isBlank c then Lexeme.scan (pos + 1) rest
      else
        let token := (Token.first c rest).1
        ⟨pos, token⟩ :: Lexeme.scan (pos + token.text.length) (Token.first c rest).2
termination_by text.length
decreasing_by
  · simp
  · have := Token.length_first_le c rest
    simp only [List.length_cons]
    omega

end SproutLang
