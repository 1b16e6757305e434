import SproutLang.Text.Alphabetic

/-!
The classes of characters that tokens are told apart by. An `Alphabet` says which characters may
stand between tokens and which may stand in names. The two classes are disjoint, and the characters
of all other tokens are in neither; a space is in the one, and the letters from `a` to `z` are in
the other. Nothing else about them matters to reading. The alphabet of the language has the
White_Space and the Alphabetic property of Unicode.
-/

namespace SproutLang.Text

/-- The characters that tokens other than names are made of: `#`, the parentheses, the digits, `=`
and the backslash. -/
def signRanges : Ranges :=
  [(0x23, 0x23), (0x28, 0x29), (0x30, 0x39), (0x3D, 0x3D), (0x5C, 0x5C)]

def isSign (c : Char) : Bool :=
  signRanges.covers c.toNat

class Alphabet where
  /-- May the character stand between two tokens? -/
  isBlank : Char → Bool
  /-- May the character stand in a name? -/
  isAlphabetic : Char → Bool
  not_isAlphabetic_of_isBlank : ∀ {c}, isBlank c = true → isAlphabetic c = false
  not_isAlphabetic_of_isSign : ∀ {c}, isSign c = true → isAlphabetic c = false
  not_isBlank_of_isSign : ∀ {c}, isSign c = true → isBlank c = false
  isBlank_space : isBlank ' ' = true
  isAlphabetic_of_lower : ∀ {c : Char}, 97 ≤ c.toNat → c.toNat ≤ 122 → isAlphabetic c = true

export Alphabet (isBlank isAlphabetic not_isAlphabetic_of_isBlank not_isAlphabetic_of_isSign
  not_isBlank_of_isSign isBlank_space isAlphabetic_of_lower)

def blankRanges : Ranges :=
  [(0x9, 0xD), (0x20, 0x20), (0x85, 0x85), (0xA0, 0xA0), (0x1680, 0x1680), (0x2000, 0x200A),
   (0x2028, 0x2029), (0x202F, 0x202F), (0x205F, 0x205F), (0x3000, 0x3000)]

instance unicode : Alphabet where
  isBlank c := blankRanges.covers c.toNat
  isAlphabetic c := alphabeticRanges.covers c.toNat
  not_isAlphabetic_of_isBlank := Ranges.not_covers_of_disjoint (by decide +kernel)
  not_isAlphabetic_of_isSign := Ranges.not_covers_of_disjoint (by decide +kernel)
  not_isBlank_of_isSign := Ranges.not_covers_of_disjoint (by decide +kernel)
  isBlank_space := by decide
  isAlphabetic_of_lower := by
    intro c hlow hhigh
    have hcovers : ∀ n ∈ List.range' 97 26, alphabeticRanges.covers n = true := by decide +kernel
    exact hcovers c.toNat (by rw [List.mem_range'_1]; omega)

/-- Is `c` dropped from the ends of a setting? The information separators U+001C to U+001F are, too,
though they may not stand between tokens. -/
def isMargin (c : Char) : Bool :=
  blankRanges.covers c.toNat || (0x1C ≤ c.toNat && c.toNat ≤ 0x1F)

def trimMargins (text : List Char) : List Char :=
  ((text.dropWhile isMargin).reverse.dropWhile isMargin).reverse

end SproutLang.Text
