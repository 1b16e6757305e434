/-!
Sites in a text: a position counted in characters from the start, with its line and column. Only
the line feed ends a line. A position may lie past the end of the text; it then counts as a
continuation of the last line.
-/

namespace SproutLang.Text

/-- A position in a text with its line and column, both counted from one. -/
@[ext] structure Site where
  pos : Nat
  line : Nat
  col : Nat
  deriving DecidableEq, Repr

def lastLineLength (text : List Char) : Nat :=
  (text.reverse.takeWhile (fun c => c ≠ '\n')).length

def Site.of (source : List Char) (pos : Nat) : Site :=
  let before := source.take pos
  { pos := pos
    line := before.count '\n' + 1
    col := (pos - before.length) + lastLineLength before + 1 }

end SproutLang.Text
