import SproutLang.Text.Basic
import SproutLang.Text.Printable

/-!
Quoted text, the form in which messages show characters and strings. Text stands in single quotes,
or in double quotes when it holds a single quote and no double one. The enclosing quote and the
backslash are escaped, and so is every character that would not show as itself.
-/

namespace SproutLang.Text

def singleQuote : Char := Char.ofNat 39

def doubleQuote : Char := Char.ofNat 34

def backslash : Char := Char.ofNat 92

def enclosingQuote (text : List Char) : Char :=
  if text.contains singleQuote && !text.contains doubleQuote then doubleQuote else singleQuote

def quoteChar (mark c : Char) : List Char :=
  if c = mark || c = backslash then [backslash, c]
  else if c = '\n' then [backslash, 'n']
  else if c = '\r' then [backslash, 'r']
  else if c = '\t' then [backslash, 't']
  else if isPrintable c then [c]
  else if c.toNat < 0x100 then backslash :: 'x' :: hexDigits 2 c.toNat
  else if c.toNat < 0x10000 then backslash :: 'u' :: hexDigits 4 c.toNat
  else backslash :: 'U' :: hexDigits 8 c.toNat

def quoted (text : List Char) : List Char :=
  let mark := enclosingQuote text
  mark :: (text.flatMap (quoteChar mark) ++ [mark])

def quotedString (text : String) : String :=
  String.ofList (quoted text.toList)

end SproutLang.Text
