import SproutLang.Reading.Fault
import SproutLang.Text.Alphabet
import SproutLang.Text.Integer
import SproutLang.Text.Uppercase

/-!
Settings from environment variables: the level from which on notices are logged, and the bound on
nested calls. Blanks around the text of a variable do not count, and a variable that holds nothing
else is as good as unset.
-/

namespace SproutLang

abbrev Variables := String → Option String

inductive SettingFault
  /-- there is no log level of that name -/
  | unknownLevel (name : List Char)
  /-- the bound on nested calls is no number -/
  | malformedNumber (text : List Char)
  /-- the bound on nested calls has more digits than can be converted -/
  | tooManyDigits (count : Nat)
  /-- the bound on nested calls is zero or less -/
  | notPositive (n : Int)

namespace SettingFault

/-- The number of characters of a malformed number that its message shows, quotes included. -/
def shownLength : Nat := 200

def message : SettingFault → String
  | .unknownLevel name =>
      "SPROUT_LOG_LEVEL: unknown level " ++ String.ofList (Text.quoted name)
  | .malformedNumber text =>
      "invalid literal for int() with base 10: " ++
        String.ofList ((Text.quoted text).take shownLength)
  | .tooManyDigits count => ReadFault.tooManyDigitsText count
  | .notPositive n => "SPROUT_RECURSION_LIMIT must be positive, got " ++ toString n

end SettingFault

namespace Settings

/-- The text of a variable without the blanks around it, and `fallback` if nothing is left. -/
def text? (vars : Variables) (name : String) (fallback : Option String) : Option String :=
  match vars name with
  | none => fallback
  | some raw =>
      match Text.trimMargins raw.toList with
      | [] => fallback
      | trimmed => some (String.ofList trimmed)

def levels : List (String × Nat) :=
  [("CRITICAL", 50), ("FATAL", 50), ("ERROR", 40), ("WARNING", 30), ("WARN", 30), ("INFO", 20),
   ("DEBUG", 10), ("NOTSET", 0)]

def warningLevel : Nat := 30

/-- The level from which on notices are logged; its name may be written in either case. -/
def logLevel (vars : Variables) : Except SettingFault Nat :=
  let name := Text.upper ((text? vars "SPROUT_LOG_LEVEL" none).getD "WARNING").toList
  match levels.lookup (String.ofList name) with
  | some level => .ok level
  | none => .error (.unknownLevel name)

def callLimit (vars : Variables) : Except SettingFault (Option Nat) :=
  match text? vars "SPROUT_RECURSION_LIMIT" none with
  | none => .ok none
  | some raw =>
      match Text.integer Reading.maxDigits raw.toList with
      | .error .malformed => .error (.malformedNumber raw.toList)
      | .error (.tooManyDigits count) => .error (.tooManyDigits count)
      | .ok n => if n ≤ 0 then .error (.notPositive n) else .ok (some n.toNat)

end Settings

end SproutLang
