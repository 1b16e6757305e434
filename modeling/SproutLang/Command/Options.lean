import SproutLang.Text.Decimal
import SproutLang.Text.Basic
import SproutLang.Text.Quoted

/-!
The options of the command line. There are three flags, two of which have a short form too; a long
form may be shortened as long as one flag remains, and short forms may be written together. The one
argument beside the flags is the path. After `--` everything is an argument. A word that looks like
an option without being one is left over, as is every argument after the path.
-/

namespace SproutLang.Command

inductive Flag
  | help
  | ast
  | noNatives
  deriving DecidableEq, Repr

def Flag.name : Flag → String
  | .help => "-h/--help"
  | .ast => "-a/--ast"
  | .noNatives => "--no-natives"

def shortForms : List (Char × Flag) :=
  [('h', .help), ('a', .ast)]

def longForms : List (String × Flag) :=
  [("--help", .help), ("--ast", .ast), ("--no-natives", .noNatives)]

inductive UsageFault
  /-- there is no path -/
  | missingPath
  /-- arguments are left over -/
  | unrecognized (args : List String)
  /-- a flag is given an argument, which it does not take -/
  | ignoredArgument (flag : Flag) (arg : List Char)
  /-- an option stands for more than one flag -/
  | ambiguous (option : String) (candidates : List String)

def UsageFault.message : UsageFault → String
  | .missingPath => "the following arguments are required: path"
  | .unrecognized args => "unrecognized arguments: " ++ Text.joinWith " " args
  | .ignoredArgument flag arg =>
      "argument " ++ flag.name ++ ": ignored explicit argument " ++ String.ofList (Text.quoted arg)
  | .ambiguous option candidates =>
      "ambiguous option: " ++ option ++ " could match " ++ Text.joinWith ", " candidates

inductive Word
  /-- an argument -/
  | plain (text : String)
  /-- the mark after which there are no options -/
  | dashes
  /-- a flag in its long form, and the argument it is given -/
  | long (flag : Flag) (arg : Option (List Char))
  /-- a flag in its short form, and the characters written together with it -/
  | short (flag : Flag) (more : Option (List Char))
  /-- an option that there is not -/
  | unknown (text : String)

def allDigits (text : List Char) : Bool :=
  text.all fun c => (Text.decimalValue c).isSome

def dropFinalNewline (text : List Char) : List Char :=
  if text.getLast? = some '\n' then text.dropLast else text

/-- Does the text after a dash make it a negative number, with a fraction or without? -/
def looksNumeric (afterDash : List Char) : Bool :=
  let text := dropFinalNewline afterDash
  let whole := text.takeWhile fun c => c ≠ '.'
  allDigits whole &&
    match text.drop whole.length with
    | [] => !whole.isEmpty
    | _ :: fraction => !fraction.isEmpty && allDigits fraction

def splitAtEquals (text : List Char) : List Char × Option (List Char) :=
  let before := text.takeWhile fun c => c ≠ '='
  match text.drop before.length with
  | [] => (before, none)
  | _ :: after => (before, some after)

/-- A word after which nothing tells that it is an option: a negative number or a word with a space
in it is an argument, anything else an option that there is not. -/
def classifyRest (text : String) (afterDash : List Char) : Word :=
  if looksNumeric afterDash || afterDash.contains ' ' then .plain text else .unknown text

def classifyLong (text : String) : Except UsageFault Word :=
  let (start, arg) := splitAtEquals text.toList
  match longForms.lookup (String.ofList start) with
  | some flag => .ok (.long flag arg)
  | none =>
      match longForms.filter (fun form => start.isPrefixOf form.1.toList) with
      | [] => .ok (classifyRest text (text.toList.drop 1))
      | [form] => .ok (.long form.2 arg)
      | forms => .error (.ambiguous text (forms.map Prod.fst))

def classify (text : String) : Except UsageFault Word :=
  match text.toList with
  | '-' :: '-' :: _ => classifyLong text
  | '-' :: c :: more =>
      match shortForms.lookup c with
      | none => .ok (classifyRest text (c :: more))
      | some flag =>
          match more with
          | [] => .ok (.short flag none)
          | '=' :: arg => .ok (.short flag (some arg))
          | _ => .ok (.short flag (some more))
  | _ => .ok (.plain text)

def classifyAll : List String → Except UsageFault (List Word)
  | [] => .ok []
  | text :: rest =>
      if text = "--" then .ok (.dashes :: rest.map .plain)
      else
        match classify text with
        | .error fault => .error fault
        | .ok word => (classifyAll rest).map (word :: ·)

/-- The flags that are written together, from `flag` on. -/
def cluster (flag : Flag) : List Char → Except UsageFault (List Flag)
  | [] => .ok [flag]
  | c :: more =>
      match shortForms.lookup c with
      | none => .error (.ignoredArgument flag (c :: more))
      | some next => (cluster next more).map (flag :: ·)

def flagsOf : Word → Except UsageFault (List Flag)
  | .long flag none => .ok [flag]
  | .long flag (some arg) => .error (.ignoredArgument flag arg)
  | .short flag none => .ok [flag]
  | .short flag (some []) => .error (.ignoredArgument flag [])
  | .short flag (some more) => cluster flag more
  | _ => .ok []

structure Gathered where
  path : Option String
  ast : Bool
  noNatives : Bool
  extras : List String

structure Options where
  path : String
  ast : Bool
  noNatives : Bool
  deriving DecidableEq, Repr

inductive Wish
  | help
  | run (options : Options)

/-- Sets flags in order; `none` if one of them asks for help. -/
def Gathered.setFlags (g : Gathered) : List Flag → Option Gathered
  | [] => some g
  | .help :: _ => none
  | .ast :: flags => Gathered.setFlags { g with ast := true } flags
  | .noNatives :: flags => Gathered.setFlags { g with noNatives := true } flags

def Gathered.takePlain (g : Gathered) (text : String) : Gathered :=
  match g.path with
  | none => { g with path := some text }
  | some _ => { g with extras := g.extras ++ [text] }

def Gathered.finish (g : Gathered) : Except UsageFault Wish :=
  match g.path, g.extras with
  | none, _ => .error .missingPath
  | some path, [] => .ok (.run ⟨path, g.ast, g.noNatives⟩)
  | some _, extras => .error (.unrecognized extras)

/-- Reads the words in order. The mark `--` is dropped next to the path, before or after it;
elsewhere it is left over. -/
def gather : List Word → Gathered → Except UsageFault Wish
  | [], g => g.finish
  | .plain text :: .dashes :: rest, g =>
      match g.path with
      | none => gather rest (g.takePlain text)
      | some _ => gather rest ((g.takePlain text).takePlain "--")
  | .plain text :: rest, g => gather rest (g.takePlain text)
  | .dashes :: rest, g =>
      match g.path with
      | none => gather rest g
      | some _ => gather rest (g.takePlain "--")
  | .unknown text :: rest, g => gather rest { g with extras := g.extras ++ [text] }
  | word :: rest, g =>
      match flagsOf word with
      | .error fault => .error fault
      | .ok flags =>
          match g.setFlags flags with
          | none => .ok .help
          | some g => gather rest g

def parse (args : List String) : Except UsageFault Wish :=
  match classifyAll args with
  | .error fault => .error fault
  | .ok words => gather words ⟨none, false, false, []⟩

def usage : String :=
  "usage: sprout [-h] [-a] [--no-natives] path\n"

def helpText : String :=
  usage ++
  "\nEvaluate Sprout source code\n" ++
  "\npositional arguments:\n" ++
  "  path          path to the code to evaluate, or - for stdin\n" ++
  "\noptions:\n" ++
  "  -h, --help    show this help message and exit\n" ++
  "  -a, --ast     print the parsed program before running it\n" ++
  "  --no-natives  start from an empty environment\n"

end SproutLang.Command
