import SproutLang.Command.Options
import SproutLang.Session
import SproutLang.Settings
import SproutLang.Text.Basic
import SproutLang.Text.Utf8

/-!
The command line program as a function. `plan` looks at the arguments and the settings and says
what is to be read; `execute` takes what was read and says what to print and how to end. Results go
to the standard output; notices and messages go to the standard error.
-/

namespace SproutLang.Command

inductive Ending
  /-- it returns a status to its caller -/
  | exit (status : Nat)
  /-- a setting is not usable -/
  | setting (fault : SettingFault)
  /-- the bound on nested calls is too low to start at all -/
  | limitTooLow
  /-- the bound on nested calls is above what can be set -/
  | limitTooHigh
  /-- the path holds the null character, which no path can -/
  | nullInPath
  /-- the text to evaluate is not UTF-8 -/
  | undecodable (fault : Text.Utf8.Fault)
  /-- the text to evaluate has a number of too many digits -/
  | tooManyDigits (count : Nat)

structure Report where
  stdout : String
  stderr : String
  ending : Ending

inductive Origin
  | stdin
  | file (path : String)
  deriving DecidableEq, Repr

structure Plan where
  options : Options
  level : Nat
  limits : Limits
  spellings : Spellings := .empty Spellings.defaultCapacity
  deriving DecidableEq, Repr

/-- A path that is a single dash stands for the standard input. -/
def Plan.origin (p : Plan) : Origin :=
  if p.options.path = "-" then .stdin else .file p.options.path

/-- How many calls deep the program is where the bound on nested calls is set; a bound that does not
exceed it cannot be set. The count is an estimate, so a bound close to it may be too low in fact and
not here, or the other way round; no result rests on its value. -/
def ownCalls : Nat := 4

/-- How many calls more it takes to begin a session; most of them bind the natives. An estimate as
well. -/
def startCalls (natives : Bool) : Nat :=
  if natives then 7 else 3

/-- Is the bound on nested calls high enough to begin a session? -/
def Plan.CanStart (p : Plan) : Prop :=
  ownCalls + startCalls (!p.options.noNatives) < p.limits.depth

instance (p : Plan) : Decidable p.CanStart :=
  inferInstanceAs (Decidable (_ < _))

def maxCalls : Nat := 0x7FFFFFFF

def limitsFor : Option Nat → Except Ending Limits
  | none => .ok .standard
  | some calls =>
      if calls ≤ ownCalls then .error .limitTooLow
      else if maxCalls < calls then .error .limitTooHigh
      else .ok (.ofCalls calls)

def planFor (options : Options) (vars : Variables) : Except Ending Plan :=
  match Settings.logLevel vars with
  | .error fault => .error (.setting fault)
  | .ok level =>
      match Settings.callLimit vars with
      | .error fault => .error (.setting fault)
      | .ok calls => (limitsFor calls).map fun limits => { options, level, limits }

def plan (args : List String) (vars : Variables) : Except Report Plan :=
  match parse args with
  | .error fault =>
      .error ⟨"", usage ++ "sprout: error: " ++ fault.message ++ "\n", .exit 2⟩
  | .ok .help => .error ⟨helpText, "", .exit 0⟩
  | .ok (.run options) =>
      match planFor options vars with
      | .error ending => .error ⟨"", "", ending⟩
      | .ok p => .ok p

inductive Unreadable
  | missing
  | directory
  | notDirectory
  | denied
  | nameTooLong
  | nullInPath
  | other (wording : String)

def Unreadable.wording : Unreadable → String
  | .missing => "No such file or directory"
  | .directory => "Is a directory"
  | .notDirectory => "Not a directory"
  | .denied => "Permission denied"
  | .nameTooLong => "File name too long"
  | .nullInPath => "embedded null byte"
  | .other wording => wording

def unlines (lines : List String) : String :=
  String.join (lines.map fun line => line ++ "\n")

def logLines (level : Nat) (log : List Notice) : List String :=
  log.filterMap fun
    | .warning w => if level ≤ Settings.warningLevel then some w.line else none
    | .note _ => none

def stackExhausted : String :=
  "runtime error: stack exhausted (maximum recursion depth exceeded)"

def Plan.session (p : Plan) : Session Unit :=
  .begin p.spellings () (!p.options.noNatives)

def reportFault : ReadFault → Report
  | .tooManyDigits count => ⟨"", "", .tooManyDigits count⟩
  | .tooDeep => ⟨"", unlines [stackExhausted], .exit 1⟩
  | fault => ⟨"", unlines ["syntax error: " ++ fault.message], .exit 1⟩

/-- Evaluates a text: prints its expressions if that is asked for, and then the value of each. -/
def evaluateText (p : Plan) (text : List Char) : Report :=
  let reply := Source.all p.limits.room text
  let spellings := p.session.spellings.recordAll reply.names
  let spell := spellings.spell
  match reply.outcome with
  | .error fault => reportFault fault
  | .ok exprs =>
      let shown := if p.options.ast then exprs.map (Expr.render spell) ++ [""] else []
      let series := evaluateAll Host.bare p.limits.depth exprs p.session.scope ()
      let stdout := unlines (shown ++ series.values.map (Value.render spell))
      let log := logLines p.level series.log
      match series.ending with
      | .value _ => ⟨stdout, unlines log, .exit 0⟩
      | .failed f =>
          ⟨stdout, unlines (log ++ ["runtime error: " ++ f.message spell]), .exit 1⟩
      | .exhausted => ⟨stdout, unlines (log ++ [stackExhausted]), .exit 1⟩

/-- Does what is planned with the bytes that were read. A session begins only after them. -/
def execute (p : Plan) (input : Except Unreadable (List UInt8)) : Report :=
  match input with
  | .error .nullInPath => ⟨"", "", .nullInPath⟩
  | .error why =>
      ⟨"", unlines ["cannot read " ++ p.options.path ++ ": " ++ why.wording], .exit 1⟩
  | .ok bytes =>
      match Text.Utf8.decode bytes with
      | .error fault => ⟨"", "", .undecodable fault⟩
      | .ok text =>
          if p.CanStart then evaluateText p (Text.unifyNewlines text)
          else ⟨"", "", .limitTooLow⟩

end SproutLang.Command
