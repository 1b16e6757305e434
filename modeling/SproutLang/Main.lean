import SproutLang.Command

/-!
The command line program: reads what the plan asks for and prints what the report says. An ending
that is no status is told on the standard error, with status 1.
-/

namespace SproutLang.Command

/-- Reads a stream to its end. -/
partial def readToEnd (stream : IO.FS.Stream) (read : ByteArray) : IO ByteArray := do
  let more ← stream.read 65536
  if more.isEmpty then return read else readToEnd stream (read ++ more)

/-- The code by which the system says that a path is a directory. -/
def directoryCode : UInt32 := 21

def unreadable : IO.Error → Unreadable
  | .noFileOrDirectory _ _ _ => .missing
  | .inappropriateType _ code _ => if code = directoryCode then .directory else .notDirectory
  | .permissionDenied _ _ _ => .denied
  | error => .other (toString error)

def readOrigin : Origin → IO (Except Unreadable (List UInt8))
  | .stdin => do
      let bytes ← readToEnd (← IO.getStdin) ByteArray.empty
      return .ok bytes.data.toList
  | .file path => do
      try
        let bytes ← IO.FS.readBinFile path
        return .ok bytes.data.toList
      catch error => return .error (unreadable error)

def endingOf : Ending → Option String × UInt32
  | .exit status => (none, status.toUInt32)
  | .setting fault => (some fault.message, 1)
  | .limitTooLow => (some "the recursion limit is too low", 1)
  | .limitTooHigh => (some "the recursion limit is too high", 1)
  | .nullInPath => (some Unreadable.nullInPath.wording, 1)
  | .undecodable fault => (some fault.message, 1)
  | .tooManyDigits count => (some (ReadFault.tooManyDigitsText count), 1)

def printReport (report : Report) : IO UInt32 := do
  IO.print report.stdout
  IO.eprint report.stderr
  let (message, status) := endingOf report.ending
  if let some text := message then IO.eprintln text
  return status

end SproutLang.Command

open SproutLang in
def main (args : List String) : IO UInt32 := do
  let level ← IO.getEnv "SPROUT_LOG_LEVEL"
  let calls ← IO.getEnv "SPROUT_RECURSION_LIMIT"
  let vars : Variables := fun name =>
    if name = "SPROUT_LOG_LEVEL" then level
    else if name = "SPROUT_RECURSION_LIMIT" then calls
    else none
  match Command.plan args vars with
  | .error report => Command.printReport report
  | .ok plan => Command.printReport (Command.execute plan (← Command.readOrigin plan.origin))
