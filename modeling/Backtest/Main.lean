/-
The program: it reads its words as a command, carries it out on the files of the system, and
prints the answer.
-/
import Backtest.CommandLine.Answer

namespace Backtest

/-- The cause of a failed access. -/
def FileError.ofSystem : IO.Error → FileError
  | .noFileOrDirectory _ _ _ => .notFound
  | .permissionDenied _ _ _ => .denied
  | .inappropriateType _ code _ => if code = 20 then .notFolder else .isFolder
  | e => .other (toString e)

/-- Access to the files of the system. -/
def systemFiles : FileAccess IO where
  read path := do
    match ← (IO.FS.readBinFile path).toBaseIO with
    | .error e => return .error (.ofSystem e)
    | .ok bytes =>
      match String.fromUTF8? bytes with
      | some text => return .ok text
      | none => return .error .notText
  write path content := do
    match ← (IO.FS.writeFile path content).toBaseIO with
    | .error e => return .error (.ofSystem e)
    | .ok () => return .ok ()

def usage : String :=
  "usage: stratsim backtest --config FILE [--strategy FILE] [--symbol SYMBOL] [--output FILE]\n" ++
  "       stratsim validate --strategy FILE\n" ++
  "       stratsim info --config FILE [--symbol SYMBOL]\n"

/-- The exit code after an arithmetic fault. -/
def faultCode : UInt32 := 101

end Backtest

open Backtest in
def main (words : List String) : IO UInt32 := do
  match Command.ofWords words with
  | .error .help =>
    IO.print usage
    return 0
  | .error e =>
    IO.eprint usage
    return e.exitCode.toUInt32
  | .ok command =>
    match ← command.perform systemFiles with
    | .error fault =>
      IO.eprintln fault.message
      return faultCode
    | .ok answer =>
      IO.print answer.output
      IO.eprint answer.errors
      return answer.exitCode.toUInt32
