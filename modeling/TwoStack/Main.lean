import TwoStack.Command

/-! The command line program. -/

namespace TwoStack

/-- The cause of a failure to read. The system's code may come with its sign turned. -/
def ReadFailure.ofError : IO.Error → ReadFailure
  | .noFileOrDirectory _ _ _ => .notFound
  | .inappropriateType _ code _ =>
    if min code (0 - code) = 21 then .isADirectory else .notADirectory
  | e@(.invalidArgument _ code _) =>
    if min code (0 - code) = 36 then .nameTooLong else .other (toString e)
  | e => .other (toString e)

def readFile (path : String) : IO (Except ReadFailure ByteArray) := do
  try
    return .ok (← IO.FS.readBinFile path)
  catch e =>
    return .error (.ofError e)

/-- Seconds with four places. -/
def secondsText (nanos : Nat) : String :=
  let q := Decimal.roundDiv nanos 100000
  Text.decimal (q / 10000) ++ "." ++
    String.ofList ((Nat.toDigits 10 (q % 10000)).leftpad 4 '0') ++ " s"

end TwoStack

open TwoStack in
def main (args : List String) : IO UInt32 := do
  let some request := CommandLine.parse args
    | do
      IO.eprintln "usage: stacksim [-v] run [OPTIONS] FILE\n       stacksim [-v] disasm FILE"
      return 2
  let files ← request.paths.mapM fun path => return (path, ← readFile path)
  let start ← IO.monoNanosNow
  let response := request.answer fun path => (files.lookup path).getD (.error .notFound)
  for entry in Log.shown request.verbosity response.log do
    IO.eprintln entry.render
  IO.eprint response.errors
  let elapsed := (← IO.monoNanosNow) - start
  IO.print (response.output (secondsText elapsed))
  return response.exitCode.toUInt32
