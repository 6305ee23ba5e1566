/-
VideoComputer.Main — the command line program.

Reads the file, runs frames at the pace of a television, prints the report of
a failure. Everything that is decided is decided in
`VideoComputer.CommandLine`.
-/
import VideoComputer.CommandLine

namespace VideoComputer.Program

/-- The length of a frame, in nanoseconds. -/
def frameNanoseconds : Nat := 1000000000 / 60

/-- The operating system's error behind a failed read. -/
def fileError : IO.Error → FileError
  | .alreadyExists _ code details | .otherError code details | .resourceBusy code details
  | .resourceVanished code details | .unsupportedOperation code details
  | .hardwareFault code details | .unsatisfiedConstraints code details
  | .illegalOperation code details | .protocolError code details | .timeExpired code details
  | .interrupted _ code details | .noFileOrDirectory _ code details
  | .invalidArgument _ code details | .permissionDenied _ code details
  | .resourceExhausted _ code details | .inappropriateType _ code details
  | .noSuchThing _ code details => .ofCode code.toNat details
  | .unexpectedEof => .other 0 "unexpected end of file"
  | .userError details => .other 0 details

/-- Reads a file. -/
def readImage (path : String) : IO (Except FileError (Array UInt8)) := do
  try
    let contents ← IO.FS.readBinFile path
    return .ok contents.data
  catch error =>
    return .error (fileError error)

/-- Waits until a frame that began at the given time has had its length. -/
def waitForFrame (began : Nat) : IO Unit := do
  let elapsed := (← IO.monoNanosNow) - began
  IO.sleep ((frameNanoseconds - elapsed) / 1000000).toUInt32

/-- Runs frames until there are no more to run, or one is stopped. -/
partial def runFrames (frames : Option Nat) (console : Console) :
    IO (Except CommandError Unit) := do
  if frames = some 0 then
    return .ok ()
  let began ← IO.monoNanosNow
  let outcome := console.runFrame
  match outcome.stop with
  | some stop => return .error (.stopped stop)
  | none =>
    if Settings.standard.frameThrottle then
      waitForFrame began
    runFrames (frames.map (· - 1)) outcome.console

/-- Does what the arguments ask for. -/
def execute (arguments : List String) : IO (Except CommandError Unit) := do
  match Invocation.ofArguments arguments with
  | .error error => return .error error
  | .ok invocation =>
    match invocation.prepare (← readImage invocation.rom) with
    | .error error => return .error error
    | .ok console => runFrames invocation.frames console

end VideoComputer.Program

open VideoComputer in
/-- The program: prints the report of a failure and tells it by the exit
status. -/
def main (arguments : List String) : IO UInt32 := do
  let exit := Exit.ofResult (← Program.execute arguments)
  IO.eprint exit.report
  return exit.status
