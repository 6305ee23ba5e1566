/-
VideoComputer.CommandLine — the command that runs a cartridge from a file.

Its arguments are the path of the file and, if wanted, a number of frames. The
command inserts the cartridge and runs the console for that many frames, or
without end if no number is given. Further arguments have no effect. The number
of frames is looked at before the file is read, so of two mistakes the one in the
number is reported.

* `Invocation.ofArguments` — what the arguments ask for.
* `Invocation.prepare` — the console with the cartridge in it.
* `Exit.ofResult` — what the user sees of the command's result: nothing but
  the report of a failure.
-/
import VideoComputer.Console

namespace VideoComputer

/-! ## Counts -/

/-- Why a text is not a count. -/
inductive CountError where
  | empty
  | invalidDigit
  | tooLarge
  deriving DecidableEq, Repr

/-- The text of the error. -/
def CountError.message : CountError → String
  | .empty => "cannot parse integer from empty string"
  | .invalidDigit => "invalid digit found in string"
  | .tooLarge => "number too large to fit in target type"

namespace Count

/-- Counts are below this number. -/
def bound : Nat := UInt64.size

/-- Reads decimal digits, given the value of those before them. The first
character at which something is wrong decides what is reported. -/
def ofDigits (value : Nat) : List Char → Except CountError Nat
  | [] => .ok value
  | c :: rest =>
    if !c.isDigit then .error .invalidDigit
    else
      let value := 10 * value + (c.toNat - '0'.toNat)
      if value < bound then ofDigits value rest else .error .tooLarge

/-- Reads a count: decimal digits, with a plus sign before them or not. -/
def ofText (text : String) : Except CountError Nat :=
  match text.toList with
  | [] => .error .empty
  | ['+'] => .error .invalidDigit
  | '+' :: digits => ofDigits 0 digits
  | digits => ofDigits 0 digits

end Count

/-! ## Errors of the command -/

/-- Why the command fails. -/
inductive CommandError where
  /-- No file was named. -/
  | usage
  /-- The number of frames is not a count. -/
  | badFrameCount (error : CountError)
  /-- The cartridge in the named file could not be inserted. -/
  | badCartridge (rom : String) (failure : Failure)
  /-- The console did not run. -/
  | stopped (stop : Stop)
  deriving DecidableEq, Repr

namespace CommandError

/-- The text of the error. -/
def message : CommandError → String
  | .usage => "usage: vcs-emulator <rom> [frames]"
  | .badFrameCount _ => "frames must be a positive number"
  | .badCartridge rom _ => s!"can't insert cartridge {rom}"
  | .stopped stop => stop.message

/-- The texts of what lies behind the error, the nearest cause first. -/
def causes : CommandError → List String
  | .usage => []
  | .badFrameCount error => [error.message]
  | .badCartridge _ failure => failure.message :: failure.causes
  | .stopped stop => stop.causes

/-- A cause as a paragraph: its first line after the heading, further lines
indented as deep as the heading is wide. -/
def paragraph (heading text : String) : String :=
  let indent := "".pushn ' ' heading.length
  heading ++ ("\n" ++ indent).intercalate (text.splitOn "\n") ++ "\n"

/-- Several causes, numbered from 0. -/
def numbered (causes : List String) : List String :=
  causes.zipIdx.map fun (text, number) => paragraph s!"    {number}: " text

/-- What is printed about causes: nothing if there are none, and numbers only
if there are several. -/
def causeText : List String → String
  | [] => ""
  | [text] => "\nCaused by:\n" ++ paragraph "    " text
  | causes => "\nCaused by:\n" ++ String.join (numbered causes)

/-- What is printed when the command fails. -/
def report (e : CommandError) : String :=
  s!"Error: {e.message}\n" ++ causeText e.causes

end CommandError

/-- What the user sees of a command that has ended. -/
structure Exit where
  status : UInt32
  /-- What is printed to the error stream; nothing else is printed. -/
  report : String
  deriving DecidableEq, Repr

/-- A command that succeeds is silent, one that fails says why. -/
def Exit.ofResult {α : Type} : Except CommandError α → Exit
  | .ok _ => ⟨0, ""⟩
  | .error error => ⟨1, error.report⟩

/-! ## The command -/

/-- What the arguments ask for. -/
structure Invocation where
  /-- The path of the file with the cartridge's image. -/
  rom : String
  /-- The number of frames, or `none` to run without end. -/
  frames : Option Nat
  deriving DecidableEq, Repr

namespace Invocation

/-- Reads the arguments. -/
def ofArguments : List String → Except CommandError Invocation
  | [] => .error .usage
  | [rom] => .ok ⟨rom, none⟩
  | rom :: frames :: _ =>
    match Count.ofText frames with
    | .ok count => .ok ⟨rom, some count⟩
    | .error error => .error (.badFrameCount error)

/-- The console with the cartridge inserted, given what came of reading its
file. -/
def prepare (i : Invocation) (contents : Except FileError (Array UInt8)) :
    Except CommandError Console :=
  match Cartridge.ofFile i.rom contents with
  | .ok cartridge => .ok ((Console.powerOn .standard).insert cartridge)
  | .error failure => .error (.badCartridge i.rom failure)

end Invocation

end VideoComputer
