/-
VideoComputer.Failure — everything that can go wrong, as causes, and the words
for each of them.

A failure may have a cause, and that one a cause again; `Failure.causes` lists
them from the outside in. No text is built anywhere else.
-/

namespace VideoComputer

/-- Why a file could not be read, as the operating system tells it. -/
inductive FileError where
  | notFound
  | permissionDenied
  | notADirectory
  | isADirectory
  | nameTooLong
  | other (code : Nat) (description : String)
  deriving DecidableEq, Repr

namespace FileError

/-- The number the operating system has for the error. -/
def code : FileError → Nat
  | .notFound => 2
  | .permissionDenied => 13
  | .notADirectory => 20
  | .isADirectory => 21
  | .nameTooLong => 36
  | .other code _ => code

/-- The operating system's words for the error. -/
def description : FileError → String
  | .notFound => "No such file or directory"
  | .permissionDenied => "Permission denied"
  | .notADirectory => "Not a directory"
  | .isADirectory => "Is a directory"
  | .nameTooLong => "File name too long"
  | .other _ description => description

/-- The error with a number, described in the given words if it is none of
those that have a name here. -/
def ofCode (code : Nat) (description : String) : FileError :=
  match code with
  | 2 => .notFound
  | 13 => .permissionDenied
  | 20 => .notADirectory
  | 21 => .isADirectory
  | 36 => .nameTooLong
  | _ => .other code description

/-- The text of the error. -/
def message (e : FileError) : String :=
  s!"{e.description} (os error {e.code})"

end FileError

/-- What is wrong with a cartridge image. -/
inductive CartridgeError where
  /-- The file with the image could not be read. -/
  | unreadable (path : String) (reason : FileError)
  /-- The image has no bytes. -/
  | empty
  /-- The image has neither of the two sizes that fit the window. -/
  | unsupportedSize (size : Nat)
  deriving DecidableEq, Repr

namespace CartridgeError

/-- The text of the error. -/
def message : CartridgeError → String
  | .unreadable path _ => s!"can't read ROM image '{path}'"
  | .empty => "ROM image is empty"
  | .unsupportedSize size =>
    s!"unsupported ROM size of {size} bytes, only 2 kB and 4 kB images are supported"

/-- The texts of what lies behind the error. -/
def causes : CartridgeError → List String
  | .unreadable _ reason => [reason.message]
  | .empty | .unsupportedSize _ => []

end CartridgeError

/-- Why the console refuses. -/
inductive Failure where
  /-- A frame was asked for with no cartridge inserted. -/
  | noCartridge
  /-- A processor was to be built without anything to read from. -/
  | missingMemory
  /-- The cartridge of the given name is not usable. -/
  | badCartridge (name : String) (error : CartridgeError)
  deriving DecidableEq, Repr

namespace Failure

/-- The text of the failure. -/
def message : Failure → String
  | .noCartridge => "VCS can't run without a cartridge!"
  | .missingMemory => "processor can't be built without a memory interface"
  | .badCartridge name (.unreadable ..) => s!"Cartridge error: can't load cartridge {name}"
  | .badCartridge name _ => s!"Cartridge error: invalid ROM image for {name}"

/-- The texts of what lies behind the failure, the nearest cause first. -/
def causes : Failure → List String
  | .noCartridge | .missingMemory => []
  | .badCartridge _ error => error.message :: error.causes

end Failure

/-- What stops the console before it is done. -/
inductive Stop where
  /-- It refuses. -/
  | refused (reason : Failure)
  /-- A counter has no room for what is to be added to it. -/
  | overflow
  deriving DecidableEq, Repr

namespace Stop

/-- The text of what stopped the console. -/
def message : Stop → String
  | .refused reason => reason.message
  | .overflow => "attempt to add with overflow"

/-- The texts of what lies behind it, the nearest cause first. -/
def causes : Stop → List String
  | .refused reason => reason.causes
  | .overflow => []

end Stop

end VideoComputer
