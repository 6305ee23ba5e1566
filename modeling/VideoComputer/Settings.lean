/-
VideoComputer.Settings — what a user can choose about the console.
-/

namespace VideoComputer

/-- The user's choices. -/
structure Settings where
  /-- Whether the processor honors the decimal flag when it adds and
  subtracts. -/
  decimalMode : Bool
  /-- Whether the console waits between frames, to keep the speed of a
  television. -/
  frameThrottle : Bool
  /-- Time between two reports on the console's speed, in milliseconds. -/
  metricsInterval : Nat
  deriving DecidableEq, Repr

/-- What a user gets who chooses nothing: a complete processor, the pace of a
television, a report every second. -/
def Settings.standard : Settings where
  decimalMode := true
  frameThrottle := true
  metricsInterval := 1000

end VideoComputer
