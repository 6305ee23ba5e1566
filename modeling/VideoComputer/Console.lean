/-
VideoComputer.Console — the whole machine: processor, chips, cartridge and
controls, run an instruction or a frame at a time.

The video clock runs three times as fast as the processor. Each instruction is
executed first; then the video chip draws three dots for each of its cycles,
and the dots of a stall if the program waits for the end of the line; then
the timer counts the cycles of both.

A frame is 59659 dots of time, a sixtieth of a second. It ends with the
instruction that reaches that number, and what that instruction ran over is
taken from the next frame. Input events are kept until a frame begins.

Dots are counted in 32 bits, and a count that has no room for the dots of an
instruction stops the console. It can go on then, with everything done that the
instruction does, except that its dots are not counted.

* `Console.step` — one instruction.
* `Console.runFrame` — one frame.
* `Console.run` — several frames.
-/
import VideoComputer.Bus
import VideoComputer.Cpu.Machine
import VideoComputer.Settings

namespace VideoComputer

/-- The console. -/
structure Console where
  machine : Machine Bus
  controls : Controls
  /-- Events that no frame has taken up yet, oldest first. -/
  inbox : List InputEvent
  /-- Dots that have passed in the current frame. -/
  frameDots : UInt32
  /-- The last complete picture of a frame that was run, if nobody has taken
  it yet. -/
  picture : Option Frame

namespace Console

/-- Dots in a frame: 3579545 a second, 60 frames a second. -/
def dotsPerFrame : UInt32 := 59659

/-- Dots in a processor cycle. -/
def dotsPerCycle : Nat := 3

/-- The console at power-on, without a cartridge. -/
def powerOn (settings : Settings) : Console where
  machine := .powerOn settings.decimalMode .powerOn
  controls := .released
  inbox := []
  frameDots := 0
  picture := none

/-! ## Cartridge, reset and input -/

/-- Whether a cartridge is in the slot. -/
def hasCartridge (c : Console) : Bool := c.machine.memory.cartridge.isSome

/-- Resets every chip and begins a new frame. The RAM keeps its bytes, and
controls that are held stay held. -/
def reset : Console → Console
  | ⟨⟨cpu, bus⟩, controls, inbox, _, _⟩ =>
    { machine := Machine.reset ⟨cpu, bus.reset⟩
      controls, inbox, frameDots := 0, picture := none }

/-- Puts a cartridge into the slot and resets the console (`load_cartridge`). -/
def insert (cartridge : Cartridge) : Console → Console
  | ⟨⟨cpu, bus⟩, controls, inbox, frameDots, picture⟩ =>
    reset ⟨⟨cpu, bus.insert cartridge⟩, controls, inbox, frameDots, picture⟩

/-- A reset leaves the cartridge in the slot. -/
@[simp] theorem cartridge_reset (c : Console) :
    c.reset.machine.memory.cartridge = c.machine.memory.cartridge := by
  obtain ⟨⟨cpu, tia, riot, cartridge⟩, controls, inbox, frameDots, picture⟩ := c
  simp only [reset, Machine.reset, Execution.readVector, Execution.readWord, Execution.read,
    Execution.start, Execution.goto]
  exact (Bus.cartridge_afterRead _ _).trans (Bus.cartridge_afterRead _ _)

@[simp] theorem cartridge_insert (c : Console) (cartridge : Cartridge) :
    (c.insert cartridge).machine.memory.cartridge = some cartridge := by
  obtain ⟨⟨cpu, tia, riot, slot⟩, controls, inbox, frameDots, picture⟩ := c
  exact cartridge_reset _

/-- Reported when the console is reset. -/
def resetNotices : Array Notice := #[.consoleReset]

/-- Reported when a cartridge is put into the slot. -/
def insertNotices (cartridge : Cartridge) : Array Notice :=
  #[.cartridgeInserted cartridge.title] ++ resetNotices

/-- Sends an event, to take effect when the next frame begins
(`input_sender`). -/
def send (c : Console) (event : InputEvent) : Console :=
  { c with inbox := c.inbox ++ [event] }

/-- Hands out the last complete picture, at most once (`take_frame`). -/
def takePicture (c : Console) : Option Frame × Console :=
  (c.picture, { c with picture := none })

/-! ## Instructions -/

/-- What a stretch of running leaves, how many processor cycles it took,
stalls included, and what was reported. -/
structure Outcome where
  console : Console
  cycles : Nat
  notices : Array Notice
  /-- What stopped the console, or `none` if it did all that it was asked for. -/
  stop : Option Stop

/-- The count of a frame's dots with some more, if it has room for them. -/
def addDots? (count : UInt32) (dots : Nat) : Option UInt32 :=
  if count.toNat + dots < UInt32.size then some (count + .ofNat dots) else none

/-- Executes one instruction and lets the other chips catch up (`step`). The dots are
counted last, and if that fails the count stays as it was. -/
def step : Console → Outcome
  | ⟨machine, controls, inbox, frameDots, picture⟩ =>
    let ⟨⟨cpu, tia, riot, cartridge⟩, cycles, notices⟩ := machine.step
    let dots := dotsPerCycle * cycles
    let ⟨tia, stall, frames⟩ := tia.tick dots
    let total := cycles + stall / dotsPerCycle
    let bus := ⟨tia, riot.clock total, cartridge⟩
    let counted := addDots? frameDots (dots + stall)
    { console :=
        { machine := ⟨cpu, bus⟩, controls, inbox
          frameDots := counted.getD frameDots, picture }
      cycles := total
      notices := notices ++ Array.replicate frames .framePublished
      stop := if counted.isNone then some .overflow else none }

/-! ## Frames -/

/-- Applies the events that have been sent, and shows the result to the chips if
there were any (`poll_input`). -/
def takeInput : Console → Console
  | ⟨⟨cpu, tia, riot, cartridge⟩, controls, inbox, frameDots, picture⟩ =>
    if inbox.isEmpty then
      { machine := ⟨cpu, tia, riot, cartridge⟩, controls, inbox, frameDots, picture }
    else
      let controls := inbox.foldl Controls.apply controls
      let riot := (riot.setPins .a controls.portA).setPins .b controls.portB
      let tia := (tia.setFire .one controls.fire.one).setFire .two controls.fire.two
      { machine := ⟨cpu, tia, riot, cartridge⟩, controls, inbox := [], frameDots, picture }

/-- Moves a picture that the video chip has completed to the console. -/
def collectPicture : Console → Console
  | ⟨⟨cpu, tia, riot, cartridge⟩, controls, inbox, frameDots, picture⟩ =>
    let (taken, tia) := tia.takeFrame
    { machine := ⟨cpu, tia, riot, cartridge⟩, controls, inbox, frameDots
      picture := taken.or picture }

/-- Executes instructions until the frame is over, at most `fuel` of them. -/
def runUntilFrameEnd : (fuel : Nat) → Console → (cycles : Nat) → Array Notice → Outcome
  | 0, c, cycles, notices => ⟨c, cycles, notices, none⟩
  | fuel + 1, c, cycles, notices =>
    if c.frameDots < dotsPerFrame then
      let ⟨c, spent, reported, stop⟩ := c.step
      match stop with
      | none => runUntilFrameEnd fuel c.collectPicture (cycles + spent) (notices ++ reported)
      | some stop => ⟨c, cycles + spent, notices ++ reported, some stop⟩
    else ⟨c, cycles, notices, none⟩

/-- As many instructions as fit into a frame: none takes fewer than two
cycles, which are six dots. -/
def maxInstructionsPerFrame : Nat := 9944

/-- Begins the next frame, which has already lost what the last one ran
over. -/
def nextFrame (c : Console) : Console :=
  { c with frameDots := c.frameDots - dotsPerFrame }

/-- Runs one frame (`run_frame`). Without a cartridge it refuses, before it looks
for events. -/
def runFrame (c : Console) : Outcome :=
  if c.hasCartridge then
    let applied := c.inbox.toArray.map Notice.input
    let ⟨c, cycles, notices, stop⟩ :=
      runUntilFrameEnd maxInstructionsPerFrame c.takeInput 0 applied
    match stop with
    | none => ⟨c.nextFrame, cycles, notices, none⟩
    | some stop => ⟨c, cycles, notices, some stop⟩
  else ⟨c, 0, #[], some (.refused .noCartridge)⟩

/-! ## Several frames -/

/-- Runs frames one after the other, until one is stopped. -/
def runFrames : (frames : Nat) → Console → (cycles : Nat) → Array Notice → Outcome
  | 0, c, cycles, notices => ⟨c, cycles, notices, none⟩
  | frames + 1, c, cycles, notices =>
    let ⟨c, spent, reported, stop⟩ := c.runFrame
    match stop with
    | none => runFrames frames c (cycles + spent) (notices ++ reported)
    | some stop => ⟨c, cycles + spent, notices ++ reported, some stop⟩

/-- Runs a number of frames (`run`). -/
def run (c : Console) (frames : Nat) : Outcome :=
  runFrames frames c 0 #[]

/-- Reported before frames are run, a number of them or without end. -/
def runNotices (frames : Option Nat) : Array Notice := #[.running frames]

end Console

end VideoComputer
