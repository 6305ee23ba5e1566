/-
VideoComputer.Proofs.Console.Resets — what a console remembers of its past when it
is reset.

A reset goes through all chips, and each of them keeps something on purpose: the
processor its decimal circuit, the I/O chip its RAM, both chips what is held. This
module says that this, the cartridge and the events that wait is all. Two consoles
that agree on it are the same console after a reset, however different their pasts
are, so nobody can tell them apart from then on.

* `Console.Kept` — what a console keeps, and `Kept.restart`, the console that a
  reset makes of it.
* `reset_eq_restart` — a reset looks at nothing else.
* `reset_eq_reset_iff` — and it loses nothing of it.
* `Console.replies` — what can be seen of a console that is asked for one thing
  after the other.
-/
import VideoComputer.Proofs.Console.Inputs
import VideoComputer.Proofs.Cpu.Sequencing

namespace VideoComputer

/-- A reset looks at the decimal circuit only, as far as the processor goes. -/
theorem Machine.reset_eq_powerOn {M : Type} [Memory M] (m : Machine M) :
    m.reset = powerOn m.cpu.decimalMode m.memory := rfl

/-- No read changes RAM. -/
theorem Bus.ram_afterRead (b : Bus) (address : UInt16) :
    (b.afterRead address).riot.ram = b.riot.ram := by
  rw [afterRead_eq]
  cases Region.ofAddress address with
  | ports => exact b.riot.ram_afterRead _
  | ram | video | cartridge => rfl

namespace Console

/-! ## What is kept -/

/-- What a console keeps when it is reset. -/
structure Kept where
  decimalMode : Bool
  cartridge : Option Cartridge
  ram : Vector UInt8 128
  controls : Controls
  inbox : List InputEvent
  deriving DecidableEq

def kept (c : Console) : Kept where
  decimalMode := c.machine.cpu.decimalMode
  cartridge := c.chips.cartridge
  ram := c.chips.riot.ram
  controls := c.controls
  inbox := c.inbox

/-- A console that is switched on with all this in it. -/
def Kept.restart (k : Kept) : Console where
  machine :=
    .powerOn k.decimalMode
      { tia := { Tia.powerOn with fire := k.controls.fire }
        riot :=
          { ram := k.ram
            portA := .released k.controls.portA
            portB := .released k.controls.portB
            timer := .powerOn }
        cartridge := k.cartridge }
  controls := k.controls
  inbox := k.inbox
  frameDots := 0
  picture := none

/-- Where the chips have what the console keeps of the controls, a reset makes the
console anew from what is kept. -/
theorem reset_eq_restart {c : Console} (h : c.chips.lines = c.controls.lines) :
    c.reset = c.kept.restart := by
  have hportA : c.chips.riot.portA.pins = c.controls.portA := congrArg InputLines.portA h
  have hportB : c.chips.riot.portB.pins = c.controls.portB := congrArg InputLines.portB h
  have hfire : c.chips.tia.fire = c.controls.fire := congrArg InputLines.fire h
  have hchips : c.chips.reset
      = { tia := { Tia.powerOn with fire := c.controls.fire }
          riot :=
            { ram := c.chips.riot.ram
              portA := .released c.controls.portA
              portB := .released c.controls.portB
              timer := .powerOn }
          cartridge := c.chips.cartridge } := by
    rw [← hportA, ← hportB, ← hfire]
    rfl
  show Console.mk (Machine.reset ⟨c.machine.cpu, c.chips.reset⟩) c.controls c.inbox 0 none = _
  rw [Machine.reset_eq_powerOn, hchips]
  rfl

/-- A reset keeps what it is said to keep. -/
theorem kept_reset (c : Console) : c.reset.kept = c.kept := by
  have hchips : c.reset.chips
      = (c.chips.reset.afterRead Machine.resetVector).afterRead (Machine.resetVector + 1) := rfl
  have hram : c.reset.chips.riot.ram = c.chips.riot.ram := by
    rw [hchips, Bus.ram_afterRead, Bus.ram_afterRead]
    rfl
  have hcartridge : c.reset.chips.cartridge = c.chips.cartridge := c.cartridge_reset
  simp only [kept, hram, hcartridge]
  rfl

/-- Two consoles are the same after a reset just if they keep the same. -/
theorem reset_eq_reset_iff {c c' : Console} (h : c.chips.lines = c.controls.lines)
    (h' : c'.chips.lines = c'.controls.lines) : c.reset = c'.reset ↔ c.kept = c'.kept := by
  constructor
  · intro heq
    rw [← c.kept_reset, heq, kept_reset]
  · intro hkept
    rw [reset_eq_restart h, reset_eq_restart h', hkept]

/-! ## What can be seen -/

/-- The answer to a call. -/
inductive Answer where
  | done
  | ran (cycles : Nat) (notices : Array Notice)
  | stopped (stop : Stop) (notices : Array Notice)
  | picture (frame : Option Frame)

/-- What can be seen of a console between two calls. -/
structure View where
  registers : Registers
  beam : Beam
  /-- What the beam has drawn so far. -/
  frame : Frame

/-- What can be seen of a call: its answer, and the console behind it. -/
structure Reply where
  answer : Answer
  view : View

/-- What can be seen of running: the cycles it took are handed out only if it was not
stopped. -/
def Answer.ofOutcome (o : Outcome) : Answer :=
  match o.stop with
  | none => .ran o.cycles o.notices
  | some stop => .stopped stop o.notices

def answer (c : Console) : Call → Answer
  | .step => .ofOutcome c.step
  | .runFrame => .ofOutcome c.runFrame
  | .takePicture => .picture c.takePicture.1
  | .reset | .insert _ | .send _ => .done

def view (c : Console) : View where
  registers := c.machine.cpu.registers
  beam := c.chips.tia.beam
  frame := c.chips.tia.canvas.frame

/-- What can be seen of a console that is asked for one thing after the other. -/
def replies (c : Console) : List Call → List Reply
  | [] => []
  | call :: calls =>
    let next := ((Session.fresh c).call call).console
    ⟨c.answer call, next.view⟩ :: next.replies calls

/-! ## Two pasts -/

/-- In every session the chips have what the console keeps of the controls. -/
theorem Session.lines_played (settings : Settings) (calls : List Call) :
    (played settings calls).console.chips.lines = (played settings calls).console.controls.lines :=
  (delivers_run (delivers_powerOn settings) calls).lines_eq

/-- Two consoles that have the same decimal circuit, cartridge, RAM, controls and
waiting events are the same console after a reset, and answer alike and look alike
from then on, whatever they went through before it and whatever comes. -/
theorem reset_forgets {settings settings' : Settings} {past past' : List Call}
    (h : (Session.played settings past).console.kept
      = (Session.played settings' past').console.kept) :
    let c := (Session.played settings past).console
    let c' := (Session.played settings' past').console
    c.reset = c'.reset
      ∧ ∀ calls, c.reset.replies calls = c'.reset.replies calls := by
  intro c c'
  have hreset : c.reset = c'.reset :=
    (reset_eq_reset_iff (Session.lines_played settings past)
      (Session.lines_played settings' past')).mpr h
  refine ⟨hreset, ?_⟩
  intro calls
  rw [hreset]

/-- An instruction that works on the registers alone does nothing to what is
kept. -/
theorem kept_step_of_internal {c : Console} {f : Registers → Registers}
    (hrequests : c.machine.cpu.requests = .none) (h : c.machine.nextAction = .internal f) :
    c.step.console.kept = c.kept := by
  have hmachine := Machine.step_of_internal hrequests h
  have hchips : c.chipsAfterInstruction = c.chips.afterRead c.machine.cpu.registers.pc := by
    rw [chipsAfterInstruction, hmachine]
    rfl
  have hram : c.step.console.chips.riot.ram = c.chips.riot.ram := by
    rw [chips_step, hchips]
    exact Bus.ram_afterRead _ _
  have hcartridge : c.step.console.chips.cartridge = c.chips.cartridge := by
    rw [chips_step, hchips]
    exact Bus.cartridge_afterRead _ _
  have hmode : c.step.console.machine.cpu.decimalMode = c.machine.cpu.decimalMode := rfl
  simp only [kept, hram, hcartridge, hmode]
  rfl

/-- A cartridge that sets the decimal flag again and again. -/
def flagCartridge : Cartridge := ⟨"flag", .replicate 2048 0xF8, .inl Array.size_replicate⟩

theorem read_flagCartridge {b : Bus} (h : b.cartridge = some flagCartridge) {address : UInt16}
    (hselect : Device.decodeRead (Device.wired address) = .cartridge) : b.read address = 0xF8 := by
  simp [Bus.read, hselect, h, flagCartridge, Cartridge.read]

/-- A reset enters it, since it is at the address that it gives for its entry. -/
theorem nextAction_reset_flagCartridge {m : Machine Bus}
    (h : m.memory.cartridge = some flagCartridge) :
    m.reset.nextAction = .internal Registers.sed := by
  have hlow : (m.memory.afterRead 0xFFFC).cartridge = some flagCartridge := by
    rw [Bus.cartridge_afterRead, h]
  have hslot : ((m.memory.afterRead 0xFFFC).afterRead 0xFFFD).cartridge = some flagCartridge := by
    rw [Bus.cartridge_afterRead, hlow]
  have hentry : m.reset.cpu.registers.pc = 0xF8F8 := by
    show word (m.memory.read 0xFFFC) ((m.memory.afterRead 0xFFFC).read 0xFFFD) = _
    rw [read_flagCartridge h rfl, read_flagCartridge hlow rfl]
    rfl
  rw [Machine.nextAction, Machine.nextInstruction, Machine.nextOpcode, hentry]
  show (Opcode.decode
    (((m.memory.afterRead 0xFFFC).afterRead 0xFFFD).read 0xF8F8)).operation.action _ = _
  rw [read_flagCartridge hslot rfl]
  rfl

/-- Its first instruction sets the flag and nothing that is kept. -/
theorem step_insert_flagCartridge (c : Console) :
    (c.insert flagCartridge).step.console.kept = (c.insert flagCartridge).kept
      ∧ (c.insert flagCartridge).view.registers.status.get .decimal = false
      ∧ (c.insert flagCartridge).step.console.view.registers.status.get .decimal = true := by
  have hsets : (c.insert flagCartridge).machine.nextAction = .internal Registers.sed :=
    nextAction_reset_flagCartridge
      (m := ⟨c.machine.cpu, (c.chips.insert flagCartridge).reset⟩) rfl
  have hstep := Machine.step_of_internal (m := (c.insert flagCartridge).machine) rfl hsets
  refine ⟨kept_step_of_internal rfl hsets, ?_, ?_⟩
  · show Status.powerOn.get .decimal = false
    decide
  · show (c.insert flagCartridge).machine.step.machine.cpu.registers.status.get .decimal = true
    rw [hstep]
    exact (Status.get_set _ _ _).trans (if_pos rfl)

/-- That instruction can be seen, but leaves no trace behind the next reset. -/
theorem reset_forgets_flagCartridge :
    let before := (Session.played .standard [.insert flagCartridge]).console
    let after := (Session.played .standard [.insert flagCartridge, .step]).console
    after.kept = before.kept
      ∧ before.view.registers ≠ after.view.registers
      ∧ after.reset = before.reset := by
  intro before after
  have hbefore : before = (powerOn .standard).insert flagCartridge := rfl
  have hafter : after = ((powerOn .standard).insert flagCartridge).step.console := by
    simp only [after, Session.played, Session.run_cons, Session.run_nil, Session.call,
      Session.fresh]
  obtain ⟨hkept, hclear, hset⟩ := step_insert_flagCartridge (powerOn .standard)
  rw [← hafter] at hkept hset
  rw [← hbefore] at hkept hclear
  have hreset : after.reset = before.reset := (reset_forgets hkept).1
  refine ⟨hkept, ?_, hreset⟩
  intro hsame
  rw [hsame, hset] at hclear
  cases hclear

end Console

end VideoComputer
