/-
VideoComputer.Proofs.Bus.Accesses — what the processor cannot do to the chips.

Whatever an instruction does on the bus it does by reads and writes. So what no
single read and no single write changes, no instruction changes.

* `beam_accessed` — the beam moves with time only.
* `published_accessed` — so do frames get published.
* `cartridge_accessed` — the cartridge stays in its slot.
-/
import VideoComputer.Bus
import VideoComputer.Proofs.Cpu.Accesses
import VideoComputer.Proofs.Video.Calls

namespace VideoComputer.Bus

/-- No read reaches into the video chip. -/
@[simp] theorem tia_afterRead (b : Bus) (address : UInt16) :
    (b.afterRead address).tia = b.tia := by
  unfold afterRead
  split <;> rfl

/-- No write moves the beam. -/
@[simp] theorem beam_write (b : Bus) (address : UInt16) (data : UInt8) :
    (b.write address data).tia.beam = b.tia.beam := by
  obtain ⟨tia, riot, cartridge⟩ := b
  simp only [write]
  cases Device.decodeWrite (Device.wired address) with
  | tia => exact tia.beam_write _ data
  | _ => rfl

/-- An instruction does not move the beam, -/
theorem beam_accessed {b b' : Bus} (h : Accessed b b') : b'.tia.beam = b.tia.beam := by
  refine h.unchanged (v := fun b : Bus => b.tia.beam) ?_ beam_write
  intro b address
  exact congrArg Tia.beam (b.tia_afterRead address)

/-- No write publishes a frame. -/
@[simp] theorem published_write (b : Bus) (address : UInt16) (data : UInt8) :
    (b.write address data).tia.published = b.tia.published := by
  obtain ⟨tia, riot, cartridge⟩ := b
  simp only [write]
  cases Device.decodeWrite (Device.wired address) with
  | tia => exact tia.published_write _ data
  | _ => rfl

/-- it does not publish a frame, -/
theorem published_accessed {b b' : Bus} (h : Accessed b b') :
    b'.tia.published = b.tia.published := by
  refine h.unchanged (v := fun b : Bus => b.tia.published) ?_ published_write
  intro b address
  exact congrArg Tia.published (b.tia_afterRead address)

/-- and it leaves the cartridge in its slot. -/
theorem cartridge_accessed {b b' : Bus} (h : Accessed b b') : b'.cartridge = b.cartridge :=
  h.unchanged cartridge_afterRead cartridge_write

/-- A processor that is reset reads its vector, and the video chip does not
notice. -/
theorem tia_machineReset (m : Machine Bus) : m.reset.memory.tia = m.memory.tia := by
  obtain ⟨cpu, bus⟩ := m
  simp only [Machine.reset, Execution.readVector, Execution.readWord, Execution.read,
    Execution.start, Execution.goto]
  exact (tia_afterRead _ _).trans (tia_afterRead _ _)

end VideoComputer.Bus
