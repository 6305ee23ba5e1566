/-
VideoComputer.Proofs.Cpu.Accesses — an instruction reaches memory by reading
and writing it, and in no other way.

The processor is written for any memory, so what it leaves of a memory is
built from the memory it found by the two functions that the interface has for
that: what is left after a read, and what is left after a write. `Accessed`
says so. It is carried through an instruction from its first fetch to the
service of an interrupt behind it, with one lemma for each function of the
processor.

* `Accessed.keeps`, `Accessed.unchanged` — what every single access keeps is kept.
* `accessed_step`, `accessed_reset` — an instruction, and a reset.
-/
import VideoComputer.Cpu.Machine

namespace VideoComputer

variable {M : Type} [Memory M]

/-- What a memory can become by being read and written. -/
inductive Accessed (m : M) : M → Prop
  | refl : Accessed m m
  | afterRead {m' : M} (h : Accessed m m') (address : UInt16) :
      Accessed m (Memory.afterRead m' address)
  | write {m' : M} (h : Accessed m m') (address : UInt16) (data : UInt8) :
      Accessed m (Memory.write m' address data)

namespace Accessed

/-- What every single access keeps is kept. -/
theorem keeps {m m' : M} (h : Accessed m m') {P : M → Prop}
    (hread : ∀ m address, P m → P (Memory.afterRead m address))
    (hwrite : ∀ m address data, P m → P (Memory.write m address data)) (hm : P m) : P m' := by
  induction h with
  | refl => exact hm
  | afterRead _ address ih => exact hread _ address ih
  | write _ address data ih => exact hwrite _ address data ih

/-- What no single access changes is not changed. -/
theorem unchanged {m m' : M} (h : Accessed m m') {α : Type} {v : M → α}
    (hread : ∀ m address, v (Memory.afterRead m address) = v m)
    (hwrite : ∀ m address data, v (Memory.write m address data) = v m) : v m' = v m := by
  refine h.keeps (P := fun m' => v m' = v m) ?_ ?_ rfl
  · intro m' address hm
    exact (hread m' address).trans hm
  · intro m' address data hm
    exact (hwrite m' address data).trans hm

/-! ## Bytes, words and the stack -/

section

variable {m : M} {e : Execution M} (h : Accessed m e.memory)

include h

theorem read (address : UInt16) : Accessed m (e.read address).2.memory := h.afterRead address

theorem store (address : UInt16) (data : UInt8) : Accessed m (e.write address data).memory :=
  h.write address data

theorem readWord (low high : UInt16) : Accessed m (e.readWord low high).2.memory :=
  (h.read low).read high

theorem readVector (vector : UInt16) : Accessed m (e.readVector vector).2.memory :=
  h.readWord _ _

theorem readPointer (pointer : UInt8) : Accessed m (e.readPointer pointer).2.memory :=
  h.readWord _ _

theorem fetch : Accessed m e.fetch.2.memory := h.read e.registers.pc

theorem fetchWord : Accessed m e.fetchWord.2.memory := h.fetch.fetch

theorem push (data : UInt8) : Accessed m (e.push data).memory := h.store _ data

theorem pushWord (data : UInt16) : Accessed m (e.pushWord data).memory := (h.push _).push _

theorem pull : Accessed m e.pull.2.memory := h.afterRead _

theorem pullWord : Accessed m e.pullWord.2.memory := h.pull.pull

theorem goto (address : UInt16) : Accessed m (e.goto address).memory := h

/-! ## Operands -/

theorem resolve (mode : AddressingMode) : Accessed m (e.resolve mode).execution.memory := by
  cases mode with
  | implied | accumulator | immediate | relative => exact h
  | zeroPage | zeroPageX | zeroPageY => exact h.fetch
  | absolute | absoluteX | absoluteY => exact h.fetchWord
  | indirectX => exact h.fetch.readPointer _
  | indirectY => exact h.fetch.readPointer _
  | indirect => exact h.fetchWord.readWord _ _

theorem readOperand (mode : AddressingMode) : Accessed m (e.readOperand mode).2.memory := by
  have htarget := h.resolve mode
  simp only [Execution.readOperand]
  split
  · exact htarget.afterRead _
  · exact htarget.afterRead _

theorem storeOperand (mode : AddressingMode) (data : UInt8) :
    Accessed m (e.storeOperand mode data).memory := (h.resolve mode).store _ data

theorem modifyOperand (mode : AddressingMode) (f : Status → UInt8 → UInt8 × Status) :
    Accessed m (e.modifyOperand mode f).2.memory := by
  unfold Execution.modifyOperand
  split
  · exact h
  · exact ((h.resolve mode).read _).write _ _

/-! ## Instructions -/

theorem branch (taken : Bool) : Accessed m (e.branch taken).memory := by
  unfold Execution.branch
  cases taken with
  | true => exact h.fetch
  | false => exact h.fetch

theorem trap (isBreak : Bool) (vector : UInt16) : Accessed m (e.trap isBreak vector).memory :=
  (((h.pushWord _).push _).afterRead _).afterRead _

/-- Whatever an instruction does, it does by accesses. -/
theorem perform (address : UInt16) (opcode : UInt8) (i : Instruction) (action : Action) :
    Accessed m (e.perform address opcode i action).memory := by
  cases action with
  | load f => exact h.readOperand i.mode
  | store f => exact h.storeOperand i.mode _
  | modify f g => exact h.modifyOperand i.mode f
  | branch taken => exact h.branch _
  | push f => exact h.push _
  | pull f => exact h.pull
  | pullStatus => exact h.pull
  | jump => exact (h.resolve i.mode).goto _
  | call => exact (h.fetchWord.pushWord _).goto _
  | returnFromCall => exact h.pullWord.goto _
  | softwareInterrupt =>
    refine Accessed.trap ?_ true _
    exact h
  | returnFromInterrupt => exact (h.pull.afterRead _).afterRead _
  | idle =>
    unfold Execution.perform
    simp only
    split
    · exact h.readOperand i.mode
    · exact h
  | internal f => exact h
  | mask disable => exact h
  | lockUp => exact h
  | skipStore => exact h

theorem settleMask : Accessed m e.settleMask.memory := by
  unfold Execution.settleMask
  split
  · exact h
  · exact h

theorem service (interrupt : Interrupt) : Accessed m (e.service interrupt).memory := by
  refine Accessed.trap ?_ false interrupt.vector
  exact h

theorem poll (requests : Requests) : Accessed m (e.poll requests).1.memory := by
  unfold Execution.poll
  split
  · exact h.settleMask
  · exact h.settleMask.service _

end

end Accessed

namespace Machine

/-- An instruction, with the service of an interrupt behind it. -/
theorem accessed_step (m : Machine M) : Accessed m.memory m.step.machine.memory := by
  have hfetch : Accessed m.memory (Execution.start m.cpu.registers m.memory).fetch.2.memory :=
    Accessed.fetch (e := Execution.start m.cpu.registers m.memory) .refl
  have hexecute : Accessed m.memory (execute m.cpu m.memory).memory := by
    refine Accessed.perform ?_ _ _ _ _
    exact hfetch
  exact hexecute.poll _

/-- A reset, which reads a vector. -/
theorem accessed_reset (m : Machine M) : Accessed m.memory m.reset.memory := by
  obtain ⟨cpu, memory⟩ := m
  exact Accessed.readVector (e := Execution.start _ memory) .refl resetVector

end Machine

end VideoComputer
