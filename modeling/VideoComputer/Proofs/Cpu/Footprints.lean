/-
VideoComputer.Proofs.Cpu.Footprints — which registers and flags an instruction changes.

A program keeps values in registers and flags across instructions that leave them alone,
and branches on what the others leave in the flags. Both are read off the data path of
the operation: the bus and the stack decide which byte it is given and where the program
goes on, and change nothing else.

* `RegisterPart`, `RegisterPart.changers` — a register or a flag, and the operations that
  may change it.
* `Action.path`, `registers_perform` — the data path of an action, and that nothing but
  the program counter is changed beside it.
* `Operation.value_path` — a data path and the parts it leaves alone.
* `Status.Describes`, `Operation.results` — zero and negative of a result, and where it
  is kept.
* `footprint_of_instruction` — the footprint of every instruction.
-/
import VideoComputer.Proofs.Cpu.BinaryNumbers
import VideoComputer.Proofs.Cpu.EffectiveAddresses
import VideoComputer.Proofs.Cpu.Watched

namespace VideoComputer

/-! ## Parts of the register file -/

/-- A register, a flag or the bit of the status register that is not wired. The program
counter is not among them, since every instruction moves it. -/
inductive RegisterPart where
  | a | x | y | sp
  | flag (f : Flag)
  | unused
  deriving DecidableEq, Repr

namespace RegisterPart

/-- What a register or a flag can hold. -/
def Value : RegisterPart → Type
  | .a | .x | .y | .sp => UInt8
  | .flag _ | .unused => Bool

/-- What it holds. -/
def value (r : Registers) : (part : RegisterPart) → part.Value
  | .a => r.a
  | .x => r.x
  | .y => r.y
  | .sp => r.sp
  | .flag f => r.status.get f
  | .unused => bitAt r.status.bits 5

/-- The operations that may change a register or a flag. Zero and negative are changed
together. -/
def changers : RegisterPart → List Operation
  | .a =>
    [.lda, .txa, .tya, .pla, .adc, .sbc, .and, .eor, .ora, .asl, .lsr, .rol, .ror,
      .slo, .rla, .sre, .rra, .lax, .isc, .anc, .alr, .arr, .xaa, .lxa, .las]
  | .x => [.ldx, .tax, .tsx, .dex, .inx, .lax, .lxa, .sbx, .las]
  | .y => [.ldy, .tay, .dey, .iny]
  | .sp => [.txs, .las, .pha, .php, .pla, .plp, .jsr, .rts, .brk, .rti]
  | .flag .overflow => [.adc, .sbc, .rra, .isc, .bit, .clv, .plp, .rti]
  | .flag .decimal => [.cld, .sed, .plp, .rti]
  | .flag .interruptDisable => [.cli, .sei, .plp, .rti, .brk]
  | .flag .carry =>
    [.adc, .sbc, .cmp, .cpx, .cpy, .asl, .lsr, .rol, .ror, .slo, .rla, .sre, .rra, .dcp, .isc,
      .anc, .alr, .arr, .sbx, .clc, .sec, .plp, .rti]
  | .flag .zero | .flag .negative =>
    [.lda, .ldx, .ldy, .tax, .tay, .tsx, .txa, .tya, .pla, .dec, .dex, .dey, .inc, .inx, .iny,
      .adc, .sbc, .and, .eor, .ora, .asl, .lsr, .rol, .ror, .cmp, .cpx, .cpy, .bit,
      .slo, .rla, .sre, .rra, .lax, .dcp, .isc, .anc, .alr, .arr, .xaa, .lxa, .sbx, .las,
      .plp, .rti]
  | .flag .brk | .unused => [.plp, .rti]

@[simp] theorem value_withPc (part : RegisterPart) (r : Registers) (pc : UInt16) :
    part.value (r.withPc pc) = part.value r := by
  cases part <;> rfl

end RegisterPart

/-- Registers that agree in all parts but the stack pointer differ in the stack pointer
and the program counter at most. -/
theorem Registers.eq_of_parts {r r' : Registers}
    (h : ∀ part : RegisterPart, part ≠ .sp → part.value r' = part.value r) :
    r' = { r with sp := r'.sp, pc := r'.pc } := by
  have hstatus : r'.status = r.status :=
    Status.ext_get (fun f => h (.flag f) nofun) (h .unused nofun)
  obtain ⟨a, x, y, sp, pc, status⟩ := r
  cases h .a nofun
  cases h .x nofun
  cases h .y nofun
  cases hstatus
  rfl

/-! ## Data paths -/

/-- What an action does to the registers, the program counter apart, given the byte that
is its operand or the flags or the register it pulls. -/
def Action.path (mode : AddressingMode) : Action → Registers → UInt8 → Registers
  | .load f, r, byte => f r byte
  | .modify f g, r, byte =>
    if mode = .accumulator then
      let result := f r.status r.a
      g { r with a := result.1, status := result.2 } result.1
    else
      let result := f r.status byte
      g { r with status := result.2 } result.1
  | .internal f, r, _ => f r
  | .mask disable, r, _ => { r with status := r.status.put .interruptDisable disable }
  | .push _, r, _ => { r with sp := r.sp - 1 }
  | .pull f, r, byte => f { r with sp := r.sp + 1 } byte
  | .pullStatus, r, byte => { r with sp := r.sp + 1, status := .ofByte byte }
  | .call, r, _ => { r with sp := r.sp - 1 - 1 }
  | .returnFromCall, r, _ => { r with sp := r.sp + 1 + 1 }
  | .softwareInterrupt, r, _ =>
    { r with sp := r.sp - 1 - 1 - 1, status := r.status.set .interruptDisable }
  | .returnFromInterrupt, r, byte => { r with sp := r.sp + 1 + 1 + 1, status := .ofByte byte }
  | .store _, r, _ | .branch _, r, _ | .jump, r, _ | .idle, r, _ | .lockUp, r, _
  | .skipStore, r, _ => r

namespace Execution

variable {M : Type} [Memory M] (e : Execution M)

theorem registers_resolve (mode : AddressingMode) :
    (e.resolve mode).execution.registers
      = e.registers.withPc (e.resolve mode).execution.registers.pc := by
  cases mode <;> rfl

theorem registers_modifyOperand (mode : AddressingMode) (f : Status → UInt8 → UInt8 × Status)
    (g : Registers → UInt8 → Registers) :
    ∃ pc byte, g (e.modifyOperand mode f).2.registers (e.modifyOperand mode f).1
      = (Action.modify f g).path mode (e.registers.withPc pc) byte := by
  unfold modifyOperand Action.path
  split
  · exact ⟨e.registers.pc, 0, rfl⟩
  · refine ⟨(e.resolve mode).execution.registers.pc, ?_⟩
    rw [← e.registers_resolve]
    exact ⟨_, rfl⟩

theorem registers_branch (taken : Bool) :
    ∃ pc, (e.branch taken).registers = e.registers.withPc pc := by
  cases taken with
  | true => exact ⟨_, rfl⟩
  | false => exact ⟨_, rfl⟩

/-- The late change of the mask makes up for what a pull of the flags left out. -/
theorem registers_pullStatus :
    e.pullStatus.settleMask.registers
      = { e.registers with sp := e.registers.sp + 1, status := .ofByte e.pull.1 } := by
  have hstatus : ((Status.ofByte e.pull.1).put .interruptDisable
      (e.registers.status.get .interruptDisable)).put .interruptDisable
        ((Status.ofByte e.pull.1).get .interruptDisable) = .ofByte e.pull.1 := by
    rw [Status.put_put, Status.put_get]
  exact congrArg (fun status => { e.registers with sp := e.registers.sp + 1, status }) hstatus

/-- Nothing is changed beside the data path but the program counter. -/
theorem registers_perform (hmask : e.newMask = none) (address : UInt16) (opcode : UInt8)
    (i : Instruction) (action : Action) :
    ∃ pc pc' byte, (e.perform address opcode i action).settleMask.registers
      = (action.path i.mode (e.registers.withPc pc) byte).withPc pc' := by
  have hsettled (hlate : action.masksLate = false) :
      (e.perform address opcode i action).settleMask = e.perform address opcode i action :=
    settleMask_of_none ((e.newMask_perform address opcode i hlate).trans hmask)
  have hread : (e.readOperand i.mode).2.registers
      = e.registers.withPc (e.resolve i.mode).execution.registers.pc :=
    (e.registers_readOperand i.mode).trans (e.registers_resolve i.mode)
  cases action with
  | mask disable => exact ⟨e.registers.pc, e.registers.pc, 0, rfl⟩
  | pullStatus => exact ⟨e.registers.pc, e.registers.pc, e.pull.1, e.registers_pullStatus⟩
  | load f =>
    rw [hsettled rfl]
    exact ⟨_, _, _, congrArg (f · (e.readOperand i.mode).1) hread⟩
  | store f =>
    rw [hsettled rfl]
    exact ⟨0, _, 0, e.registers_resolve i.mode⟩
  | modify f g =>
    rw [hsettled rfl]
    obtain ⟨pc, byte, h⟩ := e.registers_modifyOperand i.mode f g
    exact ⟨pc, _, byte, h⟩
  | branch taken =>
    rw [hsettled rfl]
    obtain ⟨pc, h⟩ := e.registers_branch (taken e.registers.status)
    exact ⟨0, pc, 0, h⟩
  | jump =>
    rw [hsettled rfl]
    exact ⟨_, _, 0, congrArg (Registers.withPc · (e.resolve i.mode).address)
      (e.registers_resolve i.mode)⟩
  | idle =>
    rw [hsettled rfl]
    simp only [perform]
    split
    · exact ⟨0, _, 0, hread⟩
    · exact ⟨0, _, 0, rfl⟩
  | pull f =>
    rw [hsettled rfl]
    exact ⟨e.registers.pc, _, e.pull.1, rfl⟩
  | returnFromInterrupt =>
    rw [hsettled rfl]
    exact ⟨e.registers.pc, _, e.pull.1, rfl⟩
  | internal f | push f | call | returnFromCall | softwareInterrupt | lockUp | skipStore =>
    rw [hsettled rfl]
    exact ⟨e.registers.pc, _, 0, rfl⟩

end Execution

/-- The flags that an operation puts. A pull of all of them at once is not meant. -/
def Operation.flags (op : Operation) : List Flag :=
  [.negative, .overflow, .decimal, .interruptDisable, .zero, .carry].filter fun f =>
    op ∈ (RegisterPart.flag f).changers

theorem Operation.not_mem_flags {op : Operation} {f : Flag}
    (h : op ∉ (RegisterPart.flag f).changers) : f ∉ op.flags := by
  intro hf
  exact h (of_decide_eq_true (List.mem_filter.mp hf).2)

theorem Operation.brk_not_mem_flags (op : Operation) : .brk ∉ op.flags := by
  intro hf
  exact absurd (List.mem_filter.mp hf).1 (by decide)

open Status in
/-- But for the two operations that pull it, the status register changes flag by flag. -/
theorem Operation.puts_path {op : Operation} (hplp : op ≠ .plp) (hrti : op ≠ .rti)
    {mode : AddressingMode} (hmode : mode = .accumulator → op ∈ [.asl, .lsr, .rol, .ror])
    (decimalMode : Bool) (r : Registers) (byte : UInt8) :
    Puts op.flags r.status ((op.action decimalMode).path mode r byte).status := by
  have hmemory (hop : op ∉ [.asl, .lsr, .rol, .ror]) : mode ≠ .accumulator := mt hmode hop
  cases op with
  | plp => exact absurd rfl hplp
  | rti => exact absurd rfl hrti
  | lda | ldx | ldy | pla | tax | tay | tsx | txa | tya | dex | dey | inx | iny | and | eor | ora
  | las =>
    exact Puts.refl.withZeroNegative (by decide) (by decide) _
  | lax | xaa =>
    exact (Puts.refl.withZeroNegative (by decide) (by decide) _).withZeroNegative (by decide)
      (by decide) _
  | lxa =>
    exact ((Puts.refl.withZeroNegative (by decide) (by decide) _).withZeroNegative (by decide)
      (by decide) _).withZeroNegative (by decide) (by decide) _
  | cmp | cpx | cpy | sbx =>
    exact (Puts.refl.put (by decide) _).withZeroNegative (by decide) (by decide) _
  | anc =>
    exact (Puts.refl.withZeroNegative (by decide) (by decide) _).put (by decide) _
  | alr | arr =>
    exact ((Puts.refl.withZeroNegative (by decide) (by decide) _).put (by decide)
      _).withZeroNegative (by decide) (by decide) _
  | bit =>
    exact ((Puts.refl.put (by decide) _).put (by decide) _).put (by decide) _
  | clc | cld | clv | cli => exact Puts.refl.clear (by decide)
  | sec | sed | sei | brk => exact Puts.refl.set (by decide)
  | adc => exact (r.puts_adc decimalMode byte).mono (by decide)
  | sbc => exact (r.puts_differenceStatus byte).mono (by decide)
  | asl | lsr | rol | ror =>
    simp only [action, Action.path]
    split
    all_goals exact (Puts.refl.put (by decide) _).withZeroNegative (by decide) (by decide) _
  | dec | inc =>
    simp only [action, Action.path, if_neg (hmemory (by decide))]
    exact Puts.refl.withZeroNegative (by decide) (by decide) _
  | slo | rla | sre =>
    simp only [action, Action.path, if_neg (hmemory (by decide))]
    exact ((Puts.refl.put (by decide) _).withZeroNegative (by decide) (by decide)
      _).withZeroNegative (by decide) (by decide) _
  | dcp =>
    simp only [action, Action.path, if_neg (hmemory (by decide))]
    exact ((Puts.refl.withZeroNegative (by decide) (by decide) _).put (by decide)
      _).withZeroNegative (by decide) (by decide) _
  | rra =>
    simp only [action, Action.path, if_neg (hmemory (by decide))]
    have hrotated : Puts Operation.rra.flags r.status (r.status.ror byte).2 :=
      (Puts.refl.put (by decide) _).withZeroNegative (by decide) (by decide) _
    have hadded := Registers.puts_adc decimalMode { r with status := (r.status.ror byte).2 }
      (r.status.ror byte).1
    exact hrotated.trans (hadded.mono (show Registers.resultFlags ⊆ Operation.rra.flags by decide))
  | isc =>
    simp only [action, Action.path, if_neg (hmemory (by decide))]
    have hincremented : Puts Operation.isc.flags r.status (r.status.inc byte).2 :=
      Puts.refl.withZeroNegative (by decide) (by decide) _
    have hsubtracted := Registers.puts_differenceStatus
      { r with status := (r.status.inc byte).2 } (r.status.inc byte).1
    exact hincremented.trans
      (hsubtracted.mono (show Registers.resultFlags ⊆ Operation.isc.flags by decide))
  | sta | stx | sty | sax | txs | pha | php | jmp | jsr | rts | nop | jam | unstable
  | bcc | bcs | beq | bmi | bne | bpl | bvc | bvs => exact Puts.refl

/-- The adder leaves the other registers alone. -/
theorem Registers.value_adc (decimalMode : Bool) (r : Registers) (operand : UInt8) :
    (adc decimalMode r operand).x = r.x ∧ (adc decimalMode r operand).y = r.y
      ∧ (adc decimalMode r operand).sp = r.sp := by
  unfold adc
  split <;> exact ⟨rfl, rfl, rfl⟩

/-- The data path of an operation leaves a register or a flag alone if the operation is not
among those that change it. -/
theorem Operation.value_path {op : Operation} {part : RegisterPart} (h : op ∉ part.changers)
    {mode : AddressingMode} (hmode : mode = .accumulator → op ∈ [.asl, .lsr, .rol, .ror])
    (decimalMode : Bool) (r : Registers) (byte : UInt8) :
    part.value ((op.action decimalMode).path mode r byte) = part.value r := by
  have hmemory (hop : op ∉ [.asl, .lsr, .rol, .ror]) : mode ≠ .accumulator := mt hmode hop
  cases part with
  | flag f =>
    have hplp : op ≠ .plp := by rintro rfl; cases f <;> exact h (by decide)
    have hrti : op ≠ .rti := by rintro rfl; cases f <;> exact h (by decide)
    exact (puts_path hplp hrti hmode decimalMode r byte).get_eq (not_mem_flags h)
  | unused =>
    have hplp : op ≠ .plp := by rintro rfl; exact h (by decide)
    have hrti : op ≠ .rti := by rintro rfl; exact h (by decide)
    exact (puts_path hplp hrti hmode decimalMode r byte).bitAt_five
  | a | x | y | sp =>
    cases op with
    | adc =>
      obtain ⟨hx, hy, hsp⟩ := r.value_adc decimalMode byte
      first | exact hx | exact hy | exact hsp | exact absurd (by decide) h
    | rra =>
      simp only [action, Action.path, if_neg (hmemory (by decide))]
      obtain ⟨hx, hy, hsp⟩ := Registers.value_adc decimalMode
        { r with status := (r.status.ror byte).2 } (r.status.ror byte).1
      first | exact hx | exact hy | exact hsp | exact absurd (by decide) h
    | asl | lsr | rol | ror =>
      simp only [action, Action.path]
      split
      all_goals first | rfl | exact absurd (by decide) h
    | dec | inc | slo | rla | sre | dcp | isc =>
      simp only [action, Action.path, if_neg (hmemory (by decide))]
      first | rfl | exact absurd (by decide) h
    | _ => first | rfl | exact absurd (by decide) h

/-! ## Results -/

/-- Whether zero and negative are those of a result. -/
def Status.Describes (s : Status) (result : UInt8) : Prop :=
  s.get .zero = (result == 0) ∧ s.get .negative = bitAt result 7

namespace Status

theorem describes_withZeroNegative (s : Status) (result : UInt8) :
    (s.withZeroNegative result).Describes result := by
  constructor <;> simp

/-- Another flag may be put behind it. -/
theorem Describes.put {s : Status} {result : UInt8} (h : s.Describes result) (f : Flag)
    (hzero : f ≠ .zero) (hnegative : f ≠ .negative) (value : Bool) :
    (s.put f value).Describes result := by
  rw [Describes, get_put, get_put, if_neg hzero, if_neg hnegative]
  exact h

end Status

namespace Registers

variable {decimalMode : Bool} {r : Registers} (h : AddsInBinary decimalMode r) (operand : UInt8)

include h

theorem describes_adc :
    (r.adc decimalMode operand).status.Describes (r.adc decimalMode operand).a := by
  rw [adc_of_addsInBinary h]
  exact ((Status.describes_withZeroNegative _ _).put .carry (by decide) (by decide) _).put
    .overflow (by decide) (by decide) _

theorem describes_sbc :
    (r.sbc decimalMode operand).status.Describes (r.sbc decimalMode operand).a := by
  rw [a_sbc_of_addsInBinary h]
  exact (Status.describes_withZeroNegative _ _).put .carry (by decide) (by decide) _

end Registers

namespace Operation

/-- The registers in which an operation leaves its result. -/
def results : Operation → List (Registers → UInt8)
  | .lda | .pla | .txa | .tya => [Registers.a]
  | .adc | .sbc | .and | .eor | .ora => [Registers.a]
  | .slo | .rla | .sre | .rra | .isc | .anc | .alr | .arr | .xaa => [Registers.a]
  | .ldx | .tax | .tsx | .dex | .inx => [Registers.x]
  | .ldy | .tay | .dey | .iny => [Registers.y]
  | .lax | .lxa => [Registers.a, Registers.x]
  | .las => [Registers.a, Registers.x, Registers.sp]
  | _ => []

/-- Whether the result of an operation takes the place of its operand. -/
def replaces : Operation → Bool
  | .dec | .inc | .asl | .lsr | .rol | .ror => true
  | _ => false

/-- Whether the operation uses the adder. -/
def isArithmetic : Operation → Bool
  | .adc | .sbc | .rra | .isc => true
  | _ => false

/-- Zero and negative describe what an operation leaves as its result. -/
theorem describes_path {op : Operation} {register : Registers → UInt8}
    (hregister : register ∈ op.results) {mode : AddressingMode}
    (hmode : mode = .accumulator → op ∈ [.asl, .lsr, .rol, .ror]) {decimalMode : Bool}
    {r : Registers} (hbinary : op.isArithmetic = true → r.AddsInBinary decimalMode)
    (byte : UInt8) (pc : UInt16) :
    let r' := ((op.action decimalMode).path mode r byte).withPc pc
    r'.status.Describes (register r') := by
  have hmemory (hop : op ∉ [.asl, .lsr, .rol, .ror]) : mode ≠ .accumulator := mt hmode hop
  cases op with
  | adc =>
    cases List.mem_singleton.mp hregister
    exact Registers.describes_adc (hbinary rfl) byte
  | sbc =>
    cases List.mem_singleton.mp hregister
    exact Registers.describes_sbc (hbinary rfl) byte
  | rra =>
    cases List.mem_singleton.mp hregister
    have hstatus : (Status.ror r.status byte).2.get .decimal = r.status.get .decimal := by
      simp [Status.ror, Status.shiftRight]
    simp only [action, Action.path, if_neg (hmemory (by decide))]
    refine Registers.describes_adc ?_ _
    rw [Registers.AddsInBinary, hstatus]
    exact hbinary rfl
  | isc =>
    cases List.mem_singleton.mp hregister
    have hstatus : (Status.inc r.status byte).2.get .decimal = r.status.get .decimal := by
      simp [Status.inc]
    simp only [action, Action.path, if_neg (hmemory (by decide))]
    refine Registers.describes_sbc ?_ _
    rw [Registers.AddsInBinary, hstatus]
    exact hbinary rfl
  | slo | rla | sre =>
    cases List.mem_singleton.mp hregister
    simp only [action, Action.path, if_neg (hmemory (by decide))]
    exact Status.describes_withZeroNegative _ _
  | lax | lxa | las =>
    simp only [results, List.mem_cons, List.not_mem_nil, or_false] at hregister
    rcases hregister with rfl | rfl | rfl
    all_goals exact Status.describes_withZeroNegative _ _
  | anc =>
    cases List.mem_singleton.mp hregister
    exact (Status.describes_withZeroNegative _ _).put .carry (by decide) (by decide) _
  | lda | ldx | ldy | tax | tay | tsx | txa | tya | pla | dex | dey | inx | iny | and | eor
  | ora | alr | arr | xaa =>
    cases List.mem_singleton.mp hregister
    exact Status.describes_withZeroNegative _ _
  | _ => cases hregister

/-- Zero and negative describe the byte that takes the place of the operand. -/
theorem action_of_replaces {op : Operation} (h : op.replaces = true) (decimalMode : Bool) :
    ∃ f, op.action decimalMode = .modify f Registers.unchanged
      ∧ ∀ status byte, (f status byte).2.Describes (f status byte).1 := by
  cases op with
  | dec | inc | asl | lsr | rol | ror =>
    exact ⟨_, rfl, fun _ _ => Status.describes_withZeroNegative _ _⟩
  | _ => cases h

/-- Whether the operation leaves all registers and flags as they are, but for the program
counter and the stack pointer: stores, branches, jumps and what moves the stack without
pulling into a register. -/
def isQuiet : Operation → Bool
  | .sta | .stx | .sty | .sax => true
  | .bcc | .bcs | .beq | .bmi | .bne | .bpl | .bvc | .bvs => true
  | .jmp | .jsr | .rts => true
  | .txs | .pha | .php => true
  | .nop | .jam | .unstable _ => true
  | _ => false

theorem not_mem_changers_of_isQuiet {op : Operation} (h : op.isQuiet = true) {part : RegisterPart}
    (hpart : part ≠ .sp) : op ∉ part.changers := by
  cases op with
  | sta | stx | sty | sax | bcc | bcs | beq | bmi | bne | bpl | bvc | bvs | jmp | jsr | rts
  | txs | pha | php | nop | jam | unstable =>
    cases part with
    | sp => exact absurd rfl hpart
    | flag f => cases f <;> simp [RegisterPart.changers]
    | _ => simp [RegisterPart.changers]
  | _ => cases h

end Operation

/-! ## Instructions -/

namespace Machine

variable {M : Type} [Memory M] {m : Machine M}

theorem registers_step (h : ¬ m.Accepts) :
    m.step.machine.cpu.registers
      = (m.begun.perform m.cpu.registers.pc m.nextOpcode m.nextInstruction
          m.nextAction).settleMask.registers := by
  rw [step_of_not_accepts h, undisturbed_eq, execute_eq]
  rfl

theorem operation_of_accumulator (h : m.nextInstruction.mode = .accumulator) :
    m.nextInstruction.operation ∈ [.asl, .lsr, .rol, .ror] :=
  Opcode.operation_of_accumulator m.nextOpcode h

/-- What an instruction leaves of a register or a flag is what the data path of its
operation does. -/
theorem exists_path (h : ¬ m.Accepts) :
    ∃ pc pc' byte, m.step.machine.cpu.registers
      = (m.nextAction.path m.nextInstruction.mode (m.cpu.registers.withPc pc) byte).withPc pc' := by
  obtain ⟨pc, pc', byte, hpath⟩ := m.begun.registers_perform rfl m.cpu.registers.pc m.nextOpcode
    m.nextInstruction m.nextAction
  exact ⟨pc, pc', byte, (registers_step h).trans hpath⟩

/-- Before interrupts are serviced, a register or a flag is as it was if the operation is not
among those that change it. -/
theorem value_settled {part : RegisterPart}
    (hpart : m.nextInstruction.operation ∉ part.changers) :
    part.value (execute m.cpu m.memory).settleMask.registers = part.value m.cpu.registers := by
  obtain ⟨pc, pc', byte, hpath⟩ := m.begun.registers_perform rfl m.cpu.registers.pc m.nextOpcode
    m.nextInstruction m.nextAction
  rw [execute_eq, hpath, RegisterPart.value_withPc, nextAction,
    Operation.value_path hpart operation_of_accumulator, RegisterPart.value_withPc]
  exact part.value_withPc m.cpu.registers _

theorem value_step (h : ¬ m.Accepts) {part : RegisterPart}
    (hpart : m.nextInstruction.operation ∉ part.changers) :
    part.value m.step.machine.cpu.registers = part.value m.cpu.registers := by
  rw [registers_step h]
  exact value_settled hpart

/-- Zero and negative describe a byte of memory that an instruction has changed. -/
theorem describes_written (h : ¬ m.Accepts)
    (hreplaces : m.nextInstruction.operation.replaces = true)
    (hmode : m.nextInstruction.mode ≠ .accumulator) :
    ∃ address result, m.watched.step.machine.memory.writes = [(address, result)]
      ∧ m.step.machine.cpu.registers.status.Describes result := by
  obtain ⟨f, haction, hdescribes⟩ := Operation.action_of_replaces hreplaces m.cpu.decimalMode
  have haction' : m.nextAction = .modify f Registers.unchanged := haction
  have hmask : (m.begun.perform m.cpu.registers.pc m.nextOpcode m.nextInstruction
      m.nextAction).newMask = none :=
    m.begun.newMask_perform _ _ _ (by rw [haction']; rfl)
  rw [writes_step_watched h, registers_step h, Execution.settleMask_of_none hmask, haction']
  simp only [Action.writes, Execution.perform, Execution.modifyOperand, if_neg hmode]
  exact ⟨_, _, rfl, hdescribes _ _⟩

/-- The footprint of an instruction behind which no interrupt is serviced. A register or a
flag that its operation is not among the changers of is as it was, and a quiet operation
changes nothing but the program counter and the stack pointer. Zero and negative describe
each register in which the result is left, by the adder if it adds in binary; and the byte
that takes the place of the operand, be it A or the one byte that is written to memory. -/
theorem footprint_of_instruction {m : Machine M} (h : ¬ m.Accepts) :
    let op := m.nextInstruction.operation
    let mode := m.nextInstruction.mode
    let before := m.cpu.registers
    let after := m.step.machine.cpu.registers
    (∀ part : RegisterPart, op ∉ part.changers → part.value after = part.value before)
      ∧ (op.isQuiet = true → after = { before with sp := after.sp, pc := after.pc })
      ∧ ((op.isArithmetic = true → before.AddsInBinary m.cpu.decimalMode) →
          ∀ register ∈ op.results, after.status.Describes (register after))
      ∧ (op.replaces = true → mode = .accumulator → after.status.Describes after.a)
      ∧ (op.replaces = true → mode ≠ .accumulator →
          ∃ address result, m.watched.step.machine.memory.writes = [(address, result)]
            ∧ after.status.Describes result) := by
  intro op mode before after
  refine ⟨fun part => value_step h, ?_, ?_, ?_, ?_⟩
  · intro hquiet
    exact Registers.eq_of_parts fun part hpart =>
      value_step h (Operation.not_mem_changers_of_isQuiet hquiet hpart)
  · intro hbinary register hregister
    obtain ⟨pc, pc', byte, hpath⟩ := exists_path h
    have hbinary' : op.isArithmetic = true →
        (before.withPc pc).AddsInBinary m.cpu.decimalMode := hbinary
    simp only [after, hpath]
    exact Operation.describes_path hregister operation_of_accumulator hbinary' byte pc'
  · intro hreplaces hmode
    obtain ⟨f, haction, hdescribes⟩ := Operation.action_of_replaces hreplaces m.cpu.decimalMode
    obtain ⟨pc, pc', byte, hpath⟩ := exists_path h
    simp only [after, hpath, nextAction, op, mode, haction, hmode]
    exact hdescribes _ _
  · intro hreplaces hmode
    exact describes_written h hreplaces hmode

/-- Registers with the overflow flag set, and nothing but bit 0 in A. -/
def overflown : Registers :=
  { a := 0x01, x := 0, y := 0x77, sp := 0xFD, pc := 0x0200
    status := Status.powerOn.set .overflow }

/-- A rotation of A and an operand leaves the overflow flag and Y, and describes A. An
increment in memory describes the byte that it writes. -/
theorem footprint_of_instruction_overflown :
    ¬ (inFrontOf overflown [0x6B, 0xFF]).Accepts
      ∧ (inFrontOf overflown [0x6B, 0xFF]).step.machine.cpu.registers.status.get .overflow = true
      ∧ (inFrontOf overflown [0x6B, 0xFF]).step.machine.cpu.registers.y = 0x77
      ∧ (inFrontOf overflown [0x6B, 0xFF]).step.machine.cpu.registers.status.Describes
          (inFrontOf overflown [0x6B, 0xFF]).step.machine.cpu.registers.a
      ∧ ∃ address result,
          (inFrontOf overflown [0xE6, 0x80]).watched.step.machine.memory.writes
              = [(address, result)]
            ∧ (inFrontOf overflown [0xE6, 0x80]).step.machine.cpu.registers.status.Describes
              result := by
  have hrotate : (inFrontOf overflown [0x6B, 0xFF]).nextInstruction
      = ⟨.arr, .immediate, .unofficial, 2⟩ := nextInstruction_inFrontOf overflown (by decide)
  have hcount : (inFrontOf overflown [0xE6, 0x80]).nextInstruction
      = ⟨.inc, .zeroPage, .official, 5⟩ := nextInstruction_inFrontOf overflown (by decide)
  have haccepts : ¬ (inFrontOf overflown [0x6B, 0xFF]).Accepts := not_accepts rfl
  obtain ⟨hparts, -, hresults, -⟩ := footprint_of_instruction haccepts
  obtain ⟨-, -, -, -, hwritten⟩ :=
    footprint_of_instruction (m := inFrontOf overflown [0xE6, 0x80]) (not_accepts rfl)
  rw [hrotate] at hparts hresults
  rw [hcount] at hwritten
  have hoverflow {r r' : Registers}
      (h : (RegisterPart.flag .overflow).value r = (RegisterPart.flag .overflow).value r') :
      r.status.get .overflow = r'.status.get .overflow := h
  have hy {r r' : Registers} (h : RegisterPart.y.value r = RegisterPart.y.value r') :
      r.y = r'.y := h
  exact ⟨haccepts, hoverflow (hparts (.flag .overflow) (by decide)), hy (hparts .y (by decide)),
    hresults nofun Registers.a (List.mem_singleton.mpr rfl), hwritten rfl nofun⟩

end Machine

end VideoComputer
