/-
VideoComputer.Proofs.Cpu.Stack — the stack gives back what it was given, last in, first
out.

The stack is page 1, and the stack pointer wraps around it, so up to 256 bytes that were
pushed are in 256 different places, wherever the pointer started. A call leaves the
address of its own last byte there, and a return continues behind that; as long as what
is called leaves the stack as it found it, the return finds what the call left. So calls
that are made one inside the other return in reverse order.

* `Ram.Stacked` — bytes on the stack, the last one first, and what a push adds to them.
* `Execution.pushAll`, `pullAll` — several pushes, and several pulls.
* `Machine.step_of_call`, `step_of_returnFromCall` — the two instructions.
* `Machine.Restored`, `Restored.of_call` — what is called leaves the stack as it found it,
  and then the return from it does.
* `Machine.Nests`, `Unwinds`, `calls_return` — many calls and as many returns, by induction
  on the calls inside the first one.
* `Ram.Calls`, `executes_calls` — a program that makes them.
* `stack_is_lifo` — bytes and calls.
-/
import VideoComputer.Proofs.Cpu.Writes

namespace VideoComputer

/-! ## Bytes on the stack -/

namespace Ram

/-- The memory has these bytes on the stack, above the stack pointer: the first is the one
that a pull finds. -/
def Stacked (r : Ram) (sp : UInt8) (bytes : List UInt8) : Prop :=
  ∀ i (h : i < bytes.length),
    r.read (Execution.stackAddress (sp + UInt8.ofNat (i + 1))) = bytes[i]

variable {r : Ram} {sp byte : UInt8} {bytes : List UInt8}

theorem stacked_nil (r : Ram) (sp : UInt8) : r.Stacked sp [] := by
  intro i hi
  cases hi

theorem stacked_cons :
    r.Stacked sp (byte :: bytes)
      ↔ r.read (Execution.stackAddress (sp + 1)) = byte ∧ r.Stacked (sp + 1) bytes := by
  have hnext (i : Nat) : sp + UInt8.ofNat (i + 1 + 1) = sp + 1 + UInt8.ofNat (i + 1) := by
    rw [UInt8.ofNat_add (i + 1) 1, UInt8.add_comm (UInt8.ofNat (i + 1)), ← UInt8.add_assoc]
    rfl
  constructor
  · intro h
    refine ⟨h 0 (by simp), fun i hi => ?_⟩
    rw [← hnext]
    exact h (i + 1) (by simpa using hi)
  · rintro ⟨hbyte, hbytes⟩ i hi
    cases i with
    | zero => simpa using hbyte
    | succ i =>
      rw [hnext]
      exact hbytes i (by simpa using hi)

/-- A push adds a byte, as long as there is room for it. -/
theorem Stacked.push (h : r.Stacked sp bytes) (hfull : r.IsFull) (hlength : bytes.length < 256)
    (byte : UInt8) :
    (r.write (Execution.stackAddress sp) byte).Stacked (sp - 1) (byte :: bytes) := by
  rw [stacked_cons, UInt8.sub_add_cancel]
  refine ⟨by rw [hfull.read_write, if_pos rfl], fun i hi => ?_⟩
  -- fewer than 256 places above the pointer do not reach around to it
  have hapart : Execution.stackAddress sp ≠ Execution.stackAddress (sp + UInt8.ofNat (i + 1)) := by
    rw [Ne, Execution.stackAddress_inj, ← UInt8.toNat_inj, UInt8.toNat_add, UInt8.toNat_ofNat']
    have hsp := sp.toNat_lt
    omega
  rw [hfull.read_write, if_neg hapart, h i hi]

end Ram

/-! ## Several bytes -/

namespace Execution

variable {M : Type} [Memory M]

/-- Pushes bytes one after the other. -/
def pushAll (e : Execution M) (bytes : List UInt8) : Execution M := bytes.foldl push e

/-- Pulls so many bytes. -/
def pullAll (e : Execution M) : Nat → List UInt8 × Execution M
  | 0 => ([], e)
  | count + 1 =>
    let (byte, e) := e.pull
    let (bytes, e) := e.pullAll count
    (byte :: bytes, e)

/-- Pushes move the stack pointer and no other register, -/
theorem registers_pushAll (e : Execution M) (bytes : List UInt8) :
    (e.pushAll bytes).registers
      = { e.registers with sp := e.registers.sp - UInt8.ofNat bytes.length } := by
  induction bytes generalizing e with
  | nil =>
    have hstay : e.registers.sp - UInt8.ofNat 0 = e.registers.sp := UInt8.sub_zero _
    rw [List.length_nil, hstay]
    rfl
  | cons byte bytes ih =>
    have hnext : e.registers.sp - 1 - UInt8.ofNat bytes.length
        = e.registers.sp - UInt8.ofNat (bytes.length + 1) := by
      rw [UInt8.ofNat_add]
      grind
    rw [List.length_cons, ← hnext]
    exact ih (e.push byte)

variable {e : Execution Ram} {bytes below : List UInt8}

/-- and write where it was. -/
theorem memory_pushAll (e : Execution Ram) (bytes : List UInt8) :
    (e.pushAll bytes).memory = e.memory.writeAll (stackWrites e.registers.sp bytes) := by
  induction bytes generalizing e with
  | nil => rfl
  | cons byte bytes ih =>
    rw [stackWrites, ← stackAddress_eq]
    exact ih (e.push byte)

/-- What is pushed lies on top of what was there, if both fit into the page. -/
theorem stacked_pushAll (hfull : e.memory.IsFull)
    (h : e.memory.Stacked e.registers.sp below) (hlength : bytes.length + below.length ≤ 256) :
    (e.pushAll bytes).memory.Stacked (e.pushAll bytes).registers.sp (bytes.reverse ++ below) := by
  induction bytes generalizing e below with
  | nil => exact h
  | cons byte bytes ih =>
    rw [List.length_cons] at hlength
    rw [List.reverse_cons, List.append_assoc]
    have hpush : (e.push byte).memory.Stacked (e.push byte).registers.sp (byte :: below) :=
      h.push hfull (by omega) byte
    refine ih (hfull.write _ _) hpush ?_
    rw [List.length_append, List.length_singleton]
    omega

/-- What is on the stack can be pulled. -/
theorem pullAll_of_stacked (h : e.memory.Stacked e.registers.sp bytes) :
    e.pullAll bytes.length
      = (bytes,
        { e with
          registers :=
            { e.registers with sp := e.registers.sp + UInt8.ofNat bytes.length } }) := by
  induction bytes generalizing e with
  | nil =>
    have hstay : e.registers.sp + UInt8.ofNat 0 = e.registers.sp := UInt8.add_zero _
    rw [List.length_nil, hstay]
    rfl
  | cons byte bytes ih =>
    obtain ⟨hbyte, hbytes⟩ := Ram.stacked_cons.mp h
    have hnext : e.registers.sp + 1 + UInt8.ofNat bytes.length
        = e.registers.sp + UInt8.ofNat (bytes.length + 1) := by
      rw [UInt8.ofNat_add]
      grind
    have hpull : e.pull = (byte, e.pull.2) := Prod.ext hbyte rfl
    have hrest : e.pull.2.memory.Stacked e.pull.2.registers.sp bytes := hbytes
    rw [List.length_cons, ← hnext, pullAll, hpull]
    simp only [ih hrest]
    rfl

end Execution

/-- Pushes go to page 1. -/
theorem page_of_mem_stackWrites {sp : UInt8} {bytes : List UInt8} {w : UInt16 × UInt8}
    (h : w ∈ stackWrites sp bytes) : 0x0100 ≤ w.1 ∧ w.1 ≤ 0x01FF := by
  induction bytes generalizing sp with
  | nil => cases h
  | cons byte bytes ih =>
    rw [stackWrites, List.mem_cons] at h
    rcases h with rfl | h
    · have hsp := sp.toNat_lt
      rw [← Execution.stackAddress_eq, UInt16.le_iff_toNat_le, UInt16.le_iff_toNat_le,
        Execution.stackAddress, toNat_word]
      have hone : (1 : UInt8).toNat = 1 := rfl
      have hlow : (0x0100 : UInt16).toNat = 256 := rfl
      have hhigh : (0x01FF : UInt16).toNat = 511 := rfl
      omega
    · exact ih h

/-! ## Calls -/

namespace Machine

/-- The machine after so many instructions. -/
def stepped (m : Machine Ram) : Nat → Machine Ram
  | 0 => m
  | count + 1 => m.step.machine.stepped count

variable {m : Machine Ram}

/-- Without requests at first there is nothing to service later. -/
theorem not_accepts_stepped (hrequests : m.cpu.requests = .none) (count : Nat) :
    ¬ (m.stepped count).Accepts := by
  induction count generalizing m with
  | zero => exact not_accepts hrequests
  | succ count ih =>
    refine ih ?_
    rw [step_of_not_accepts (not_accepts hrequests)]
    exact hrequests

theorem stepped_add (m : Machine Ram) (count count' : Nat) :
    m.stepped (count + count') = (m.stepped count).stepped count' := by
  induction count generalizing m with
  | zero => rw [Nat.zero_add, stepped]
  | succ count ih =>
    rw [Nat.add_right_comm]
    exact ih m.step.machine

/-- A call leaves the address of its last byte on the stack. -/
theorem step_of_call (haccepts : ¬ m.Accepts) (hop : m.nextInstruction.operation = .jsr) :
    m.step.machine =
      { cpu :=
          { m.cpu with
            registers :=
              { m.cpu.registers with sp := m.cpu.registers.sp - 1 - 1, pc := m.operandWord } }
        memory :=
          (m.memory.write (Execution.stackAddress m.cpu.registers.sp)
              (highByte (m.cpu.registers.pc + 2))).write
            (Execution.stackAddress (m.cpu.registers.sp - 1))
            (lowByte (m.cpu.registers.pc + 2)) } := by
  have haction : m.nextAction = .call := by
    rw [nextAction, hop]
    rfl
  have hlast : m.cpu.registers.pc + 1 + 1 + 1 - 1 = m.cpu.registers.pc + 2 := by grind
  rw [step_of_uninterrupted haccepts (by rw [haction]; rfl), execute_eq, haction, ← hlast,
    ← fetchWord_begun]
  rfl

/-- A return goes on behind the address that it finds on the stack. -/
theorem step_of_returnFromCall (haccepts : ¬ m.Accepts) (hop : m.nextInstruction.operation = .rts) :
    m.step.machine =
      { cpu :=
          { m.cpu with
            registers :=
              { m.cpu.registers with
                sp := m.cpu.registers.sp + 1 + 1
                pc := word (m.memory.read (Execution.stackAddress (m.cpu.registers.sp + 1)))
                  (m.memory.read (Execution.stackAddress (m.cpu.registers.sp + 1 + 1))) + 1 } }
        memory := m.memory } := by
  have haction : m.nextAction = .returnFromCall := by
    rw [nextAction, hop]
    rfl
  rw [step_of_uninterrupted haccepts (by rw [haction]; rfl), execute_eq, haction]
  rfl

/-- A machine has come back to the stack of another: it is where it may be in the program,
with all other registers as they were, and these bytes are still on the stack. -/
structure Restored (m m' : Machine Ram) (bytes : List UInt8) : Prop where
  isFull : m'.memory.IsFull
  cpu_eq : m'.cpu = { m.cpu with registers := m.cpu.registers.withPc m'.cpu.registers.pc }
  stacked : m'.memory.Stacked m.cpu.registers.sp bytes

/-- If what is called leaves the stack as it found it, the return from it comes back behind
the call. -/
theorem Restored.of_call {m' : Machine Ram} {bytes : List UInt8} (haccepts : ¬ m.Accepts)
    (haccepts' : ¬ m'.Accepts) (hcall : m.nextInstruction.operation = .jsr)
    (hbody : m.step.machine.Restored m'
      (lowByte (m.cpu.registers.pc + 2) :: highByte (m.cpu.registers.pc + 2) :: bytes))
    (hreturn : m'.nextInstruction.operation = .rts) :
    m.Restored m'.step.machine bytes
      ∧ m'.step.machine.cpu.registers.pc = m.cpu.registers.pc + 3 := by
  have hcalled := step_of_call haccepts hcall
  have hsp : m.step.machine.cpu.registers.sp = m.cpu.registers.sp - 1 - 1 := by rw [hcalled]
  have hcpu := hbody.cpu_eq
  have hstacked := hbody.stacked
  have hsp' : m'.cpu.registers.sp = m.cpu.registers.sp - 1 - 1 := by
    rw [hcpu, ← hsp]
    rfl
  rw [hsp, Ram.stacked_cons, Ram.stacked_cons] at hstacked
  obtain ⟨hlow, hhigh, hbelow⟩ := hstacked
  have hpc : m.cpu.registers.pc + 2 + 1 = m.cpu.registers.pc + 3 := UInt16.add_assoc _ 2 1
  have hreturned := step_of_returnFromCall haccepts' hreturn
  rw [hsp', hlow, hhigh, word_lowByte_highByte, hpc, UInt8.sub_add_cancel,
    UInt8.sub_add_cancel] at hreturned
  rw [UInt8.sub_add_cancel, UInt8.sub_add_cancel] at hbelow
  rw [hreturned]
  refine ⟨⟨hbody.isFull, ?_, hbelow⟩, rfl⟩
  simp only
  rw [hcpu, hcalled]
  rfl

/-- So many calls are executed, one inside the other, and then as many returns. -/
structure Nests (m : Machine Ram) (n : Nat) : Prop where
  calls : ∀ k < n, (m.stepped k).nextInstruction.operation = .jsr
  returns : ∀ k < n, (m.stepped (n + k)).nextInstruction.operation = .rts

/-- What it is that as many returns follow so many calls and undo them: behind each return,
the last call first, the registers are those in front of the call, and the program goes on
behind it. -/
def Unwinds (m : Machine Ram) (n : Nat) : Prop :=
  ∀ i < n, (m.stepped (2 * n - i)).cpu.registers
    = (m.stepped i).cpu.registers.withPc ((m.stepped i).cpu.registers.pc + 3)

/-- Calls that are made one inside the other return in reverse order. The induction is on
their number: the first call encloses the others, which leave the stack as they found it. -/
theorem calls_return {n : Nat} {bytes : List UInt8} (hfull : m.memory.IsFull)
    (haccepts : ∀ k < 2 * n, ¬ (m.stepped k).Accepts)
    (hstacked : m.memory.Stacked m.cpu.registers.sp bytes) (hroom : 2 * n + bytes.length ≤ 256)
    (hnests : m.Nests n) :
    m.Restored (m.stepped (2 * n)) bytes ∧ m.Unwinds n := by
  induction n generalizing m bytes with
  | zero => exact ⟨⟨hfull, rfl, hstacked⟩, by intro i hi; cases hi⟩
  | succ n ih =>
    -- the first call, and the last return, which is the one that belongs to it
    have hcall : m.nextInstruction.operation = .jsr := hnests.calls 0 (by omega)
    have haccepts₀ : ¬ m.Accepts := haccepts 0 (by omega)
    have hlast : (m.step.machine.stepped (2 * n)).nextInstruction.operation = .rts := by
      have hreturn := hnests.returns n (by omega)
      rwa [Nat.add_right_comm, ← Nat.two_mul] at hreturn
    have haccepts₁ : ¬ (m.step.machine.stepped (2 * n)).Accepts := haccepts (2 * n + 1) (by omega)
    -- what is between them
    have hstacked' : m.step.machine.memory.Stacked m.step.machine.cpu.registers.sp
        (lowByte (m.cpu.registers.pc + 2) :: highByte (m.cpu.registers.pc + 2) :: bytes) := by
      rw [step_of_call haccepts₀ hcall]
      refine (hstacked.push hfull (by omega) _).push (hfull.write _ _) ?_ _
      rw [List.length_cons]
      omega
    have hroom' : 2 * n + (lowByte (m.cpu.registers.pc + 2)
        :: highByte (m.cpu.registers.pc + 2) :: bytes).length ≤ 256 := by
      simp only [List.length_cons]
      omega
    have hnests' : m.step.machine.Nests n := by
      refine ⟨fun k hk => hnests.calls (k + 1) (by omega), fun k hk => ?_⟩
      have hreturn := hnests.returns k (by omega)
      rwa [Nat.add_right_comm] at hreturn
    obtain ⟨hbody, hinside⟩ := ih (isFull_step hfull) (fun k hk => haccepts (k + 1) (by omega))
      hstacked' hroom' hnests'
    obtain ⟨hrestored, hpc⟩ := Restored.of_call haccepts₀ haccepts₁ hcall hbody hlast
    have hback : m.stepped (2 * (n + 1)) = (m.step.machine.stepped (2 * n)).step.machine :=
      m.step.machine.stepped_add (2 * n) 1
    rw [← hback] at hrestored hpc
    refine ⟨hrestored, fun i hi => ?_⟩
    cases i with
    | zero =>
      rw [Nat.sub_zero, hrestored.cpu_eq, hpc]
      rfl
    | succ i =>
      have hcount : 2 * (n + 1) - (i + 1) = 2 * n - i + 1 := by omega
      rw [hcount]
      exact hinside i (by omega)

end Machine

/-! ## Programs of calls -/

namespace Ram

/-- These bytes are in memory from an address on, where they are not overwritten. -/
def Keeps (r : Ram) (used : UInt16 → Prop) (start : UInt16) (bytes : List UInt8) : Prop :=
  r.Holds start bytes ∧ ∀ i < bytes.length, ¬ used (start + UInt16.ofNat i)

/-- Where the return of a routine is that makes so many calls, one inside the other: behind
its own call, if it makes one. -/
def returnOf : Nat → UInt16 → UInt16
  | 0, start => start
  | _ + 1, start => start + 3

/-- The memory has a call at an address, to a routine that makes the other calls, one
inside the other, and returns. -/
def Calls (r : Ram) (used : UInt16 → Prop) : Nat → UInt16 → Prop
  | 0, _ => True
  | n + 1, start => ∃ routine,
      r.Keeps used start [0x20, lowByte routine, highByte routine]
        ∧ r.Calls used n routine
        ∧ r.Keeps used (returnOf n routine) [0x60]

variable {r r' : Ram} {used : UInt16 → Prop}

/-- A program that is kept from what is used stays as it is, -/
theorem Keeps.of_agree {start : UInt16} {bytes : List UInt8} (h : r.Keeps used start bytes)
    (hagree : ∀ address, ¬ used address → r'.read address = r.read address) :
    r'.Keeps used start bytes := by
  refine ⟨h.1.of_agree ?_, h.2⟩
  rintro address ⟨i, hi, rfl⟩
  exact hagree _ (h.2 i hi)

/-- and so do the subroutines it calls. -/
theorem Calls.of_agree {n : Nat} {start : UInt16} (h : r.Calls used n start)
    (hagree : ∀ address, ¬ used address → r'.read address = r.read address) :
    r'.Calls used n start := by
  induction n generalizing start with
  | zero => trivial
  | succ n ih =>
    obtain ⟨routine, hcall, hinside, hreturn⟩ := h
    exact ⟨routine, hcall.of_agree hagree, ih hinside, hreturn.of_agree hagree⟩

end Ram

namespace Machine

variable {m : Machine Ram} {used : UInt16 → Prop}

theorem operation_of_keeps {opcode : UInt8} {rest : List UInt8}
    (h : m.memory.Keeps used m.cpu.registers.pc (opcode :: rest)) :
    m.nextInstruction.operation = (Opcode.decode opcode).operation := by
  rw [nextInstruction, nextOpcode_of_holds h.1]

/-- Where a call goes, and that it overwrites nothing but two bytes of the stack. -/
theorem step_of_keeps (hfull : m.memory.IsFull) (haccepts : ¬ m.Accepts) {routine : UInt16}
    (hcode : m.memory.Keeps used m.cpu.registers.pc [0x20, lowByte routine, highByte routine])
    (hhigh : used (Execution.stackAddress m.cpu.registers.sp))
    (hlow : used (Execution.stackAddress (m.cpu.registers.sp - 1))) :
    m.step.machine.cpu.registers
        = { m.cpu.registers with sp := m.cpu.registers.sp - 1 - 1, pc := routine }
      ∧ ∀ address, ¬ used address →
          m.step.machine.memory.read address = m.memory.read address := by
  rw [step_of_call haccepts (operation_of_keeps hcode), operandWord_of_holds hcode.1]
  refine ⟨rfl, fun address haddress => ?_⟩
  have hapart {slot : UInt16} (hslot : used slot) : slot ≠ address := by
    rintro rfl
    exact haddress hslot
  simp only
  rw [(hfull.write _ _).read_write, hfull.read_write, if_neg (hapart hlow),
    if_neg (hapart hhigh)]

/-- A routine is at its return when the calls that it makes have returned. -/
theorem pc_of_nests {n : Nat} (hfull : m.memory.IsFull) (hn : n ≤ 128)
    (haccepts : ∀ k < 2 * n, ¬ (m.stepped k).Accepts) (hnests : m.Nests n) :
    (m.stepped (2 * n)).cpu.registers.pc = Ram.returnOf n m.cpu.registers.pc := by
  cases n with
  | zero => rfl
  | succ n =>
    have hroom : 2 * (n + 1) + ([] : List UInt8).length ≤ 256 := by
      rw [List.length_nil]
      omega
    obtain ⟨-, hunwinds⟩ := calls_return hfull haccepts (m.memory.stacked_nil _) hroom hnests
    have hreturned := hunwinds 0 (by omega)
    rw [Nat.sub_zero] at hreturned
    rw [hreturned]
    rfl

/-- A program of calls makes them, and then returns from them, and overwrites nothing but
the bytes of the stack that it uses. -/
theorem executes_calls {n : Nat} (hfull : m.memory.IsFull) (hn : n ≤ 128)
    (haccepts : ∀ k < 2 * n, ¬ (m.stepped k).Accepts)
    (hused : ∀ j < 2 * n, used (Execution.stackAddress (m.cpu.registers.sp - UInt8.ofNat j)))
    (hcalls : m.memory.Calls used n m.cpu.registers.pc) :
    m.Nests n
      ∧ ∀ address, ¬ used address →
          (m.stepped (2 * n)).memory.read address = m.memory.read address := by
  induction n generalizing m with
  | zero => exact ⟨⟨nofun, nofun⟩, fun _ _ => rfl⟩
  | succ n ih =>
    obtain ⟨routine, hcall, hinside, hreturn⟩ := hcalls
    have haccepts₀ : ¬ m.Accepts := haccepts 0 (by omega)
    have hhigh : used (Execution.stackAddress m.cpu.registers.sp) := by
      have hslot := hused 0 (by omega)
      rwa [show m.cpu.registers.sp - UInt8.ofNat 0 = m.cpu.registers.sp from UInt8.sub_zero _]
        at hslot
    obtain ⟨hregisters, hagree⟩ := step_of_keeps hfull haccepts₀ hcall hhigh (hused 1 (by omega))
    -- the routine that is called
    obtain ⟨m', hm'⟩ : ∃ m', m.step.machine = m' := ⟨_, rfl⟩
    have hstepped (k : Nat) : m.stepped (k + 1) = m'.stepped k := by rw [← hm', stepped]
    rw [hm'] at hregisters hagree
    have hfull' : m'.memory.IsFull := by
      rw [← hm']
      exact isFull_step hfull
    have haccepts' : ∀ k < 2 * n, ¬ (m'.stepped k).Accepts := by
      intro k hk
      rw [← hstepped]
      exact haccepts (k + 1) (by omega)
    have hused' : ∀ j < 2 * n,
        used (Execution.stackAddress (m'.cpu.registers.sp - UInt8.ofNat j)) := by
      intro j hj
      have hslot : m.cpu.registers.sp - UInt8.ofNat (j + 2)
          = m'.cpu.registers.sp - UInt8.ofNat j := by
        rw [hregisters, UInt8.ofNat_add]
        grind
      rw [← hslot]
      exact hused (j + 2) (by omega)
    have hinside' : m'.memory.Calls used n m'.cpu.registers.pc := by
      rw [hregisters]
      exact hinside.of_agree hagree
    obtain ⟨hnests, hkeeps⟩ := ih hfull' (by omega) haccepts' hused' hinside'
    -- the return from it
    have hback (address : UInt16) (h : ¬ used address) :
        (m'.stepped (2 * n)).memory.read address = m.memory.read address :=
      (hkeeps address h).trans (hagree address h)
    have hpc : (m'.stepped (2 * n)).cpu.registers.pc = Ram.returnOf n routine := by
      rw [pc_of_nests hfull' (by omega) haccepts' hnests, hregisters]
    have hlast : (m'.stepped (2 * n)).nextInstruction.operation = .rts := by
      have hcode := hreturn.of_agree hback
      rw [← hpc] at hcode
      exact operation_of_keeps hcode
    refine ⟨⟨?_, ?_⟩, ?_⟩
    · intro k hk
      cases k with
      | zero => exact operation_of_keeps hcall
      | succ k =>
        rw [hstepped]
        exact hnests.calls k (by omega)
    · intro k hk
      rw [Nat.add_right_comm, hstepped]
      obtain h | rfl : k < n ∨ k = n := by omega
      · exact hnests.returns k h
      · rw [← Nat.two_mul, hlast]
    · intro address haddress
      have hend : m.stepped (2 * (n + 1)) = (m'.stepped (2 * n)).step.machine := by
        rw [show 2 * (n + 1) = 2 * n + 1 + 1 by omega, hstepped, stepped_add _ (2 * n) 1]
        rfl
      have haccepts₁ : ¬ (m'.stepped (2 * n)).Accepts := by
        rw [← hstepped]
        exact haccepts (2 * n + 1) (by omega)
      rw [hend, step_of_returnFromCall haccepts₁ hlast]
      exact hback address haddress

end Machine

/-! ## The stack -/

/-- Where a byte is that is pushed among others. -/
theorem Execution.read_pushAll {e : Execution Ram} (hfull : e.memory.IsFull)
    {before after : List UInt8} {byte : UInt8}
    (hlength : (before ++ byte :: after).length ≤ 256) :
    (e.pushAll (before ++ byte :: after)).memory.read
        (stackAddress (e.pushAll before).registers.sp) = byte := by
  have hstacked := stacked_pushAll hfull (e.memory.stacked_nil e.registers.sp) hlength
  have hplace : (e.pushAll (before ++ byte :: after)).registers.sp + UInt8.ofNat (after.length + 1)
      = (e.pushAll before).registers.sp := by
    simp only [registers_pushAll, List.length_append, List.length_cons, UInt8.ofNat_add]
    grind
  have hread := hstacked after.length (by simp)
  rw [hplace] at hread
  simpa using hread

/-- The bytes of the stack that so many pushes overwrite. -/
def Machine.Pushes (m : Machine Ram) (bytes : Nat) (address : UInt16) : Prop :=
  ∃ j < bytes, 0x0100 ||| (m.cpu.registers.sp - UInt8.ofNat j).toUInt16 = address

/-- The stack is a stack of 256 bytes. Up to so many bytes that are pushed go each to the
place of the stack pointer, and nowhere but to page 1; as many pulls give them back, the
last one first, and the stack pointer with them. Up to 128 calls, one inside the other,
and as many returns: each return comes back behind the call that it belongs to, the last
one first, with all other registers as that call found them, wherever the calls are. And
a program of such calls makes them and returns from them, if it is not where the stack
overwrites it. -/
theorem stack_is_lifo :
    (∀ (e : Execution Ram) (bytes : List UInt8), e.memory.IsFull → bytes.length ≤ 256 →
        let pushed := e.pushAll bytes
        (∀ before byte after, bytes = before ++ byte :: after →
            pushed.memory.read (0x0100 ||| (e.pushAll before).registers.sp.toUInt16) = byte)
          ∧ (∀ address : UInt16, address < 0x0100 ∨ 0x01FF < address →
              pushed.memory.read address = e.memory.read address)
          ∧ pushed.pullAll bytes.length
            = (bytes.reverse, { pushed with registers := e.registers }))
      ∧ ∀ (m : Machine Ram) (n : Nat), m.memory.IsFull → n ≤ 128 →
          (∀ k < 2 * n, ¬ (m.stepped k).Accepts) →
          (m.Nests n → m.Unwinds n)
            ∧ (m.memory.Calls (m.Pushes (2 * n)) n m.cpu.registers.pc → m.Nests n) := by
  refine ⟨?_, ?_⟩
  · intro e bytes hfull hlength pushed
    refine ⟨?_, ?_, ?_⟩
    · rintro before byte after rfl
      rw [← Execution.stackAddress_eq]
      exact Execution.read_pushAll hfull hlength
    · intro address haddress
      show (e.pushAll bytes).memory.read address = _
      rw [Execution.memory_pushAll, hfull.read_writeAll_of_not_mem]
      rintro w hw rfl
      obtain ⟨hlow, hhigh⟩ := page_of_mem_stackWrites hw
      grind
    · have hstacked := Execution.stacked_pushAll hfull (e.memory.stacked_nil e.registers.sp) hlength
      rw [List.append_nil] at hstacked
      have hback : { pushed.registers with
          sp := pushed.registers.sp + UInt8.ofNat bytes.reverse.length } = e.registers := by
        rw [List.length_reverse, Execution.registers_pushAll]
        simp only [UInt8.sub_add_cancel]
      rw [← hback, ← bytes.length_reverse]
      exact Execution.pullAll_of_stacked hstacked
  · intro m n hfull hn haccepts
    constructor
    · intro hnests
      exact (Machine.calls_return hfull haccepts (m.memory.stacked_nil _)
        (by rw [List.length_nil]; omega) hnests).2
    · intro hcalls
      have hused : ∀ j < 2 * n, m.Pushes (2 * n)
          (Execution.stackAddress (m.cpu.registers.sp - UInt8.ofNat j)) :=
        fun j hj => ⟨j, hj, (Execution.stackAddress_eq _).symm⟩
      exact (Machine.executes_calls hfull hn haccepts hused hcalls).1

/-- A call at the end of memory, and another inside it, with two bytes left on the stack
before it wraps. -/
def nestedCalls : Machine Ram :=
  .inFrontOf { a := 0, x := 0, y := 0, sp := 0x01, pc := 0xFFFE, status := .powerOn }
    [0x20, 0x02, 0x00, 0xEA, 0x20, 0x06, 0x00, 0x60, 0x60]

/-- Four bytes around page 1, and two calls: the first is to `$0002`, the second to
`$0006`. -/
theorem stack_is_lifo_atWrap :
    nestedCalls.memory.IsFull
      ∧ (nestedCalls.begun.pushAll [1, 2, 3, 4]).memory.read 0x01FF = 3
      ∧ ((nestedCalls.begun.pushAll [1, 2, 3, 4]).pullAll 4).1 = [4, 3, 2, 1]
      ∧ (nestedCalls.stepped 3).cpu.registers
        = (nestedCalls.stepped 1).cpu.registers.withPc
          ((nestedCalls.stepped 1).cpu.registers.pc + 3)
      ∧ (nestedCalls.stepped 4).cpu.registers.pc = 0x0001
      ∧ (nestedCalls.stepped 4).cpu.registers.sp = 0x01 := by
  have hfull : nestedCalls.memory.IsFull := Machine.isFull_inFrontOf _ _
  have hread (address : UInt16) : nestedCalls.memory.read address
      = ([0x20, 0x02, 0x00, 0xEA, 0x20, 0x06, 0x00, 0x60, 0x60][(address - 0xFFFE).toNat]?).getD
        0 := Machine.read_inFrontOf _ (by decide) address
  have hprogram : nestedCalls.memory.Calls (nestedCalls.Pushes 4) 2 0xFFFE := by
    have hkeeps {start : UInt16} {bytes : List UInt8}
        (hbytes : nestedCalls.memory.Holds start bytes)
        (hapart : ∀ i < bytes.length, ∀ j < 4,
          0x0100 ||| ((0x01 : UInt8) - UInt8.ofNat j).toUInt16 ≠ start + UInt16.ofNat i) :
        nestedCalls.memory.Keeps (nestedCalls.Pushes 4) start bytes := by
      refine ⟨hbytes, ?_⟩
      rintro i hi ⟨j, hj, h⟩
      exact hapart i hi j hj h
    refine ⟨0x0002, hkeeps ?_ (by decide), ⟨0x0006, hkeeps ?_ (by decide), trivial,
      hkeeps ?_ (by decide)⟩, hkeeps ?_ (by decide)⟩
    all_goals simp only [Ram.holds_cons, Ram.holds_nil, and_true]
    · exact ⟨hread 0xFFFE, hread 0xFFFF, hread 0x0000⟩
    · exact ⟨hread 0x0002, hread 0x0003, hread 0x0004⟩
    · exact hread 0x0006
    · exact hread 0x0005
  obtain ⟨hbytes, hcalls⟩ := stack_is_lifo
  obtain ⟨hplaces, -, hpulls⟩ := hbytes nestedCalls.begun [1, 2, 3, 4] hfull (by decide)
  obtain ⟨hunwinds, hnests⟩ := hcalls nestedCalls 2 hfull (by decide)
    (fun k _ => Machine.not_accepts_stepped rfl k)
  have hreturned := hunwinds (hnests hprogram)
  have houter : (nestedCalls.stepped 4).cpu.registers = nestedCalls.cpu.registers.withPc 0x0001 :=
    hreturned 0 (by decide)
  refine ⟨hfull, hplaces [1, 2] 3 [4] rfl, congrArg Prod.fst hpulls, hreturned 1 (by decide),
    ?_, ?_⟩
  · rw [houter]
    rfl
  · rw [houter]
    rfl

end VideoComputer
