/-
VideoComputer.Proofs.Cpu.Calls — everything a user of the processor can do with
it, in any order.

A processor executes an instruction, has one of its lines raised, or is reset. A
call for an instruction is answered with the cycles it took and what there was
to report; the other two are not answered.

* `Machine.Call`, `drive` — the calls, and the machine behind a list of them.
* `Machine.answers` — what the calls of a list are answered with.
-/
import VideoComputer.Cpu.Machine

namespace VideoComputer.Machine

/-- Something a user does with a processor. -/
inductive Call where
  | step
  | interrupt (line : Interrupt)
  | reset
  deriving DecidableEq, Repr

/-- The answer to a call for an instruction. -/
structure Answer where
  cycles : Nat
  notices : Array Notice

variable {M : Type} [Memory M]

/-- The machine after a call. -/
def call (m : Machine M) : Call → Machine M
  | .step => m.step.machine
  | .interrupt line => m.interrupt line
  | .reset => m.reset

/-- The answer to a call, if it is answered. -/
def answer? (m : Machine M) : Call → Option Answer
  | .step => some ⟨m.step.cycles, m.step.notices⟩
  | .interrupt _ | .reset => none

/-- The machine after several calls. -/
def drive (m : Machine M) (calls : List Call) : Machine M := calls.foldl call m

/-- The answers to several calls. -/
def answers (m : Machine M) : List Call → List Answer
  | [] => []
  | c :: calls => (m.answer? c).toList ++ (m.call c).answers calls

@[simp] theorem drive_cons (m : Machine M) (c : Call) (calls : List Call) :
    m.drive (c :: calls) = (m.call c).drive calls := rfl

@[simp] theorem answers_cons (m : Machine M) (c : Call) (calls : List Call) :
    m.answers (c :: calls) = (m.answer? c).toList ++ (m.call c).answers calls := rfl

end VideoComputer.Machine
