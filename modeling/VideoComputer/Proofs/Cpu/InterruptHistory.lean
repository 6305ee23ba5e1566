/-
VideoComputer.Proofs.Cpu.InterruptHistory — requests over a whole history.

Between two resets a processor executes instructions, and meanwhile its lines
are raised, in any order. What a line has to show for it is written in the
history alone: a request is outstanding if it was made and nothing was serviced
since. `Machine.Outstanding` says so without looking at the processor's own
account of its requests, and `pending_run` shows that the account is right.

* `pending_run` — the requests that are pending are the outstanding ones.
* `interrupts_delivered` — which instructions are followed by a service, and of
  which line.
-/
import VideoComputer.Proofs.Cpu.Interrupts

namespace VideoComputer.Machine

/-! ## Histories -/

/-- Something that happens to a processor that is not reset. -/
inductive Event where
  | step
  | raise (line : Interrupt)
  deriving DecidableEq, Repr

section

variable {M : Type} [Memory M]

/-- The machine after an event. -/
def after (m : Machine M) : Event → Machine M
  | .step => m.step.machine
  | .raise line => m.interrupt line

/-- The machine after several events. -/
def run (m : Machine M) (events : List Event) : Machine M := events.foldl after m

@[simp] theorem run_nil (m : Machine M) : m.run [] = m := rfl

@[simp] theorem run_cons (m : Machine M) (e : Event) (events : List Event) :
    m.run (e :: events) = (m.after e).run events := rfl

theorem run_append (m : Machine M) (events events' : List Event) :
    m.run (events ++ events') = (m.run events).run events' := List.foldl_append

end

/-- Whether no instruction of a history is followed by a service. -/
def NeverServiced (m : Machine Ram) (events : List Event) : Prop :=
  ∀ first rest, events = first ++ .step :: rest → ∀ line, ¬ (m.run first).Serviced line

/-- Whether a line was raised in a history, and nothing was serviced since. -/
def Outstanding (m : Machine Ram) (line : Interrupt) (events : List Event) : Prop :=
  ∃ first rest, events = first ++ .raise line :: rest
    ∧ ((m.run first).interrupt line).NeverServiced rest

/-! ## One event at a time -/

section

variable (m : Machine Ram) (events : List Event)

theorem neverServiced_nil : m.NeverServiced [] := by
  intro first rest h
  exact absurd h.symm (List.append_ne_nil_of_right_ne_nil _ (List.cons_ne_nil _ _))

theorem neverServiced_step :
    m.NeverServiced (.step :: events)
      ↔ (∀ line, ¬ m.Serviced line) ∧ m.step.machine.NeverServiced events := by
  constructor
  · intro h
    refine ⟨h [] events rfl, ?_⟩
    intro first rest hevents
    exact h (.step :: first) rest (by rw [hevents]; rfl)
  · rintro ⟨hnow, hlater⟩ first rest hevents
    obtain ⟨rfl, -⟩ | ⟨first', rfl, hrest⟩ := List.cons_eq_append_iff.mp hevents
    · exact hnow
    · exact hlater first' rest hrest

theorem neverServiced_raise (line : Interrupt) :
    m.NeverServiced (.raise line :: events) ↔ (m.interrupt line).NeverServiced events := by
  constructor
  · intro h first rest hevents
    exact h (.raise line :: first) rest (by rw [hevents]; rfl)
  · intro h first rest hevents
    obtain ⟨-, hhead⟩ | ⟨first', rfl, hrest⟩ := List.cons_eq_append_iff.mp hevents
    · cases hhead
    · exact h first' rest hrest

theorem outstanding_cons (line : Interrupt) (e : Event) :
    m.Outstanding line (e :: events)
      ↔ e = .raise line ∧ (m.interrupt line).NeverServiced events
        ∨ (m.after e).Outstanding line events := by
  constructor
  · rintro ⟨first, rest, hevents, hnever⟩
    obtain ⟨rfl, hhead⟩ | ⟨first', rfl, hrest⟩ := List.cons_eq_append_iff.mp hevents
    · obtain ⟨rfl, rfl⟩ := List.cons.inj hhead
      exact .inl ⟨rfl, hnever⟩
    · exact .inr ⟨first', rest, hrest, hnever⟩
  · rintro (⟨rfl, hnever⟩ | ⟨first, rest, rfl, hnever⟩)
    · exact ⟨[], events, rfl, hnever⟩
    · exact ⟨e :: first, rest, rfl, hnever⟩

end

theorem NeverServiced.append {m : Machine Ram} {events later : List Event}
    (h : m.NeverServiced events) (hlater : (m.run events).NeverServiced later) :
    m.NeverServiced (events ++ later) := by
  induction events generalizing m with
  | nil => exact hlater
  | cons e events ih =>
    cases e with
    | step =>
      obtain ⟨hnow, hrest⟩ := (neverServiced_step m events).mp h
      exact (neverServiced_step m _).mpr ⟨hnow, ih hrest hlater⟩
    | raise line =>
      have hrest := (neverServiced_raise m events line).mp h
      exact (neverServiced_raise m _ line).mpr (ih hrest hlater)

/-- A request outlasts what is never followed by a service. -/
theorem Outstanding.append {m : Machine Ram} {line : Interrupt} {events later : List Event}
    (h : m.Outstanding line events) (hlater : (m.run events).NeverServiced later) :
    m.Outstanding line (events ++ later) := by
  obtain ⟨first, rest, rfl, hnever⟩ := h
  rw [run_append] at hlater
  refine ⟨first, rest ++ later, ?_, hnever.append hlater⟩
  rw [List.append_assoc, List.cons_append]

/-! ## The account of requests -/

theorem isFull_run {m : Machine Ram} (h : m.memory.IsFull) (events : List Event) :
    (m.run events).memory.IsFull := by
  induction events generalizing m with
  | nil => exact h
  | cons e events ih =>
    cases e with
    | step => exact ih (isFull_step h)
    | raise line => exact ih h

/-- A service answers all requests; otherwise they stay. -/
theorem pending_step {m : Machine Ram} (h : m.memory.IsFull) (line : Interrupt) :
    m.step.machine.cpu.requests.pending line = true
      ↔ m.cpu.requests.pending line = true ∧ ∀ line, ¬ m.Serviced line := by
  by_cases haccepts : m.Accepts
  · have hserviced := serviced_of_accepts h haccepts
    rw [hserviced.cpu_eq, Requests.pending_none]
    constructor
    · intro hfalse
      cases hfalse
    · rintro ⟨-, hnone⟩
      exact absurd hserviced (hnone _)
  · have hover := step_of_not_accepts haccepts
    have hnone := not_serviced_of_passedOver hover
    rw [hover]
    exact ⟨fun hpending => ⟨hpending, hnone⟩, And.left⟩

/-- The requests that are pending after a history are those that were pending
before it and those that were made in it, less those that were serviced. -/
theorem pending_run {m : Machine Ram} (h : m.memory.IsFull) (line : Interrupt)
    (events : List Event) :
    (m.run events).cpu.requests.pending line = true
      ↔ m.cpu.requests.pending line = true ∧ m.NeverServiced events
        ∨ m.Outstanding line events := by
  induction events generalizing m with
  | nil =>
    have hnone : ¬ m.Outstanding line [] := by
      rintro ⟨first, rest, hevents, -⟩
      exact absurd hevents.symm (List.append_ne_nil_of_right_ne_nil _ (List.cons_ne_nil _ _))
    simp [hnone, m.neverServiced_nil]
  | cons e events ih =>
    rw [outstanding_cons]
    cases e with
    | step =>
      rw [run_cons, after, ih (isFull_step h), pending_step h, neverServiced_step, and_assoc]
      simp
    | raise raised =>
      have hpending : (m.interrupt raised).cpu.requests.pending line
          = (m.cpu.requests.pending line || decide (raised = line)) := Requests.pending_raise _ _ _
      rw [run_cons, after, ih (m := m.interrupt raised) h, neverServiced_raise, hpending]
      by_cases hline : raised = line
      · -- whatever was pending before, this line is pending now
        subst hline
        simp only [decide_true, Bool.or_true, true_and, ← or_assoc]
        rw [or_iff_right_of_imp And.right]
      · have hother : Event.raise raised ≠ .raise line := fun h => hline (Event.raise.inj h)
        simp [hline, hother]

/-- To ask again is to ask once. -/
theorem interrupt_of_pending {m : Machine Ram} {line : Interrupt}
    (h : m.cpu.requests.pending line = true) : m.interrupt line = m := by
  obtain ⟨cpu, memory⟩ := m
  simp only [interrupt, Requests.raise_of_pending h]

/-! ## Every history -/

/-- Behind each instruction of a history that begins with a reset: the
non-maskable line is serviced if and only if it has an outstanding request, and
the maskable one if it has one, the other has none, and the deciding mask is
open. If neither is serviced, nothing happens but the instruction, and the
requests stay. The requests a processor has are the outstanding ones; to make
one again changes nothing; and a maskable request outlasts any events in which
the mask is closed behind each instruction and the other line has no request. -/
theorem interrupts_delivered {m₀ : Machine Ram} (h : m₀.memory.IsFull) (events : List Event) :
    let start := m₀.reset
    let m := start.run events
    (m.Serviced .nonMaskable ↔ start.Outstanding .nonMaskable events)
      ∧ (m.Serviced .maskable ↔ ¬ start.Outstanding .nonMaskable events
          ∧ start.Outstanding .maskable events ∧ m.decidingMask = false)
      ∧ ((∀ line, ¬ m.Serviced line) → m.PassedOver)
      ∧ (∀ line, m.cpu.requests.pending line = true ↔ start.Outstanding line events)
      ∧ (∀ line, start.Outstanding line events → m.interrupt line = m)
      ∧ ∀ later, start.Outstanding .maskable events →
          (∀ first rest, later = first ++ .step :: rest → (m.run first).decidingMask = true
            ∧ ¬ start.Outstanding .nonMaskable (events ++ first)) →
          start.Outstanding .maskable (events ++ later) := by
  intro start m
  have hstart : start.memory.IsFull := h
  have hm : m.memory.IsFull := isFull_run hstart events
  have hpending (events : List Event) (line : Interrupt) :
      (start.run events).cpu.requests.pending line = true ↔ start.Outstanding line events := by
    rw [pending_run hstart]
    have hnone : start.cpu.requests.pending line = false := Requests.pending_none line
    simp [hnone]
  refine ⟨?_, ?_, ?_, hpending events, ?_, ?_⟩
  · rw [serviced_nonMaskable_iff hm, hpending]
  · rw [serviced_maskable_iff hm, hpending, hpending]
  · intro hnone
    refine step_of_not_accepts ?_
    intro haccepts
    exact hnone _ (serviced_of_accepts hm haccepts)
  · intro line houtstanding
    exact interrupt_of_pending ((hpending events line).mpr houtstanding)
  · intro later houtstanding hclosed
    refine houtstanding.append ?_
    intro first rest hlater line hserviced
    obtain ⟨hmask, hnon⟩ := hclosed first rest hlater
    have hfirst : m.run first = start.run (events ++ first) := (run_append _ _ _).symm
    obtain ⟨haccepts, -⟩ := (serviced_iff (isFull_run hm first) line).mp hserviced
    rcases haccepts with hpends | ⟨-, hopen⟩
    · rw [hfirst] at hpends
      exact hnon ((hpending (events ++ first) .nonMaskable).mp hpends)
    · rw [hmask] at hopen
      cases hopen

/-- A processor on blank memory, before its reset. -/
def onBlankMemory : Machine Ram := powerOn true Ram.full

/-- Both lines are raised after its reset: behind the instruction that follows
the non-maskable one is serviced and the maskable one is not, however often it
is raised. -/
theorem interrupts_delivered_onBlankMemory :
    onBlankMemory.memory.IsFull
      ∧ (onBlankMemory.reset.run [.raise .maskable, .raise .nonMaskable]).Serviced .nonMaskable
      ∧ ¬ (onBlankMemory.reset.run [.raise .maskable, .raise .nonMaskable]).Serviced .maskable
      ∧ (onBlankMemory.reset.run [.raise .maskable, .raise .nonMaskable]).interrupt .maskable
        = onBlankMemory.reset.run [.raise .maskable, .raise .nonMaskable] := by
  have hfull : onBlankMemory.memory.IsFull := Ram.IsFull.full
  have hnon : onBlankMemory.reset.Outstanding .nonMaskable
      [.raise .maskable, .raise .nonMaskable] :=
    ⟨[.raise .maskable], [], rfl, neverServiced_nil _⟩
  have hmaskable : onBlankMemory.reset.Outstanding .maskable
      [.raise .maskable, .raise .nonMaskable] :=
    ⟨[], [.raise .nonMaskable], rfl,
      (neverServiced_raise _ _ _).mpr (neverServiced_nil _)⟩
  obtain ⟨hserviced, hother, -, -, hagain, -⟩ :=
    interrupts_delivered hfull [.raise .maskable, .raise .nonMaskable]
  exact ⟨hfull, hserviced.mpr hnon, fun h => (hother.mp h).1 hnon, hagain .maskable hmaskable⟩

end VideoComputer.Machine
