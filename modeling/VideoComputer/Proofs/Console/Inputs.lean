/-
VideoComputer.Proofs.Console.Inputs — every event reaches the chips, in its turn.

What is held is known in three places: the console keeps it, the ports of the I/O
chip show it, and the video chip has the fire buttons. Events that were sent wait
until a frame begins, are applied in the order in which they were sent, and then
the other two places are brought up to date, unless there was no event. So the
three must have agreed before, which is so at power-on, and nothing between two
frames may touch them: no instruction, no reset and no cartridge.

* `Bus.lines_accessed` — no instruction reaches the lines.
* `Session.eventsInForce` — the events that count by now.
* `Session.Delivers` — the three places agree on them, and the others wait.
* `events_delivered_in_order` — that is so whatever a console is asked for.
-/
import VideoComputer.Proofs.Console.Controls
import VideoComputer.Proofs.Console.Pacing
import VideoComputer.Proofs.Video.Timing

namespace VideoComputer

/-! ## Nothing else reaches the lines -/

namespace Tia

@[simp] theorem fire_write (t : Tia) (address : UInt16) (data : UInt8) :
    (t.write address data).fire = t.fire := by
  rw [write]
  cases VideoRegister.decode address <;> rfl

@[simp] theorem fire_tick (t : Tia) (n : Nat) : (t.tick n).tia.fire = t.fire :=
  keeps_tick (P := fun t' => t'.fire = t.fire) (fun _ _ h => h) (fun _ h => h) (fun _ h => h) rfl n

end Tia

namespace Bus

@[simp] theorem lines_afterRead (b : Bus) (address : UInt16) :
    (b.afterRead address).lines = b.lines := by
  rw [afterRead_eq]
  cases Region.ofAddress address with
  | ports =>
    simp only [lines, Riot.afterRead]
    split <;> rfl
  | _ => rfl

@[simp] theorem lines_write (b : Bus) (address : UInt16) (data : UInt8) :
    (b.write address data).lines = b.lines := by
  rw [write_eq]
  cases Region.ofAddress address with
  | ports =>
    simp only [lines, Riot.write]
    cases RiotTarget.decode (Device.wired address) with
    | output name => cases name <;> rfl
    | direction name => cases name <;> rfl
    | _ => rfl
  | video => simp [lines]
  | _ => rfl

/-- No instruction reaches the lines. -/
theorem lines_accessed {b b' : Bus} (h : Accessed b b') : b'.lines = b.lines :=
  h.unchanged lines_afterRead lines_write

/-- Time does not, -/
theorem lines_tick_clock (b : Bus) (dots cycles : Nat) :
    lines ⟨(b.tia.tick dots).tia, b.riot.clock cycles, b.cartridge⟩ = b.lines := by
  simp [lines, Riot.clock]

/-- and neither does a reset. -/
theorem lines_reset (b : Bus) : b.reset.lines = b.lines := rfl

end Bus

namespace Console

/-! ## What a console has of the controls -/

/-- No instruction changes the lines that the controls drive, -/
theorem lines_step (c : Console) : c.step.console.chips.lines = c.chips.lines := by
  rw [chips_step]
  exact (Bus.lines_tick_clock _ _ _).trans (Bus.lines_accessed c.machine.accessed_step)

/-- no reset does, -/
theorem lines_reset (c : Console) : c.reset.chips.lines = c.chips.lines :=
  (Bus.lines_accessed (Machine.accessed_reset _)).trans (Bus.lines_reset _)

/-- and no cartridge. -/
theorem lines_insert (c : Console) (cartridge : Cartridge) :
    (c.insert cartridge).chips.lines = c.chips.lines := by
  rw [insert_eq]
  exact lines_reset _

/-- What a console has of the controls: what it keeps, what the chips have, and what
waits. -/
structure Wiring where
  controls : Controls
  lines : InputLines
  inbox : List InputEvent
  deriving DecidableEq, Repr

def wiring (c : Console) : Wiring := ⟨c.controls, c.chips.lines, c.inbox⟩

theorem wiring_step (c : Console) : c.step.console.wiring = c.wiring :=
  congrArg (Wiring.mk c.controls · c.inbox) c.lines_step

theorem wiring_reset (c : Console) : c.reset.wiring = c.wiring :=
  congrArg (Wiring.mk c.controls · c.inbox) c.lines_reset

theorem wiring_insert (c : Console) (cartridge : Cartridge) :
    (c.insert cartridge).wiring = c.wiring :=
  congrArg (Wiring.mk c.controls · c.inbox) (c.lines_insert cartridge)

/-- The loop of a frame leaves the wiring alone. -/
theorem FrameLoop.wiring_eq {c c' : Console} {executed : List Console}
    (h : FrameLoop c executed c') : c'.wiring = c.wiring := by
  induction h with
  | done => rfl
  | @next c c' _ _ _ ih => exact ih.trans c.wiring_step

/-- Where the chips have what the console keeps, they do so after the input was
taken, and nothing waits then. -/
theorem wiring_takeInput {c : Console} (h : c.chips.lines = c.controls.lines) :
    let held := c.inbox.foldl Controls.apply c.controls
    c.takeInput.wiring = ⟨held, held.lines, []⟩ := by
  intro held
  unfold takeInput
  simp only
  split
  next hempty =>
    have hnil : c.inbox = [] := List.isEmpty_iff.mp hempty
    have hheld : held = c.controls := by simp only [held, hnil, List.foldl_nil]
    rw [hheld, ← h]
    exact congrArg (Wiring.mk c.controls c.chips.lines) hnil
  next => rfl

/-! ## Sessions -/

/-- The event that a call sends. -/
def Call.sends? : Call → Option InputEvent
  | .send event => some event
  | .step | .runFrame | .reset | .insert _ | .takePicture => none

/-- A frame is run to its end just if there is a cartridge. -/
theorem isNone_stop_runFrame (c : Console) : c.runFrame.stop.isNone = c.hasCartridge := by
  cases hslot : c.hasCartridge with
  | false => rw [runFrame_of_empty hslot]; rfl
  | true =>
    obtain ⟨c', notices, -, hframe⟩ := runFrame_of_hasCartridge hslot
    rw [hframe]
    rfl

namespace Session

/-- Whether a call runs a frame to its end. -/
def succeeds (s : Session) (call : Call) : Bool :=
  call.isFrame && s.console.runFrame.stop.isNone

/-- The events that count: those that were sent before the last frame began that was
run to its end. -/
def eventsInForce (s : Session) (sent inForce : List InputEvent) : List Call → List InputEvent
  | [] => inForce
  | call :: calls =>
    (s.call call).eventsInForce (sent ++ call.sends?.toList)
      (if s.succeeds call then sent else inForce) calls

/-- What is kept of the events sent so far: those in force were applied in order, and
show on the lines; the others wait. -/
structure Delivers (s : Session) (sent inForce : List InputEvent) : Prop where
  controls_eq : s.console.controls = inForce.foldl .apply .released
  lines_eq : s.console.chips.lines = s.console.controls.lines
  sent_eq : sent = inForce ++ s.console.inbox

/-- A call that leaves the wiring alone, sends nothing and runs no frame delivers
nothing, and loses nothing. -/
theorem Delivers.of_wiring {s : Session} {sent inForce : List InputEvent}
    (h : s.Delivers sent inForce) {call : Call} (hsends : call.sends? = none)
    (hframe : call.isFrame = false) (hw : (s.call call).console.wiring = s.console.wiring) :
    (s.call call).Delivers (sent ++ call.sends?.toList)
      (if s.succeeds call then sent else inForce) := by
  have hcontrols : (s.call call).console.controls = s.console.controls :=
    congrArg Wiring.controls hw
  have hlines : (s.call call).console.chips.lines = s.console.chips.lines :=
    congrArg Wiring.lines hw
  have hinbox : (s.call call).console.inbox = s.console.inbox := congrArg Wiring.inbox hw
  simp only [hsends, succeeds, hframe, Option.toList_none, List.append_nil, Bool.false_and,
    Bool.false_eq_true, if_false]
  refine ⟨hcontrols.trans h.controls_eq, ?_, ?_⟩
  · rw [hlines, hcontrols, h.lines_eq]
  · rw [hinbox, h.sent_eq]

/-- A call loses none of the events: they come into force with a frame, and wait otherwise. -/
theorem delivers_call {s : Session} {sent inForce : List InputEvent} (h : s.Delivers sent inForce)
    (call : Call) :
    (s.call call).Delivers (sent ++ call.sends?.toList)
      (if s.succeeds call then sent else inForce) := by
  cases call with
  | step => exact h.of_wiring rfl rfl s.console.wiring_step
  | reset => exact h.of_wiring rfl rfl s.console.wiring_reset
  | insert cartridge => exact h.of_wiring rfl rfl (s.console.wiring_insert cartridge)
  | takePicture => exact h.of_wiring rfl rfl rfl
  | send event =>
    refine ⟨h.controls_eq, h.lines_eq, ?_⟩
    show sent ++ [event] = inForce ++ (s.console.inbox ++ [event])
    rw [h.sent_eq, List.append_assoc]
  | runFrame =>
    cases hslot : s.console.hasCartridge with
    | false =>
      have hkept := call_runFrame_of_empty hslot
      rw [hkept, succeeds, runFrame_of_empty hslot, Call.sends?, Option.toList_none,
        List.append_nil]
      exact h
    | true =>
      obtain ⟨c', notices, hloop, hframe⟩ := runFrame_of_hasCartridge hslot
      have hcall : (s.call .runFrame).console = c'.nextFrame := by simp only [call, hframe]
      have hheld : s.console.inbox.foldl Controls.apply s.console.controls
          = sent.foldl .apply .released := by
        rw [h.controls_eq, h.sent_eq, List.foldl_append]
      have hwiring := hloop.wiring_eq.trans (wiring_takeInput h.lines_eq)
      rw [hheld] at hwiring
      have hcontrols : c'.controls = sent.foldl .apply .released := congrArg Wiring.controls hwiring
      have hlines : c'.chips.lines = (sent.foldl Controls.apply .released).lines :=
        congrArg Wiring.lines hwiring
      have hinbox : c'.inbox = [] := congrArg Wiring.inbox hwiring
      rw [succeeds, hframe, Call.sends?, Option.toList_none, List.append_nil]
      constructor
      · rw [hcall]
        exact hcontrols
      · rw [hcall]
        exact hlines.trans (congrArg Controls.lines hcontrols.symm)
      · rw [hcall]
        show sent = sent ++ c'.inbox
        rw [hinbox, List.append_nil]

/-- So none is lost in a run. -/
theorem delivers_run {s : Session} {sent inForce : List InputEvent} (h : s.Delivers sent inForce)
    (calls : List Call) :
    (s.run calls).Delivers (sent ++ calls.filterMap Call.sends?)
      (s.eventsInForce sent inForce calls) := by
  induction calls generalizing s sent inForce with
  | nil =>
    rw [List.filterMap_nil, List.append_nil]
    exact h
  | cons call calls ih =>
    have hsent : (call :: calls).filterMap Call.sends?
        = call.sends?.toList ++ calls.filterMap Call.sends? := by
      rw [List.filterMap_cons]
      cases call.sends? <;> rfl
    rw [hsent, ← List.append_assoc]
    exact ih (delivers_call h call)

theorem delivers_powerOn (settings : Settings) :
    (fresh (Console.powerOn settings)).Delivers [] [] := by
  refine ⟨rfl, ?_, rfl⟩
  exact Bus.lines_accessed (Machine.accessed_reset _)

end Session

/-! ## Delivery -/

/-- Whatever a console is asked for: events are neither lost nor put out of order. Those
sent before the last frame began that was run to its end are in force, and the others
wait. The console, the ports and the fire buttons have what the events in force make
of controls at rest, which is, for each control, what the last event for it says; so
events for different controls may change places. A control shows on its line, which a
program can pull low but not hold up, and the lines of port B without a control stay
as they are. Resets and cartridges release nothing. And a frame fails just if there is
no cartridge, and leaves the console with its waiting events as it was then. -/
theorem events_delivered_in_order (settings : Settings) (calls : List Call) :
    let s := Session.played settings calls
    let events := (Session.fresh (Console.powerOn settings)).eventsInForce [] [] calls
    let held := events.foldl Controls.apply .released
    calls.filterMap Call.sends? = events ++ s.console.inbox
      ∧ s.console.controls = held ∧ s.console.chips.lines = held.lines
      ∧ (∀ k : Control,
          held.isActive k = ((events.filterMap (Controls.position? k)).getLast?).getD false
            ∧ s.console.chips.lines.level k = (held.isActive k == k.raises)
            ∧ s.console.chips.bitRead k
              = (!s.console.chips.pullsLow k && s.console.chips.lines.level k))
      ∧ (∀ (c : Controls) (e e' : InputEvent), e.control ≠ e'.control →
          (c.apply e).apply e' = (c.apply e').apply e)
      ∧ (bitAt held.lines.portB 3 = true ∧ bitAt held.lines.portB 2 = false
          ∧ bitAt held.lines.portB 4 = false ∧ bitAt held.lines.portB 5 = false)
      ∧ (∀ call : Call, call.resets = true →
          (s.call call).console.chips.lines = s.console.chips.lines)
      ∧ (s.console.runFrame.stop = some (.refused .noCartridge) ↔ s.console.hasCartridge = false)
      ∧ (s.console.runFrame.stop = some (.refused .noCartridge) →
          s.console.runFrame.console = s.console ∧ s.call .runFrame = s) := by
  intro s events held
  have hdelivers : s.Delivers (calls.filterMap Call.sends?) events :=
    Session.delivers_run (Session.delivers_powerOn settings) calls
  have hlines : s.console.chips.lines = held.lines := by
    rw [hdelivers.lines_eq, hdelivers.controls_eq]
  have hfails : s.console.runFrame.stop = some (.refused .noCartridge)
      ↔ s.console.hasCartridge = false := by
    rw [stop_runFrame_eq_some_iff]
    exact and_iff_left rfl
  refine ⟨hdelivers.sent_eq, hdelivers.controls_eq, hlines, ?_, fun c e e' h => c.apply_comm h,
    held.portB_unwired, ?_, hfails, ?_⟩
  · intro k
    refine ⟨?_, ?_, s.console.chips.bitRead_eq k⟩
    · rw [← Controls.isActive_released k]
      exact Controls.isActive_foldl k events .released
    · rw [hlines]
      exact held.level_lines k
  · intro call hresets
    cases call with
    | reset => exact s.console.lines_reset
    | insert cartridge => exact s.console.lines_insert cartridge
    | step | runFrame | takePicture => cases hresets
    | send event => cases hresets
  · intro h
    have hslot := hfails.mp h
    exact ⟨by rw [runFrame_of_empty hslot], Session.call_runFrame_of_empty hslot⟩

/-- A fire button is pressed and a frame is run; then it is let go, and the console is
reset before another frame. -/
def heldThroughReset (cartridge : Cartridge) : List Call :=
  [.insert cartridge, .send (.fire .one true), .runFrame, .send (.fire .one false), .reset]

theorem Session.eventsInForce_heldThroughReset (s : Session) (cartridge : Cartridge) :
    s.eventsInForce [] [] (heldThroughReset cartridge) = [.fire .one true] := by
  have hslot : ((s.console.insert cartridge).send (.fire .one true)).hasCartridge = true :=
    s.console.hasCartridge_insert cartridge
  have hframe :
      ((s.console.insert cartridge).send (.fire .one true)).runFrame.stop.isNone = true := by
    rw [isNone_stop_runFrame, hslot]
  exact if_pos (e := []) hframe

/-- It still reads low, and will go up with the next frame. -/
theorem events_delivered_in_order_heldThroughReset :
    (Session.played .standard (heldThroughReset idleCartridge)).console.inbox = [.fire .one false]
      ∧ (Session.played .standard (heldThroughReset idleCartridge)).console.chips.bitRead
          (.fire .one) = false := by
  obtain ⟨hsent, -, -, hcontrols, -⟩ :=
    events_delivered_in_order .standard (heldThroughReset idleCartridge)
  rw [Session.eventsInForce_heldThroughReset] at hsent hcontrols
  obtain ⟨-, hlevel, hread⟩ := hcontrols (.fire .one)
  -- the session is not to be looked into
  generalize Session.played .standard (heldThroughReset idleCartridge) = s at hsent hlevel hread ⊢
  have hinbox : [InputEvent.fire .one true] ++ [.fire .one false]
      = [.fire .one true] ++ s.console.inbox := hsent
  have hheld : (([.fire .one true].foldl Controls.apply .released).isActive (.fire .one)
      == (Control.fire .one).raises) = false := rfl
  rw [hlevel, hheld, Bool.and_false] at hread
  exact ⟨(List.append_cancel_left hinbox).symm, hread⟩

end Console

end VideoComputer
